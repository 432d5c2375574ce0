import MailScreen.Setting

/-!
# Tables of a TOML text

The lines of a text build up a tree of tables. A table may be made by a header of its own, on the
way to a deeper header, or on the way to a value with a dotted name; this decides what may be added
to it later.

* `Tree.within` changes the table at the end of a path and makes the tables on the way.
* `Tree.assign`, `Tree.openTable` and `Tree.openItem` are what the three kinds of lines do.
* `Tree.toSetting` forgets how the tables were made.
-/

namespace MailScreen.Toml

/-- How a table came to be. -/
inductive Origin where
  /-- By a header of its own, or with braces around it. -/
  | header
  /-- On the way to the table of another header. -/
  | passed
  /-- By a dotted name. -/
  | dotted
  deriving Repr, DecidableEq

/-- A value or a table that may still grow. -/
inductive Tree where
  | leaf (value : Setting)
  | branch (origin : Origin) (members : List (String × Tree))
  /-- A list of tables; only the last one grows. -/
  | series (before : List Tree) (last : Tree)
  deriving Repr, Inhabited

namespace Tree

/-- The tree of an empty text. -/
def root : Tree := branch .header []

/-- Changes the member of a name, which `f` finds absent if there is none. -/
def change (name : String) (f : Option Tree → Option Tree) :
    List (String × Tree) → Option (List (String × Tree))
  | [] => (f none).map fun t => [(name, t)]
  | (n, t) :: rest =>
    if n = name then (f (some t)).map fun t => (n, t) :: rest
    else (change name f rest).map ((n, t) :: ·)

/-- Changes the table at the end of a path. Tables that are made on the way have the given origin;
a dotted name must not pass through the table of a header. -/
def within (made : Origin) : List String → (Tree → Option Tree) → Tree → Option Tree
  | [], f, t => f t
  | name :: path, f, branch origin members =>
    (change name (fun
      | none => within made path f (branch made [])
      | some (leaf _) => none
      | some (branch o ms) =>
        if made = .dotted ∧ o = .header then none else within made path f (branch o ms)
      | some (series before last) => (within made path f last).map (series before)) members).map
      (branch origin)
  | _, _, _ => none

/-- Gives a new name of a table a value. A dotted name needs a table that a dotted name made. -/
def insert (isDotted : Bool) (name : String) (value : Setting) : Tree → Option Tree
  | branch origin members =>
    if (origin = .dotted) = isDotted then
      (change name (fun | none => some (leaf value) | some _ => none) members).map (branch origin)
    else none
  | _ => none

/-- A name with a value, below a table. -/
def assignBelow (path : List String) (value : Setting) (t : Tree) : Option Tree :=
  match path.getLast? with
  | some name => within .dotted path.dropLast (insert (1 < path.length) name value) t
  | none => none

/-- A line that gives a name a value, in the table of a header. -/
def assign (header path : List String) (value : Setting) (t : Tree) : Option Tree :=
  within .passed header (assignBelow path value) t

/-- Changes the member at the end of a path. -/
def at? (path : List String) (f : Option Tree → Option Tree) (t : Tree) : Option Tree :=
  match path.getLast? with
  | none => none
  | some name =>
    within .passed path.dropLast (fun
      | branch origin members => (change name f members).map (branch origin)
      | _ => none) t

/-- The header of a table: of a new one, or of one that other headers have passed. -/
def openTable (path : List String) (t : Tree) : Option Tree :=
  at? path (fun
    | none => some root
    | some (branch .passed members) => some (branch .header members)
    | some _ => none) t

/-- The header of the next table of a list. -/
def openItem (path : List String) (t : Tree) : Option Tree :=
  at? path (fun
    | none => some (series [] root)
    | some (series before last) => some (series (before ++ [last]) root)
    | some _ => none) t

mutual

/-- The value of a tree. -/
def toSetting : Tree → Setting
  | leaf value => value
  | branch _ members => .table (membersToSetting members)
  | series before last => .list false (itemsToSetting before ++ [toSetting last])

/-- The values of members. -/
def membersToSetting : List (String × Tree) → List (String × Setting)
  | [] => []
  | (name, t) :: rest => (name, toSetting t) :: membersToSetting rest

/-- The values of items. -/
def itemsToSetting : List Tree → List Setting
  | [] => []
  | t :: rest => toSetting t :: itemsToSetting rest

end

end Tree

end MailScreen.Toml
