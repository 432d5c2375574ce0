import MailScreen.Toml.Moment
import MailScreen.Toml.Number
import MailScreen.Toml.Quoted
import MailScreen.Toml.Tree

/-!
# Reading TOML

* `path?` reads a name, which may be dotted.
* `readValue` reads a value. Its fuel bounds the number of steps, and its room the depth of nested
  values.
* `line?` reads a line, `ofText?` a whole text.
-/

namespace MailScreen.Toml

open MailScreen.Text

/-! ## Names -/

/-- A part of a name. -/
def part? (cs : List Char) : Option (String × List Char) :=
  match cs with
  | '"' :: _ | '\'' :: _ => (lineString? cs).map fun (s, rest) => (String.ofList s, rest)
  | _ =>
    let bare := cs.takeWhile isBare
    if bare.isEmpty then none else some (String.ofList bare, cs.dropWhile isBare)

/-- The parts of a name; blanks may stand around each of them. -/
def parts? : Nat → List Char → Option (List String × List Char)
  | 0, _ => none
  | fuel + 1, cs => do
    let (p, rest) ← part? (skipBlanks cs)
    match skipBlanks rest with
    | '.' :: rest => (parts? fuel rest).map fun (ps, rest) => (p :: ps, rest)
    | rest => some ([p], rest)

/-- A name has fewer parts than this. -/
def partLimit : Nat := 80

/-- A name and the text after it. -/
def path? (cs : List Char) : Option (List String × List Char) :=
  parts? (partLimit - 1) cs

/-! ## Values -/

/-- The names and values of braces as one table. -/
def tableOf (pairs : List (List String × Setting)) : Option Setting :=
  (pairs.foldlM (fun (t : Tree) (path, v) => t.assignBelow path v) .root).map Tree.toSetting

/-- Without blanks, comments and ends of lines. -/
def skipLines : Nat → List Char → List Char
  | 0, cs => cs
  | fuel + 1, cs =>
    match skipComment (skipBlanks cs) with
    | '\n' :: rest => skipLines fuel rest
    | '\r' :: '\n' :: rest => skipLines fuel rest
    | rest => rest

/-- A character of a number or a date. -/
def isToken (c : Char) : Bool :=
  c.isAlphanum || c == '+' || c == '-' || c == '_' || c == '.' || c == ':'

/-- A number or a date, by its characters. -/
def simple? (token : List Char) : Option Setting :=
  if isMoment token then some .foreign
  else if token = "true".toList then some (.flag true)
  else if token = "false".toList then some (.flag false)
  else number? token

/-- Takes a word, a number or a date off the front; a blank may stand between a date and a time. -/
def token? (cs : List Char) : Option (Setting × List Char) :=
  let token := cs.takeWhile isToken
  match cs.dropWhile isToken with
  | ' ' :: d :: rest =>
    if isDate token && d.isDigit then
      let time := (d :: rest).takeWhile isToken
      (simple? (token ++ ' ' :: time)).map (·, (d :: rest).dropWhile isToken)
    else (simple? token).map (·, ' ' :: d :: rest)
  | rest => (simple? token).map (·, rest)

mutual

/-- Reads a value off the front of a text. -/
def readValue : Nat → Nat → List Char → Option (Setting × List Char)
  | fuel + 1, room + 1, '[' :: rest =>
    match skipLines rest.length rest with
    | ']' :: rest => some (.list false [], rest)
    | _ => (readItems fuel room rest).map fun (vs, rest) => (.list false vs, rest)
  | fuel + 1, room + 1, '\x7b' :: rest =>
    match skipBlanks rest with
    | '\x7d' :: rest => some (.table [], rest)
    | _ => do
      let (pairs, rest) ← readPairs fuel room rest
      return (← tableOf pairs, rest)
  | _ + 1, _, cs =>
    match cs with
    | '"' :: _ | '\'' :: _ => (string? cs).map fun (s, rest) => (.text (String.ofList s), rest)
    | _ => token? cs
  | 0, _, _ => none

/-- Reads one or more items and the bracket after them; a comma may stand after the last one. -/
def readItems : Nat → Nat → List Char → Option (List Setting × List Char)
  | 0, _, _ => none
  | fuel + 1, room, cs => do
    let (v, rest) ← readValue fuel room (skipLines cs.length cs)
    match skipLines rest.length rest with
    | ']' :: rest => some ([v], rest)
    | ',' :: rest =>
      match skipLines rest.length rest with
      | ']' :: rest => some ([v], rest)
      | _ => (readItems fuel room rest).map fun (vs, rest) => (v :: vs, rest)
    | _ => none

/-- Reads one or more names with values and the brace after them. -/
def readPairs : Nat → Nat → List Char → Option (List (List String × Setting) × List Char)
  | 0, _, _ => none
  | fuel + 1, room, cs => do
    let (path, rest) ← path? cs
    match rest with
    | '=' :: rest =>
      let (v, rest) ← readValue fuel room (skipBlanks rest)
      match skipBlanks rest with
      | '\x7d' :: rest => some ([(path, v)], rest)
      | ',' :: rest => (readPairs fuel room rest).map fun (ps, rest) => ((path, v) :: ps, rest)
      | _ => none
    | _ => none

end

/-- How deep values may be nested. -/
def depthLimit : Nat := 79

/-- Reads a value off the front of a text. -/
def value? (cs : List Char) : Option (Setting × List Char) :=
  readValue (2 * cs.length + 2) depthLimit cs

/-! ## Lines -/

/-- What a line does. -/
inductive Line where
  | nothing
  | table (path : List String)
  | item (path : List String)
  | entry (path : List String) (value : Setting)
  deriving Repr

/-- Reads a line and gives the text after it. -/
def line? (cs : List Char) : Option (Line × List Char) :=
  match skipBlanks cs with
  | '[' :: '[' :: rest => do
    let (path, rest) ← path? rest
    match rest with
    | ']' :: ']' :: rest => (restOfLine? rest).map (.item path, ·)
    | _ => none
  | '[' :: rest => do
    let (path, rest) ← path? rest
    match rest with
    | ']' :: rest => (restOfLine? rest).map (.table path, ·)
    | _ => none
  | cs =>
    match restOfLine? cs with
    | some rest => some (.nothing, rest)
    | none => do
      let (path, rest) ← path? cs
      match rest with
      | '=' :: rest =>
        let (v, rest) ← value? (skipBlanks rest)
        (restOfLine? rest).map (.entry path v, ·)
      | _ => none

/-- The lines of a text. -/
def lines? : Nat → List Char → Option (List Line)
  | _, [] => some []
  | 0, _ => none
  | fuel + 1, cs => do
    let (line, rest) ← line? cs
    return line :: (← lines? fuel rest)

/-- A tree, and the header that holds for the lines to come. -/
structure Progress where
  tree : Tree
  header : List String

/-- What a line does to a tree. -/
def Progress.step (p : Progress) : Line → Option Progress
  | .nothing => some p
  | .table path => (p.tree.openTable path).map (⟨·, path⟩)
  | .item path => (p.tree.openItem path).map (⟨·, path⟩)
  | .entry path v => (p.tree.assign p.header path v).map (⟨·, p.header⟩)

/-- Without the mark that may stand at the very beginning of a text. -/
def withoutMark (cs : List Char) : List Char :=
  if cs.head? = some '\ufeff' then cs.tail else cs

/-- Reads a text. -/
def ofText? (s : String) : Option Setting := do
  let cs := withoutMark s.toList
  let ls ← lines? cs.length cs
  let p ← ls.foldlM Progress.step ⟨.root, []⟩
  return p.tree.toSetting

end MailScreen.Toml
