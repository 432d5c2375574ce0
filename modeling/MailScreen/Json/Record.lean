import MailScreen.Json.Value

/-!
# Records and words as JSON

How the values of the program's own types stand in JSON.

* `record?` takes a record apart: an object whose known names occur at most once, or an array of
  the fields in their order.
* `word?` reads the name of a case: a string, or an object with that one name and `null`.
-/

namespace MailScreen.Json

/-- The values of the members of one name. -/
def valuesOf (name : String) (members : List (Option String × Value)) : List Value :=
  (members.filter (·.1 == some name)).map (·.2)

/-- The value of a member, if there is one; the name must not occur twice. -/
def uniqueValue? (name : String) (members : List (Option String × Value)) :
    Option (Option Value) :=
  match valuesOf name members with
  | [] => some none
  | [v] => some (some v)
  | _ => none

/-- The fields of a record in the order of `names`, each absent or present. Of a record written as
an array at most the last fields may be absent, and at least `atLeast` must be there. -/
def record? (names : List String) (atLeast : Nat) : Value → Option (List (Option Value))
  | .object members =>
    if members.any (·.1.isNone) then none
    else names.mapM fun name => uniqueValue? name members
  | .array items =>
    if atLeast ≤ items.length ∧ items.length ≤ names.length then
      some (items.map some ++ List.replicate (names.length - items.length) none)
    else none
  | _ => none

/-- The text of a string. -/
def text? : Value → Option String
  | .text s => some s
  | _ => none

/-- A string, or `null` for none. -/
def nullableText? : Value → Option (Option String)
  | .null => some none
  | .text s => some (some s)
  | _ => none

/-- A truth value. -/
def bool? : Value → Option Bool
  | .bool b => some b
  | _ => none

/-- The name of a case. -/
def caseName? : Value → Option String
  | .text s => some s
  | .object [(some s, .null)] => some s
  | _ => none

end MailScreen.Json
