import MailScreen.Decimal.Literal
import MailScreen.Json.Value

/-!
# Values of settings

A configuration is read from a text in one of several formats. What the formats have in common is a
`Setting`.

* `Setting.ofJson` takes a JSON value as a setting.
* `Setting.fields?` takes a record apart; the other readers give a value of one type or refuse.
-/

namespace MailScreen

/-- A value as a configuration gives it. -/
inductive Setting where
  | text (s : String)
  | integer (n : Int)
  | number (x : Float)
  | flag (b : Bool)
  /-- A list. A record may be written as the list of its fields; `exact` says that such a list must
  not go on after the last field. -/
  | list (exact : Bool) (items : List Setting)
  | table (members : List (String × Setting))
  | null
  /-- A value that no setting has, such as a date. -/
  | foreign
  deriving Repr, Inhabited

namespace Setting

/-! ## JSON -/

/-- A JSON number: an integer if it is written as one and fits into 64 bits. -/
def ofLiteral (literal : String) : Setting :=
  let cs := literal.toList
  let float := number ((Decimal.Literal.ofChars? cs).elim 0 (·.toFloat))
  match Decimal.integer? cs with
  | some n => if literal = "-0" ∨ n < -9223372036854775808 ∨ 18446744073709551616 ≤ n then float
    else integer n
  | none => float

mutual

/-- A JSON value as a setting. -/
def ofJson : Json.Value → Setting
  | .null => null
  | .bool b => flag b
  | .number literal => ofLiteral literal
  | .text s => text s
  | .brokenText => foreign
  | .array items => list true (ofItems items)
  | .object members => table (ofMembers members)

/-- The items of an array. -/
def ofItems : List Json.Value → List Setting
  | [] => []
  | v :: vs => ofJson v :: ofItems vs

/-- The members of an object. -/
def ofMembers : List (Option String × Json.Value) → List (String × Setting)
  | [] => []
  | (none, _) :: ms => ofMembers ms
  | (some name, v) :: ms => (name, ofJson v) :: ofMembers ms

end

/-! ## Readers -/

/-- A text. -/
def text? : Setting → Option String
  | text s => some s
  | _ => none

/-- A truth value. -/
def flag? : Setting → Option Bool
  | flag b => some b
  | _ => none

/-- A natural number below a bound. -/
def natural? (bound : Nat) : Setting → Option Nat
  | integer n => if 0 ≤ n ∧ n < bound then some n.toNat else none
  | _ => none

/-- An integer of 32 bits. -/
def points? : Setting → Option Int
  | integer n => if -2147483648 ≤ n ∧ n < 2147483648 then some n else none
  | _ => none

/-- A float; an integer is taken as one. -/
def float? : Setting → Option Float
  | number x => some x
  | integer n => some (Float.ofInt n)
  | _ => none

/-- A list of values that `read` accepts. -/
def list? {α : Type} (read : Setting → Option α) : Setting → Option (List α)
  | list _ items => items.mapM read
  | _ => none

/-- The fields of a record by name. The fields of a record written as a list have the names in
order, and at least `atLeast` of them must be there; other members of a table do not matter. -/
def fields? (names : List String) (atLeast : Nat) :
    Setting → Option (String → Option Setting)
  | table members => some fun name => (members.reverse.find? (·.1 = name)).map (·.2)
  | list exact items =>
    if items.length < atLeast ∨ (exact ∧ names.length < items.length) then none
    else some fun name => items[names.idxOf name]?
  | _ => none

/-- The value of a field, or the default of a field that is not there. -/
def orElse {α : Type} (read : Setting → Option α) (default : α) : Option Setting → Option α
  | some s => read s
  | none => some default

end Setting

end MailScreen
