/-!
# JSON values

* `Value` is the type of JSON values. A string that was written with an unpaired surrogate escape
  is no text, but it is a value all the same: it may stand where nobody looks at it.
* `Value.strings` and `Value.ofOption` build values for output.
-/

namespace MailScreen.Json

/-- A JSON value; the members of an object stand in the order in which they were written. -/
inductive Value where
  | null
  | bool (b : Bool)
  /-- A number, by its literal. -/
  | number (literal : String)
  | text (s : String)
  /-- A string with an unpaired surrogate in it. -/
  | brokenText
  | array (items : List Value)
  /-- An object; a name with an unpaired surrogate in it is `none`. -/
  | object (members : List (Option String × Value))
  deriving Repr, Inhabited

namespace Value

/-- A text, or `null` for none. -/
def ofOption : Option String → Value
  | some s => text s
  | none => null

/-- An array of texts. -/
def strings (texts : List String) : Value :=
  array (texts.map text)

/-- An object. -/
def ofMembers (members : List (String × Value)) : Value :=
  object (members.map fun (name, v) => (some name, v))

end Value

end MailScreen.Json
