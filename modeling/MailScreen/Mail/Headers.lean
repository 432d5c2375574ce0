import MailScreen.Text.Ascii

/-!
# Header fields

Model of `Headers` (`insert`, `get`, `get_all`, `contains`).

The fields of a message in the order in which they stand; a name may occur more than once, and
names are compared without regard to letter case.

* `Headers.get?` is the value of the last field of a name, `Headers.getAll` all of them.
* `Headers.add` puts a field at the end.
-/

namespace MailScreen.Mail

open MailScreen.Text

/-- A header field. -/
structure Field where
  name : String
  value : String
  deriving Repr, DecidableEq

/-- Whether the field has this name. -/
def Field.named (f : Field) (name : String) : Bool :=
  eqIgnoreCase f.name.toList name.toList

/-- The fields of a message in their order. -/
structure Headers where
  fields : List Field
  deriving Repr, DecidableEq

namespace Headers

/-- No fields. -/
def empty : Headers := ⟨[]⟩

/-- Puts a field at the end. -/
def add (h : Headers) (name value : String) : Headers :=
  ⟨h.fields ++ [⟨name, value⟩]⟩

/-- All values of a name, in message order. -/
def getAll (h : Headers) (name : String) : List String :=
  (h.fields.filter (·.named name)).map (·.value)

/-- The last value of a name. -/
def get? (h : Headers) (name : String) : Option String :=
  (h.getAll name).getLast?

/-- Whether there is a field of this name. -/
def contains (h : Headers) (name : String) : Bool :=
  (h.get? name).isSome

/-- The number of fields. -/
def size (h : Headers) : Nat :=
  h.fields.length

end Headers

end MailScreen.Mail
