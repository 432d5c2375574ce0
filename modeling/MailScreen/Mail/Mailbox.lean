import MailScreen.DomainName
import MailScreen.Json.Record

/-!
# Mailboxes

Model of `EmailAddress` (`parse`, `from_header_value` and its text).

A mailbox is a local part and a domain. Sender and recipient of the envelope and the author in a
message's `From` field are mailboxes.

* `Mailbox.ofText?` reads `local@domain`, with or without angle brackets; the last `@` divides the
  two, the domain is put into lower case and loses the dots at its end.
* `Mailbox.ofFieldValue?` finds the mailbox in a field value with a display name or comments.
* `Mailbox.toText` writes `local@domain`.
-/

namespace MailScreen.Mail

open MailScreen.Text

/-- An address `name@domain`. -/
structure Mailbox where
  name : String
  domain : String
  deriving Repr, DecidableEq

namespace Mailbox

/-- The written form `name@domain`. -/
def toText (m : Mailbox) : String :=
  m.name ++ "@" ++ m.domain

/-- The members of the mailbox, in order. -/
def toJson (m : Mailbox) : Json.Value :=
  .ofMembers [("local", .text m.name), ("domain", .text m.domain)]

/-- Takes a mailbox from a record, as it stands there. -/
def ofJson? (v : Json.Value) : Option Mailbox := do
  let [name, domain] ← Json.record? ["local", "domain"] 2 v | none
  return ⟨← Json.text? (← name), ← Json.text? (← domain)⟩

/-- Reads a mailbox; neither part may be empty, and the domain holds no blank. -/
def ofChars? (cs : List Char) : Option Mailbox :=
  match cutLast (· == '@') (DomainName.unbracket cs) with
  | none => none
  | some (name, domain) =>
    if name.isEmpty || domain.isEmpty || domain.any isBlank then none
    else some ⟨String.ofList name,
      String.ofList (lowerAscii (dropEndWhile (· == '.') domain))⟩

/-- Reads a mailbox. -/
def ofText? (s : String) : Option Mailbox :=
  ofChars? s.toList

/-- What stands between the last `<` and the last `>`, if they stand in this order. -/
def bracketed? (cs : List Char) : Option (List Char) := do
  let (_, inside) ← cutLast (· == '<') cs
  let (text, _) ← cutLast (· == '>') inside
  some text

/-- The mailbox in the value of a field such as `From`: what the last angle brackets enclose, or
else the first word that is a mailbox. -/
def ofFieldValue? (s : String) : Option Mailbox :=
  match bracketed? s.toList with
  | some text => ofChars? text
  | none => (words s.toList).findSome? ofChars?

end Mailbox

end MailScreen.Mail
