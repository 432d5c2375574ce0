import MailScreen.Text.Blank
import MailScreen.Text.Ascii

/-!
# Domain names

Model of `normalize`, `extract_domain` and `is_fqdn` for domains.

Names are compared in a normal form: no blanks around, no dots at the end, letters in lower case.

* `normalize` gives the normal form.
* `ofMailbox?` takes the domain out of a mailbox, `<user@domain>` or without brackets.
* `isQualified` says whether a text looks like the full name of a host.
-/

namespace MailScreen.DomainName

open MailScreen.Text

/-- Without blanks at the ends, then without dots at the end. -/
def stripped (cs : List Char) : List Char :=
  dropEndWhile (· == '.') (trim cs)

/-- The normal form, as characters. -/
def normalizeChars (cs : List Char) : List Char :=
  lowerAscii (stripped cs)

/-- The normal form. -/
def normalize (s : String) : String :=
  String.ofList (normalizeChars s.toList)

/-- The labels of a name, from left to right. -/
def labels (cs : List Char) : List (List Char) :=
  pieces (· == '.') cs

/-- A mailbox without blanks around and without the brackets that enclose it. -/
def unbracket (cs : List Char) : List Char :=
  dropEndWhile (· == '>') ((trim cs).dropWhile (· == '<'))

/-- The normal form of the domain of a mailbox. -/
def ofMailbox? (s : String) : Option String := do
  let (_, domain) ← cutLast (· == '@') (unbracket s.toList)
  if domain.isEmpty then none else some (String.ofList (normalizeChars domain))

/-- A label of a host name: 1 to 63 letters, digits, hyphens and underscores, with no hyphen at
either end. -/
def isHostLabel (label : List Char) : Bool :=
  ! label.isEmpty && label.length ≤ 63 && label.head? != some '-' && label.getLast? != some '-' &&
    label.all fun c => c.isAlphanum || c == '-' || c == '_'

/-- Whether a name looks like the full name of a host: at most 253 characters, at least two
labels, and host labels throughout. -/
def isQualifiedChars (cs : List Char) : Bool :=
  let name := dropEndWhile (· == '.') cs
  ! name.isEmpty && name.length ≤ 253 && name.contains '.' && (labels name).all isHostLabel

/-- Whether a name looks like the full name of a host. -/
def isQualified (s : String) : Bool :=
  isQualifiedChars s.toList

end MailScreen.DomainName
