import MailScreen.Mail.Headers
import MailScreen.Text.Blank
import MailScreen.Text.Utf8

/-!
# Canonical forms

Model of `Canonicalization`, `parse_canonicalization`, `canonicalize_body` and
`canonicalize_headers` (RFC 6376).

Signatures are made over a form of the message that does not change on its way. There are two:
simple, which keeps almost all as it is, and relaxed, which takes blanks together.

* `body` is the canonical body: lines with CR LF, no empty lines at the end.
* `headerText` is the canonical form of the signed fields: each name in the list takes the last
  field of that name which no earlier occurrence took. The signature itself comes last.
* `Form.pair?` reads the tag that names the two forms.
-/

namespace MailScreen.Dkim

open MailScreen.Text

/-- A canonical form. -/
inductive Form where
  | simple
  | relaxed
  deriving Repr, DecidableEq

namespace Form

/-- The name of the form. -/
def name : Form → String
  | simple => "simple"
  | relaxed => "relaxed"

/-- The form of a name, whatever its letter case. -/
def ofChars? (cs : List Char) : Option Form :=
  let name := lowerAscii (trim cs)
  [simple, relaxed].find? (·.name.toList == name)

/-- Reads `header/body`; without a slash the body form is simple. -/
def pair? (s : String) : Option (Form × Form) :=
  match cutFirst (· == '/') s.toList with
  | some (header, body) => do return (← ofChars? header, ← ofChars? body)
  | none => do return (← ofChars? s.toList, simple)

end Form

/-- Takes runs of elements that satisfy `p` together to one `mark`, and drops the run at the end;
`pending` says that a run stands before the list. -/
def squeezeFrom {α : Type} (p : α → Bool) (mark : α) : Bool → List α → List α
  | _, [] => []
  | pending, x :: xs =>
    if p x then squeezeFrom p mark true xs
    else if pending then mark :: x :: squeezeFrom p mark false xs
    else x :: squeezeFrom p mark false xs

/-- Takes runs of elements that satisfy `p` together to one `mark`, and drops the run at the
end. -/
def squeeze {α : Type} (p : α → Bool) (mark : α) (xs : List α) : List α :=
  squeezeFrom p mark false xs

/-! ## Bodies -/

/-- The line end of canonical forms. -/
def lineEnd : List UInt8 := [13, 10]

/-- Whether a byte is a space or a tab. -/
def isSpaceByte (b : UInt8) : Bool := b == 32 || b == 9

/-- The lines of a body, without line ends; a line feed at the end begins no further line. -/
def bodyLines (bytes : List UInt8) : List (List UInt8) :=
  if bytes.isEmpty then []
  else (pieces (· == 10) (dropFinal 10 bytes)).map (dropFinal 13)

/-- The canonical form of a line of a body. -/
def bodyLine (form : Form) (line : List UInt8) : List UInt8 :=
  match form with
  | .simple => line
  | .relaxed => squeeze isSpaceByte 32 line

/-- The canonical body: an empty body is one line end in the simple form, and nothing in the
relaxed one. -/
def body (form : Form) (bytes : List UInt8) : List UInt8 :=
  let lines := dropEndWhile List.isEmpty ((bodyLines bytes).map (bodyLine form))
  if lines.isEmpty && form == .simple then lineEnd
  else lines.flatMap (· ++ lineEnd)

/-! ## Header fields -/

/-- Without the pairs of carriage return and line feed. -/
def dropBreaks : List Char → List Char
  | '\r' :: '\n' :: rest => dropBreaks rest
  | c :: rest => c :: dropBreaks rest
  | [] => []

/-- Whether a character is a space or a tab. -/
def isSpaceChar (c : Char) : Bool := c == ' ' || c == '\t'

/-- The relaxed form of a value: on one line, without blanks around it, runs of spaces and tabs
taken together. -/
def relaxedValue (value : List Char) : List Char :=
  squeeze isSpaceChar ' ' (trim (dropBreaks value))

/-- The canonical form of a field, without a line end. -/
def fieldText (form : Form) (name value : List Char) : List Char :=
  match form with
  | .simple => name ++ [':', ' '] ++ value
  | .relaxed => lowerAscii (trim name) ++ ':' :: relaxedValue value

/-- The fields of a name, the last first. -/
def instances (h : Mail.Headers) (name : String) : List Mail.Field :=
  (h.fields.filter (·.named name)).reverse

/-- The fields that a list of names takes, after the names in `earlier`. -/
def signedFields (h : Mail.Headers) (earlier : List String) : List String → List Mail.Field
  | [] => []
  | name :: rest =>
    ((instances h name)[earlier.count name]?).toList ++ signedFields h (name :: earlier) rest

/-- The canonical form of the signed fields and of the signature. -/
def headerText (form : Form) (h : Mail.Headers) (names : List String) (signature : String) :
    List Char :=
  (signedFields h [] names).flatMap
      (fun f => fieldText form f.name.toList f.value.toList ++ ['\r', '\n']) ++
    fieldText form "DKIM-Signature".toList signature.toList

/-- The bytes that are signed. -/
def headerBytes (form : Form) (h : Mail.Headers) (names : List String) (signature : String) :
    List UInt8 :=
  Utf8.encode (headerText form h names signature)

end MailScreen.Dkim
