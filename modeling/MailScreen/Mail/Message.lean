import MailScreen.Mail.Headers
import MailScreen.Mail.Mailbox
import MailScreen.Text.Utf8

/-!
# Messages

Model of `parse_message` and `find_header_end`, and of `from_header_domain` (RFC 5322).

A message is its header fields and its body. On the wire the fields stand first, a line each or
more than one if the value is folded, then an empty line, then the bytes of the body.

* `Message.ofBytes` reads a message: `splitBlank` finds the empty line, `gather` puts the lines of
  the header block together into fields. A folded value keeps its line breaks.
* `Message.toBytes` writes a message.
* `Message.author?` is the domain of the last `From` field.
-/

namespace MailScreen.Mail

open MailScreen.Text

/-- Header fields and body. -/
structure Message where
  headers : Headers
  body : List UInt8
  deriving Repr, DecidableEq

namespace Message

/-- The line feed. -/
def lf : UInt8 := 10

/-- The carriage return. -/
def cr : UInt8 := 13

/-- What follows a line end at the front, if there is one. -/
def dropLineEnd? (bytes : List UInt8) : Option (List UInt8) :=
  match dropLead? [lf] bytes with
  | some rest => some rest
  | none => dropLead? [cr, lf] bytes

/-- What stands before and after the first empty line, which is a line end right after a line
feed; the block before it loses that line feed. -/
def splitBlankFrom : List UInt8 → List UInt8 × List UInt8
  | [] => ([], [])
  | b :: rest =>
    match if b = lf then dropLineEnd? rest else none with
    | some body => ([], body)
    | none =>
      let (block, body) := splitBlankFrom rest
      (b :: block, body)

/-- The header block and the body; a message that begins with a line end has no header block, one
without an empty line has no body. -/
def splitBlank (raw : List UInt8) : List UInt8 × List UInt8 :=
  match dropLineEnd? raw with
  | some body => ([], body)
  | none => splitBlankFrom raw

/-- A field whose lines are still being gathered. -/
structure OpenField where
  name : List Char
  value : List Char
  deriving Repr, DecidableEq

/-- The finished field. -/
def OpenField.close (f : OpenField) : Field :=
  ⟨String.ofList f.name, String.ofList f.value⟩

/-- The field that a line begins: the name up to the first colon without blanks around it, the
value after it without one space at its front. A line without a colon begins none. -/
def OpenField.ofLine? (line : List Char) : Option OpenField :=
  (cutFirst (· == ':') line).map fun (name, value) => ⟨trim name, dropLead [' '] value⟩

/-- Whether a line continues the field before it. -/
def continues (line : List Char) : Bool :=
  line.head? == some ' ' || line.head? == some '\t'

/-- The fields of a list of lines, the first of which follow `current`. -/
def gather : Option OpenField → List (List Char) → List Field
  | current, [] => (current.map OpenField.close).toList
  | current, line :: lines =>
    if continues line then
      gather (current.map fun f => { f with value := f.value ++ '\r' :: '\n' :: line }) lines
    else
      match OpenField.ofLine? line with
      | none => gather current lines
      | some f => (current.map OpenField.close).toList ++ gather (some f) lines

/-- The lines of a header block, without line ends. -/
def lines (block : List Char) : List (List Char) :=
  (pieces (· == '\n') block).map (dropFinal '\r')

/-- Reads a message. -/
def ofBytes (raw : List UInt8) : Message :=
  let (block, body) := splitBlank raw
  ⟨⟨gather none (lines (Utf8.decodeLossy block))⟩, body⟩

/-- The written form of a field. -/
def fieldChars (f : Field) : List Char :=
  f.name.toList ++ [':', ' '] ++ f.value.toList ++ ['\r', '\n']

/-- The written form of a message. -/
def toBytes (m : Message) : List UInt8 :=
  Utf8.encode (m.headers.fields.flatMap fieldChars ++ ['\r', '\n']) ++ m.body

/-- The domain of the author, from the last `From` field. -/
def author? (m : Message) : Option String :=
  ((m.headers.get? "from").bind Mailbox.ofFieldValue?).map (·.domain)

end Message

end MailScreen.Mail
