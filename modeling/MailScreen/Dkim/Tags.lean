import MailScreen.Text.Ascii
import MailScreen.Text.Blank

/-!
# Tag lists

Model of `parse_dkim_tags` and `strip_dkim_signature_value` (RFC 6376).

Signatures and published keys are lists `name=value; name=value; …`. Blanks around names and values
do not count, and neither does the letter case of names.

* `Tags.ofText` reads a list; a name that occurs twice is an error.
* `withoutSignature` empties the value of the tag `b` in the text of a signature and leaves all else
  as it is: a signature is made over its own text without that value.
-/

namespace MailScreen.Dkim

open MailScreen.Text

/-- What is wrong with a tag list. -/
inductive TagFault where
  | malformed (part : String)
  | duplicate (name : String)
  | noSignatureTag
  deriving Repr, DecidableEq

/-- The wording of the fault. -/
def TagFault.message : TagFault → String
  | malformed part => "Malformed tag: " ++ part
  | duplicate name => "Duplicate tag: " ++ name
  | noSignatureTag => "DKIM-Signature header does not contain b= tag"

/-- Tags in the order in which they were written; no name occurs twice. -/
abbrev Tags := List (String × String)

namespace Tags

/-- The value of a tag. -/
def get? (t : Tags) (name : String) : Option String :=
  t.lookup name

/-- Whether there is a tag of this name. -/
def contains (t : Tags) (name : String) : Bool :=
  (t.get? name).isSome

/-- The name and value of a part between semicolons. -/
def tag? (part : List Char) : Option (String × String) :=
  (cutFirst (· == '=') part).map fun (name, value) =>
    (String.ofList (lowerAscii (trim name)), String.ofList (trim value))

/-- Reads the parts that follow the tags `t`. -/
def addParts (t : Tags) : List (List Char) → Except TagFault Tags
  | [] => .ok t
  | part :: rest =>
    let part := trim part
    if part.isEmpty then addParts t rest
    else
      match tag? part with
      | none => .error (.malformed (String.ofList part))
      | some (name, value) =>
        if t.contains name then .error (.duplicate name)
        else addParts (t ++ [(name, value)]) rest

/-- Reads a tag list. -/
def ofChars (cs : List Char) : Except TagFault Tags :=
  addParts [] (pieces (· == ';') cs)

/-- Reads a tag list. -/
def ofText (s : String) : Except TagFault Tags :=
  ofChars s.toList

end Tags

/-! ## The text that is signed -/

/-- A part up to the `=` of the tag `b`, if it is that tag: blanks, the name and the sign. -/
def signatureTag? (part : List Char) : Option (List Char) :=
  match part.dropWhile isBlank with
  | c :: '=' :: _ =>
    if c.toLower = 'b' then some (part.takeWhile isBlank ++ [c, '=']) else none
  | _ => none

/-- Empties the first tag `b` among parts. -/
def emptyFirst? : List (List Char) → Option (List (List Char))
  | [] => none
  | part :: rest =>
    match signatureTag? part with
    | some emptied => some (emptied :: rest)
    | none => (emptyFirst? rest).map (part :: ·)

/-- The text of a signature without the value of its tag `b`. -/
def withoutSignature (s : String) : Except TagFault String :=
  match emptyFirst? (pieces (· == ';') s.toList) with
  | some parts => .ok (String.ofList ([';'].intercalate parts))
  | none => .error .noSignatureTag

end MailScreen.Dkim
