/-!
# Reading UTF-8

Messages are bytes, and their header block is read as UTF-8 text. Bytes that are no UTF-8 do not
stop the reading: each maximal run of bytes that begins a character but does not complete it, and
each byte that cannot begin one, is read as the replacement character.

* `lead?` says what a first byte asks of the bytes after it.
* `decodeLossy` is the reading, `encode` the writing of text.
* `wellFormed` holds of the bytes in which nothing had to be replaced; `decode` refuses all others.
-/

namespace MailScreen.Text.Utf8

/-- What stands for bytes that are no character. -/
def replacement : Char := Char.ofNat 0xFFFD

/-- What a first byte asks for: how many bytes follow, the range of the next of them, and the
bits that the first byte adds to the character. -/
structure Lead where
  count : Nat
  low : UInt8
  high : UInt8
  value : Nat
  deriving Repr, DecidableEq

/-- The demands of a first byte; overlong forms and surrogates are shut out by the second byte. -/
def lead? (b : UInt8) : Option Lead :=
  if b < 0x80 then some ⟨0, 0x80, 0xBF, b.toNat⟩
  else if b < 0xC2 then none
  else if b < 0xE0 then some ⟨1, 0x80, 0xBF, b.toNat - 0xC0⟩
  else if b = 0xE0 then some ⟨2, 0xA0, 0xBF, 0⟩
  else if b = 0xED then some ⟨2, 0x80, 0x9F, 0xD⟩
  else if b < 0xF0 then some ⟨2, 0x80, 0xBF, b.toNat - 0xE0⟩
  else if b = 0xF0 then some ⟨3, 0x90, 0xBF, 0⟩
  else if b < 0xF4 then some ⟨3, 0x80, 0xBF, b.toNat - 0xF0⟩
  else if b = 0xF4 then some ⟨3, 0x80, 0x8F, 4⟩
  else none

/-- Reads the `count` bytes that a first byte asks for, the next of them between `low` and `high`:
how many of them are there, and the code point if all are. -/
def follow (value : Nat) : Nat → UInt8 → UInt8 → List UInt8 → Nat × Option Nat
  | 0, _, _, _ => (0, some value)
  | _ + 1, _, _, [] => (0, none)
  | count + 1, low, high, b :: bs =>
    if low ≤ b && b ≤ high then
      let (eaten, result) := follow (64 * value + (b.toNat - 0x80)) count 0x80 0xBF bs
      (eaten + 1, result)
    else (0, none)

/-- The character that begins with byte `b`, and how many of the bytes after `b` belong to it. -/
def next (b : UInt8) (bs : List UInt8) : Option Char × Nat :=
  match lead? b with
  | none => (none, 0)
  | some lead =>
    let (eaten, result) := follow lead.value lead.count lead.low lead.high bs
    (result.map Char.ofNat, eaten)

/-- The text of the bytes, with replacement characters for what is not UTF-8. -/
def decodeLossy : List UInt8 → List Char
  | [] => []
  | b :: bs =>
    let (c, eaten) := next b bs
    c.getD replacement :: decodeLossy (bs.drop eaten)
termination_by bytes => bytes.length
decreasing_by simp only [List.length_drop, List.length_cons]; omega

/-- Whether the bytes are UTF-8 throughout. -/
def wellFormed : List UInt8 → Bool
  | [] => true
  | b :: bs =>
    let (c, eaten) := next b bs
    c.isSome && wellFormed (bs.drop eaten)
termination_by bytes => bytes.length
decreasing_by simp only [List.length_drop, List.length_cons]; omega

/-- The bytes of a text. -/
def encode (cs : List Char) : List UInt8 :=
  cs.flatMap String.utf8EncodeChar

/-- The bytes of a string. -/
def encodeString (s : String) : List UInt8 :=
  encode s.toList

/-- The text of the bytes, as a string. -/
def decodeString (bytes : List UInt8) : String :=
  String.ofList (decodeLossy bytes)

/-- The text of bytes that are UTF-8 throughout, or what is to be said of other bytes. -/
def decode (bytes : List UInt8) : Except String String :=
  if wellFormed bytes then .ok (decodeString bytes)
  else .error "stream did not contain valid UTF-8"

end MailScreen.Text.Utf8
