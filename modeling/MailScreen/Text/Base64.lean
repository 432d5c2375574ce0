/-!
# Base64

The standard alphabet with padding. A text is a code only in its canonical form: its length is a
multiple of four, padding stands at the end alone, and the bits that no byte uses are zero. White
space of ASCII may stand anywhere and is removed first.

* `encode` writes bytes, `decode?` reads text.
* `decodeGroups?` is the reading without the removal of white space.
-/

namespace MailScreen.Text.Base64

/-- The character for a number below 64. -/
def symbol (n : Nat) : Char :=
  if n < 26 then Char.ofNat (65 + n)
  else if n < 52 then Char.ofNat (71 + n)
  else if n < 62 then Char.ofNat (n - 4)
  else if n = 62 then '+'
  else '/'

/-- The number below 64 that a character writes. -/
def value? (c : Char) : Option Nat :=
  let n := c.toNat
  if 65 ≤ n ∧ n ≤ 90 then some (n - 65)
  else if 97 ≤ n ∧ n ≤ 122 then some (n - 71)
  else if 48 ≤ n ∧ n ≤ 57 then some (n + 4)
  else if c = '+' then some 62
  else if c = '/' then some 63
  else none

/-- The code of the bytes. -/
def symbols : List UInt8 → List Char
  | [] => []
  | [a] =>
    let n := a.toNat * 16
    [symbol (n / 64), symbol (n % 64), '=', '=']
  | [a, b] =>
    let n := (a.toNat * 256 + b.toNat) * 4
    [symbol (n / 4096), symbol (n / 64 % 64), symbol (n % 64), '=']
  | a :: b :: c :: rest =>
    let n := (a.toNat * 256 + b.toNat) * 256 + c.toNat
    symbol (n / 262144) :: symbol (n / 4096 % 64) :: symbol (n / 64 % 64) :: symbol (n % 64) ::
      symbols rest

/-- The code of the bytes, as a string. -/
def encode (bytes : List UInt8) : String :=
  String.ofList (symbols bytes)

/-- The bytes of the last group of four, where padding may stand. -/
def lastGroup? (a b c d : Char) : Option (List UInt8) := do
  let a ← value? a
  let b ← value? b
  if c = '=' then
    if d = '=' ∧ b % 16 = 0 then some [UInt8.ofNat (4 * a + b / 16)] else none
  else
    let c ← value? c
    let first := UInt8.ofNat (4 * a + b / 16)
    let second := UInt8.ofNat (16 * (b % 16) + c / 4)
    if d = '=' then
      if c % 4 = 0 then some [first, second] else none
    else
      let d ← value? d
      some [first, second, UInt8.ofNat (64 * (c % 4) + d)]

/-- The three bytes of a group of four that is not the last. -/
def group? (a b c d : Char) : Option (List UInt8) := do
  if c = '=' ∨ d = '=' then none else lastGroup? a b c d

/-- Reads a code in its canonical form. -/
def decodeGroups? : List Char → Option (List UInt8)
  | [] => some []
  | [a, b, c, d] => lastGroup? a b c d
  | a :: b :: c :: d :: rest => do
    let bytes ← group? a b c d
    return bytes ++ (← decodeGroups? rest)
  | _ => none

/-- White space of ASCII: space, tab, line feed, form feed, carriage return. -/
def isSpace (c : Char) : Bool :=
  c == ' ' || c == '\t' || c == '\n' || c == '\x0c' || c == '\r'

/-- Reads a code that may be broken by white space. -/
def decode? (cs : List Char) : Option (List UInt8) :=
  decodeGroups? (cs.filter (! isSpace ·))

end MailScreen.Text.Base64
