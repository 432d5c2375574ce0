import MailScreen.Json.Value
import MailScreen.Text.Hex

/-!
# Reading JSON

The grammar is strict: no comments, no commas at an end, no leading zeros, no raw control
characters in strings. A text holds one value and blanks around it.

* `scalars?` pairs up surrogates; `stringBody` reads a string after its opening quote.
* `numberLiteral` takes a number off the front of a text.
* `readValue` reads a value; its fuel bounds the number of nested steps, and `Value.ofText?` gives
  it enough for the whole text.
-/

namespace MailScreen.Json

open MailScreen.Text

/-- Blanks between tokens. -/
def isSpace (c : Char) : Bool :=
  c == ' ' || c == '\n' || c == '\r' || c == '\t'

/-- Without the blanks at the front. -/
def skipSpace (cs : List Char) : List Char :=
  cs.dropWhile isSpace

/-! ## Strings -/

/-- Whether a number is the first half of a surrogate pair. -/
def isHighSurrogate (n : Nat) : Bool := 0xD800 ≤ n && n < 0xDC00

/-- Whether a number is the second half of a surrogate pair. -/
def isLowSurrogate (n : Nat) : Bool := 0xDC00 ≤ n && n < 0xE000

/-- The characters of a list of code points and surrogates; each surrogate must be paired. -/
def scalars? : List Nat → Option (List Char)
  | [] => some []
  | [n] => if isHighSurrogate n || isLowSurrogate n then none else some [Char.ofNat n]
  | n :: m :: rest =>
    if isHighSurrogate n then
      if isLowSurrogate m then
        (scalars? rest).map (Char.ofNat (0x10000 + (n - 0xD800) * 0x400 + (m - 0xDC00)) :: ·)
      else none
    else if isLowSurrogate n then none
    else (scalars? (m :: rest)).map (Char.ofNat n :: ·)

/-- What the character after a backslash stands for. -/
def escaped? (c : Char) : Option Nat :=
  match c with
  | '"' => some 0x22
  | '\\' => some 0x5C
  | '/' => some 0x2F
  | 'b' => some 0x08
  | 'f' => some 0x0C
  | 'n' => some 0x0A
  | 'r' => some 0x0D
  | 't' => some 0x09
  | _ => none

/-- The number written by four hexadecimal digits. -/
def fourDigits? (a b c d : Char) : Option Nat := do
  let a ← Hex.value? a
  let b ← Hex.value? b
  let c ← Hex.value? c
  let d ← Hex.value? d
  return ((a * 16 + b) * 16 + c) * 16 + d

/-- The code points and surrogates of a string after its opening quote, and the rest after its
closing quote. -/
def stringBody : List Char → Option (List Nat × List Char)
  | [] => none
  | '"' :: rest => some ([], rest)
  | '\\' :: 'u' :: a :: b :: c :: d :: rest => do
    let n ← fourDigits? a b c d
    let (ns, rest) ← stringBody rest
    return (n :: ns, rest)
  | '\\' :: e :: rest => do
    let n ← escaped? e
    let (ns, rest) ← stringBody rest
    return (n :: ns, rest)
  | c :: rest =>
    if c.toNat < 0x20 || c == '\\' then none
    else do
      let (ns, rest) ← stringBody rest
      return (c.toNat :: ns, rest)

/-- A string after its opening quote; `none` in the place of the text if surrogates are unpaired. -/
def string (cs : List Char) : Option (Option String × List Char) := do
  let (ns, rest) ← stringBody cs
  return ((scalars? ns).map String.ofList, rest)

/-! ## Numbers -/

/-- One or more digits off the front. -/
def digits (cs : List Char) : Option (List Char × List Char) :=
  let ds := cs.takeWhile Char.isDigit
  if ds.isEmpty then none else some (ds, cs.dropWhile Char.isDigit)

/-- The whole part of a number: a zero alone, or digits that do not begin with zero. -/
def wholePart (cs : List Char) : Option (List Char × List Char) := do
  let (ds, rest) ← digits cs
  if ds.head? = some '0' ∧ 1 < ds.length then none else some (ds, rest)

/-- The fraction of a number, which may be absent. -/
def fraction (cs : List Char) : Option (List Char × List Char) :=
  match cs with
  | '.' :: rest => (digits rest).map fun (ds, rest) => ('.' :: ds, rest)
  | _ => some ([], cs)

/-- The sign of an exponent, which may be absent. -/
def sign (cs : List Char) : List Char × List Char :=
  match cs with
  | '+' :: rest => (['+'], rest)
  | '-' :: rest => (['-'], rest)
  | _ => ([], cs)

/-- The exponent of a number, which may be absent. -/
def exponent (cs : List Char) : Option (List Char × List Char) :=
  match cs with
  | e :: rest =>
    if e = 'e' ∨ e = 'E' then
      let (s, rest) := sign rest
      (digits rest).map fun (ds, rest) => (e :: s ++ ds, rest)
    else some ([], cs)
  | [] => some ([], [])

/-- A number without a sign, off the front. -/
def unsignedLiteral (cs : List Char) : Option (List Char × List Char) := do
  let (whole, rest) ← wholePart cs
  let (frac, rest) ← fraction rest
  let (exp, rest) ← exponent rest
  return (whole ++ frac ++ exp, rest)

/-- A number off the front. -/
def numberLiteral (cs : List Char) : Option (List Char × List Char) :=
  match cs with
  | '-' :: rest => (unsignedLiteral rest).map fun (ds, rest) => ('-' :: ds, rest)
  | _ => unsignedLiteral cs

/-! ## Values -/

/-- A name or value of a string. -/
def ofString : Option String → Value
  | some s => .text s
  | none => .brokenText

/-- Off the front of a text, the value of a fixed word. -/
def word? (w : String) (v : Value) (cs : List Char) : Option (Value × List Char) :=
  if w.toList.isPrefixOf cs then some (v, cs.drop w.length) else none

/-- The name of a member and the colon after it. -/
def memberName (cs : List Char) : Option (Option String × List Char) :=
  match skipSpace cs with
  | '"' :: rest => do
    let (name, rest) ← string rest
    match skipSpace rest with
    | ':' :: rest => some (name, rest)
    | _ => none
  | _ => none

mutual

/-- Reads a value off the front of a text. -/
def readValue : Nat → List Char → Option (Value × List Char)
  | 0, _ => none
  | fuel + 1, cs =>
    match skipSpace cs with
    | [] => none
    | c :: rest =>
      match c with
      | 'n' => word? "null" .null (c :: rest)
      | 't' => word? "true" (.bool true) (c :: rest)
      | 'f' => word? "false" (.bool false) (c :: rest)
      | '"' => (string rest).map fun (s, rest) => (ofString s, rest)
      | '[' =>
        match skipSpace rest with
        | ']' :: rest => some (.array [], rest)
        | _ => (readItems fuel rest).map fun (vs, rest) => (.array vs, rest)
      | '\x7b' =>
        match skipSpace rest with
        | '\x7d' :: rest => some (.object [], rest)
        | _ => (readMembers fuel rest).map fun (ms, rest) => (.object ms, rest)
      | _ => (numberLiteral (c :: rest)).map fun (ds, rest) =>
        (.number (String.ofList ds), rest)

/-- Reads one or more items and the bracket after them. -/
def readItems : Nat → List Char → Option (List Value × List Char)
  | 0, _ => none
  | fuel + 1, cs => do
    let (v, rest) ← readValue fuel cs
    match skipSpace rest with
    | ']' :: rest => some ([v], rest)
    | ',' :: rest => (readItems fuel rest).map fun (vs, rest) => (v :: vs, rest)
    | _ => none

/-- Reads one or more members and the brace after them. -/
def readMembers : Nat → List Char → Option (List (Option String × Value) × List Char)
  | 0, _ => none
  | fuel + 1, cs => do
    let (name, rest) ← memberName cs
    let (v, rest) ← readValue fuel rest
    match skipSpace rest with
    | '\x7d' :: rest => some ([(name, v)], rest)
    | ',' :: rest => (readMembers fuel rest).map fun (ms, rest) => ((name, v) :: ms, rest)
    | _ => none

end

/-- Reads a text that holds one value. -/
def Value.ofText? (s : String) : Option Value := do
  let cs := s.toList
  let (v, rest) ← readValue (2 * cs.length + 2) cs
  if (skipSpace rest).isEmpty then some v else none

end MailScreen.Json
