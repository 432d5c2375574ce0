/-!
# Hexadecimal text

* `digits` writes bytes as two lower-case digits each.
* `value?` reads the value of one digit of either case.
-/

namespace MailScreen.Text.Hex

/-- The lower-case digit of a number below sixteen. -/
def digit (n : Nat) : Char :=
  if n < 10 then Char.ofNat (48 + n) else Char.ofNat (87 + n)

/-- The value of a hexadecimal digit of either case. -/
def value? (c : Char) : Option Nat :=
  let n := c.toNat
  if 48 ≤ n ∧ n ≤ 57 then some (n - 48)
  else if 97 ≤ n ∧ n ≤ 102 then some (n - 87)
  else if 65 ≤ n ∧ n ≤ 70 then some (n - 55)
  else none

/-- The bytes written as two digits each. -/
def digits (bytes : List UInt8) : List Char :=
  bytes.flatMap fun b => [digit (b.toNat / 16), digit (b.toNat % 16)]

/-- The bytes written as two digits each, as a string. -/
def encode (bytes : List UInt8) : String :=
  String.ofList (digits bytes)

/-- Reads pairs of digits. -/
def decode? : List Char → Option (List UInt8)
  | [] => some []
  | [_] => none
  | a :: b :: rest => do
    let high ← value? a
    let low ← value? b
    return UInt8.ofNat (16 * high + low) :: (← decode? rest)

/-- The digits of a number without leading zeros; zero is written `0`. -/
def ofNat (n : Nat) : List Char :=
  (Nat.toDigits 16 n)

end MailScreen.Text.Hex
