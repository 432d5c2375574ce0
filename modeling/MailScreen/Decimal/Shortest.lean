/-!
# The shortest decimal

A float is written with as few digits as name it and no other float.

* `Binary` is the exact value of a finite float without its sign, and the numbers that are rounded
  to it.
* `Binary.shortest` finds the coarsest decimal grid with a point among these numbers, and on it the
  point nearest to the value; of two equally near ones the greater.
* `write` gives the text, never with an exponent.
-/

namespace MailScreen.Decimal

/-- The number `value / den`, and the numbers from `low / den` to `high / den` that are rounded to
it. -/
structure Binary where
  value : Nat
  low : Nat
  high : Nat
  den : Nat
  /-- Whether both ends are rounded to it as well. -/
  closed : Bool

namespace Binary

/-- The number `mantissa * 2 ^ exponent`; below a power of two the gap is half as wide. -/
def ofParts (mantissa : Nat) (exponent : Int) (narrow : Bool) : Binary :=
  let scale := Nat.pow 2 exponent.toNat
  ⟨4 * mantissa * scale, (4 * mantissa - if narrow then 1 else 2) * scale,
    (4 * mantissa + 2) * scale, 4 * Nat.pow 2 (-exponent).toNat, mantissa % 2 == 0⟩

/-- The value of the bits of a finite float. -/
def ofBits (bits : UInt64) : Binary :=
  let exponent := (bits >>> 52).toNat % 2048
  let fraction := bits.toNat % Nat.pow 2 52
  if exponent = 0 then ofParts fraction (-1074) false
  else ofParts (Nat.pow 2 52 + fraction) ((exponent : Int) - 1075) (fraction == 0 && 1 < exponent)

/-- Whether `count * 10 ^ exponent`, which is `count * up / down`, is rounded to the number. -/
def takes (b : Binary) (up down count : Nat) : Bool :=
  let x := count * up * b.den
  if b.closed then b.low * down ≤ x && x ≤ b.high * down
  else b.low * down < x && x < b.high * down

/-- The multiple of a power of ten that is rounded to the number, if there is one: of the two
neighbours of the value the nearer one. -/
def onGrid (b : Binary) (exponent : Int) : Option (Nat × Int) :=
  let up := Nat.pow 10 exponent.toNat
  let down := Nat.pow 10 (-exponent).toNat
  let below := b.value * down / (up * b.den)
  let nearer := if (2 * below + 1) * up * b.den ≤ 2 * b.value * down
    then [below + 1, below] else [below, below + 1]
  (nearer.find? fun count => 0 < count && b.takes up down count).map fun count =>
    (count, exponent)

/-- The powers of ten that the last digit of a float can stand for, highest first. -/
def grids : List Int :=
  (List.range 640).map fun (i : Nat) => 309 - (i : Int)

/-- The digits and the power of ten of the last one. -/
def shortest (b : Binary) : Nat × Int :=
  if b.value = 0 then (0, 0) else (grids.findSome? b.onGrid).getD (0, 0)

end Binary

/-- The digits of a count of powers of ten, with a point in their place. -/
def layOut (count : Nat) (exponent : Int) : List Char :=
  let digits := Nat.toDigits 10 count
  if 0 ≤ exponent then digits ++ List.replicate exponent.toNat '0'
  else
    let places := exponent.natAbs
    let digits := List.replicate (places + 1 - digits.length) '0' ++ digits
    digits.take (digits.length - places) ++ '.' :: digits.drop (digits.length - places)

/-- The text of a float. -/
def write (x : Float) : String :=
  if x.isNaN then "NaN"
  else
    let sign := if x.toBits >>> 63 = 1 then "-" else ""
    if x.isInf then sign ++ "inf"
    else
      let (count, exponent) := (Binary.ofBits (x.toBits &&& 0x7FFFFFFFFFFFFFFF)).shortest
      sign ++ String.ofList (layOut count exponent)

end MailScreen.Decimal
