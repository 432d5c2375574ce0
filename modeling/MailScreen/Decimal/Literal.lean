import MailScreen.Text.Ascii

/-!
# Decimal literals

* `Literal` is a decimal number, written with digits and a power of ten.
* `Literal.ofChars?` reads `digits`, `digits.digits` or either of them with an exponent, with or
  without a sign.
* `Literal.toFloat` is the number nearest to it.
-/

namespace MailScreen.Decimal

open MailScreen.Text

/-- The number `digits * 10 ^ exponent`, or its negative. -/
structure Literal where
  negative : Bool
  digits : Nat
  exponent : Int
  deriving Repr, DecidableEq

/-- Takes the sign off a number, if there is one. -/
def unsigned (cs : List Char) : Bool × List Char :=
  match cs with
  | '-' :: rest => (true, rest)
  | '+' :: rest => (false, rest)
  | _ => (false, cs)

/-- The value of a number with or without a sign. -/
def integer? (cs : List Char) : Option Int :=
  let (negative, ds) := unsigned cs
  if ds.isEmpty then none
  else (digitsValue? ds).map fun n => if negative then -(n : Int) else n

namespace Literal

/-- Digits with or without a point between them, and a power of ten. -/
def ofParts? (negative : Bool) (mantissa : List Char) (exponent : Int) : Option Literal :=
  let whole := mantissa.takeWhile (· != '.')
  if whole.isEmpty then none
  else
    match mantissa.dropWhile (· != '.') with
    | [] => (digitsValue? whole).map (⟨negative, ·, exponent⟩)
    | _ :: places =>
      if places.isEmpty then none
      else (digitsValue? (whole ++ places)).map (⟨negative, ·, exponent - places.length⟩)

/-- Whether a character begins the exponent. -/
def isMark (c : Char) : Bool := c == 'e' || c == 'E'

/-- Reads a literal. -/
def ofChars? (cs : List Char) : Option Literal :=
  let (negative, cs) := unsigned cs
  let mantissa := cs.takeWhile (!isMark ·)
  match cs.dropWhile (!isMark ·) with
  | [] => ofParts? negative mantissa 0
  | _ :: e => (integer? e).bind (ofParts? negative mantissa)

/-- Powers of ten beyond this one are out of the range of every float. -/
def farthest : Int := 400

/-- The float without its sign. -/
def magnitude (l : Literal) : Float :=
  let top := l.exponent + (Nat.toDigits 10 l.digits).length
  if l.digits = 0 ∨ top < -farthest then 0
  else if farthest < top then 1 / 0
  else Float.ofScientific l.digits (l.exponent < 0) l.exponent.natAbs

/-- The float nearest to the literal. -/
def toFloat (l : Literal) : Float :=
  if l.negative then -l.magnitude else l.magnitude

end Literal

end MailScreen.Decimal
