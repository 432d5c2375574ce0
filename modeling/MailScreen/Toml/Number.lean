import MailScreen.Decimal.Literal
import MailScreen.Setting
import MailScreen.Text.Split
import MailScreen.Toml.Chars

/-!
# Numbers of a TOML text

* `grouped?` reads digits with single underscores between them.
* `integer?` reads decimal, hexadecimal, octal and binary integers of 64 bits, `float?` decimals
  with places or an exponent, `special?` the words for what is no finite number.
* `number?` reads any of them.
-/

namespace MailScreen.Toml

open MailScreen.Text

/-- The digits of a number, between which single underscores may stand. -/
def grouped? (isDigit : Char → Bool) (cs : List Char) : Option (List Char) :=
  let groups := pieces (· == '_') cs
  if groups.all fun g => !g.isEmpty && g.all isDigit then some groups.flatten else none

/-- The digits of a whole number: zero alone, or digits that do not begin with zero. -/
def wholeDigits? (cs : List Char) : Option (List Char) :=
  (grouped? Char.isDigit cs).filter fun ds => ds.length = 1 || ds.head? != some '0'

/-- An integer that fits into 64 bits. -/
def inRange? (n : Int) : Option Setting :=
  if -9223372036854775808 ≤ n ∧ n < 9223372036854775808 then some (.integer n) else none

/-- Whether a character is a digit of a base. -/
def isDigitOf (base : Nat) (c : Char) : Bool :=
  (Hex.value? c).any (· < base)

/-- An integer to another base than ten. -/
def based? (base : Nat) (cs : List Char) : Option Setting := do
  let ds ← grouped? (isDigitOf base) cs
  inRange? (ds.foldl (fun n d => base * n + ((Hex.value? d).getD 0)) 0 : Nat)

/-- An integer. -/
def integer? : List Char → Option Setting
  | '0' :: 'x' :: cs => based? 16 cs
  | '0' :: 'o' :: cs => based? 8 cs
  | '0' :: 'b' :: cs => based? 2 cs
  | cs => do
    let (negative, cs) := Decimal.unsigned cs
    let n ← digitsValue? (← wholeDigits? cs)
    inRange? (if negative then -(n : Int) else n)

/-- The number that an exponent gives. -/
def exponent? (cs : List Char) : Option Int := do
  let (negative, cs) := Decimal.unsigned cs
  let n ← digitsValue? (← grouped? Char.isDigit cs)
  return if negative then -(n : Int) else n

/-- The whole digits and the places of a number, and whether it has places. -/
def mantissa? (cs : List Char) : Option (List Char × List Char × Bool) :=
  match cutFirst (· == '.') cs with
  | none => (wholeDigits? cs).map (·, [], false)
  | some (whole, places) => do
    return (← wholeDigits? whole, ← grouped? Char.isDigit places, true)

/-- A number with places or an exponent; one that is too large for a float is refused, except below
zero. -/
def float? (cs : List Char) : Option Setting := do
  let (negative, cs) := Decimal.unsigned cs
  let (before, after) := (cs.takeWhile (!Decimal.Literal.isMark ·),
    cs.dropWhile (!Decimal.Literal.isMark ·))
  let (whole, places, hasPlaces) ← mantissa? before
  let exponent ← if after.isEmpty then some 0 else exponent? after.tail
  if after.isEmpty && !hasPlaces then none
  else
    let digits ← digitsValue? (whole ++ places)
    let x := (Decimal.Literal.mk negative digits (exponent - places.length)).toFloat
    if !negative && x.isInf then none else some (.number x)

/-- What is no finite number. -/
def special? (cs : List Char) : Option Setting :=
  let (negative, cs) := Decimal.unsigned cs
  if cs = ['i', 'n', 'f'] then some (.number (if negative then -1 / 0 else 1 / 0))
  else if cs = ['n', 'a', 'n'] then some (.number (0 / 0))
  else none

/-- A number of any kind. -/
def number? (cs : List Char) : Option Setting :=
  (integer? cs).or ((float? cs).or (special? cs))

end MailScreen.Toml
