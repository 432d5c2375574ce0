/-!
# ASCII letter case and digits

Protocol words (header names, tags, host names) are compared without regard to the case of the
letters `A` to `Z` only; all other characters stand for themselves.

* `lowerAscii` changes `A`–`Z` and nothing else.
* `eqIgnoreCase` compares up to `lowerAscii`.
* `digitsValue?` reads a run of decimal digits, `unsigned?` a number below a bound.
-/

namespace MailScreen.Text

/-- Lower-cases the letters `A` to `Z`. -/
def lowerAscii (cs : List Char) : List Char :=
  cs.map Char.toLower

/-- Equality up to the case of the letters `A` to `Z`. -/
def eqIgnoreCase (a b : List Char) : Bool :=
  lowerAscii a == lowerAscii b

/-- Lower-cases the letters `A` to `Z` of a string. -/
def lowerAsciiString (s : String) : String :=
  String.ofList (lowerAscii s.toList)

/-- The value of a decimal digit. -/
def digit? (c : Char) : Option Nat :=
  if c.isDigit then some (c.toNat - '0'.toNat) else none

/-- The number written by a list of decimal digits; the empty list writes zero. -/
def digitsValue? (cs : List Char) : Option Nat :=
  cs.foldlM (fun n c => (digit? c).map (10 * n + ·)) 0

/-- Why a text is not a number of the wanted range. -/
inductive NumberError where
  | empty
  | invalidDigit
  | tooLarge
  deriving Repr, DecidableEq

/-- The wording of the error. -/
def NumberError.message : NumberError → String
  | .empty => "cannot parse integer from empty string"
  | .invalidDigit => "invalid digit found in string"
  | .tooLarge => "number too large to fit in target type"

/-- Adds digits to a number that has to stay at most `limit`; of two faults the leftmost is told. -/
def accumulateDigits (limit : Nat) : Nat → List Char → Except NumberError Nat
  | n, [] => .ok n
  | n, c :: cs =>
    match digit? c with
    | none => .error .invalidDigit
    | some d => if 10 * n + d ≤ limit then accumulateDigits limit (10 * n + d) cs
        else .error .tooLarge

/-- Reads a decimal number of at most `limit`; one leading `+` is allowed. -/
def unsigned? (limit : Nat) : List Char → Except NumberError Nat
  | [] => .error .empty
  | ['+'] => .error .invalidDigit
  | '+' :: cs => accumulateDigits limit 0 cs
  | cs => accumulateDigits limit 0 cs

end MailScreen.Text
