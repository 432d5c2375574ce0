import MailScreen.Time

/-!
# Amounts of tokens

Buckets count tokens in some kind of number. `Amount` names what a bucket needs of it besides
sums, differences, products and comparisons: zero, one, a tolerance, and spans of time in seconds.

* `least` is the lesser of two amounts, and the other one if one of them is not a number.
* `between` brings an amount between two bounds.
* The program runs on `Float`; on `Rat` nothing is rounded.
-/

namespace MailScreen.RateLimit

/-- What counts tokens. -/
class Amount (α : Type) where
  /-- No tokens. -/
  zero : α
  /-- One token. -/
  one : α
  /-- How far a bucket may fall short of a cost, or of being full. -/
  slack : α
  /-- A span of time, in seconds. -/
  ofSpan : Nat → α
  /-- Whether this is a number at all. -/
  isNumber : α → Bool

instance : Amount Float where
  zero := 0
  one := 1
  slack := 1e-9
  ofSpan := Time.inSeconds
  isNumber x := !x.isNaN

instance : Amount Rat where
  zero := 0
  one := 1
  slack := 1 / 1000000000
  ofSpan n := (n : Rat) / 1000000000
  isNumber _ := true

variable {α : Type} [Amount α] [LT α] [DecidableLT α]

/-- The lesser of two amounts; what is not a number does not count. -/
def least (a b : α) : α :=
  if Amount.isNumber a then (if b < a then b else a) else b

/-- The amount nearest to `x` that is neither below `low` nor above `high`. -/
def between (low high x : α) : α :=
  let x := if x < low then low else x
  if high < x then high else x

end MailScreen.RateLimit
