/-!
# Instants and spans

Time is counted in nanoseconds. An instant is a point on one clock and may lie before its zero, so
it is an `Int`; a span is a length of time, a `Nat`.

* `elapsed a b` is the span from `a` to `b`, which is zero if `b` is the earlier one.
* `inSeconds` is a span as a float.
* `lastTick?` is the last tick of a clock before an instant.
-/

namespace MailScreen.Time

/-- The span of a number of milliseconds. -/
def milliseconds (n : Nat) : Nat := n * 1000000

/-- The span of a number of seconds. -/
def seconds (n : Nat) : Nat := n * 1000000000

/-- The longest span that a configuration can ask for, in seconds: ten years. -/
def maxSeconds : Nat := 315360000

/-- The span between two instants; zero if the second is not the later one. -/
def elapsed (a b : Int) : Nat := (b - a).toNat

/-- A span in seconds: the whole seconds and the rest are converted on their own and added. -/
def inSeconds (span : Nat) : Float :=
  (span / 1000000000).toFloat + (span % 1000000000).toFloat / 1e9

/-- The last tick before an instant of a clock that ticks every `interval` after `start`. -/
def lastTick? (start : Int) (interval : Nat) (before : Int) : Option Int :=
  let ticks := (before - 1 - start) / interval
  if 0 < interval ∧ 0 < ticks then some (start + ticks * interval) else none

theorem elapsed_of_le {a b : Int} (h : b ≤ a) : elapsed a b = 0 := by
  unfold elapsed
  omega

end MailScreen.Time
