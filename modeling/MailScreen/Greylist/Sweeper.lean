import MailScreen.Greylist.Store

/-!
# Sweeping

Model of `spawn_sweeper`, without the task that waits for the ticks.

A sweeper drops the expired entries of a store again and again, at the ticks of a clock. As an
entry that has expired stays so, it is enough to do this at the last tick.
-/

namespace MailScreen.Greylist

/-- The store after all ticks before an instant. -/
def Store.sweep (s : Store) (start : Int) (interval : Nat) (before : Int) : Store :=
  match Time.lastTick? start interval before with
  | some tick => (s.prune tick).2
  | none => s

theorem prune_prune_of_le {s : Store} {a b : Int} (h : a ≤ b) :
    ((s.prune a).2.prune b).2.entries.entries = (s.prune b).2.entries.entries := by
  simp only [Store.prune, Table.choose, List.filterMap_filterMap]
  congr 1
  funext e
  by_cases ha : e.2.expiresAt < a
  · simp [Table.chosen, ha, Int.lt_of_lt_of_le ha h]
  · by_cases hb : e.2.expiresAt < b <;> simp [Table.chosen, ha, hb]

end MailScreen.Greylist
