import MailScreen.Proofs.RateLimit.Throughput
import MailScreen.Proofs.RateLimit.Unrounded

/-!
# What pruning changes

A pruning fills up every bucket and drops those that are full then, or short of that by no more than
the tolerance. A key that loses its bucket has a full one again, so it can spend a little more than
before; for all other keys nothing changes.

* `Bucket.refill_refill`: a bucket that is filled up twice holds what it would if it had been filled
  up at the later instant only, wherever its own last instant lies.
* `level_prune_of_kept`, `level_prune_of_dropped`, `level_le_prune`, `level_prune_le`: what a key
  could spend from then on.
* `prune_fst`: the number that is told is that of the keys that lose their buckets.
* `levels_of_prune`: all of it, for the limiters that settings ask for.
-/

namespace MailScreen

/-! ## Keys of a table -/

namespace Table

variable {κ ν : Type}

/-- The keys that have a value. -/
def keys (t : Table κ ν) : List κ := t.entries.map (·.1)

variable [DecidableEq κ]

theorem find?_of_mem {t : Table κ ν} {e : κ × ν} (h : e ∈ t.entries) : t.find? e.1 = some e.2 := by
  obtain ⟨entries, hdistinct⟩ := t
  unfold find?
  induction entries with
  | nil => cases h
  | cons first rest ih =>
    have hfirst : first.1 ∉ rest.map (·.1) := (List.nodup_cons.mp hdistinct).1
    rcases List.mem_cons.mp h with rfl | h
    · simp
    · have hne : first.1 ≠ e.1 := fun heq => hfirst (heq ▸ List.mem_map_of_mem h)
      simpa [hne] using ih (List.nodup_cons.mp hdistinct).2 h

/-- What a choice leaves, and the keys that it drops. -/
theorem size_choose_add (t : Table κ ν) (f : κ → ν → Option ν) :
    (t.choose f).size + t.keys.countP (fun k => ((t.choose f).find? k).isNone) = t.size := by
  have hdropped : t.keys.countP (fun k => ((t.choose f).find? k).isNone) =
      t.entries.countP fun e => ¬ (chosen f e).isSome = true := by
    rw [keys, List.countP_map]
    refine List.countP_congr fun e he => ?_
    simp [find?_choose, find?_of_mem he, chosen]
  have hleft : (t.choose f).size = t.entries.countP fun e => (chosen f e).isSome :=
    List.length_filterMap_eq_countP
  rw [hdropped, hleft, ← List.length_eq_countP_add_countP]
  rfl

end Table

namespace RateLimit

open MailScreen.Time

/-! ## Filling up twice -/

theorem elapsed_add {a t t' : Int} (h : t ≤ t') :
    elapsed a t' = elapsed a t + elapsed (max t a) t' := by
  unfold elapsed
  omega

namespace Bucket

variable (b : Bucket Rat) (limits : Limits Rat) {now t : Int}

theorem inflow_add (h : now ≤ t) :
    b.inflow limits t = b.inflow limits now + (b.refill limits now).inflow limits t := by
  have hspan : (Amount.ofSpan (elapsed b.filledAt t) : Rat) =
      Amount.ofSpan (elapsed b.filledAt now) + Amount.ofSpan (elapsed (max now b.filledAt) t) := by
    show ((elapsed b.filledAt t : Nat) : Rat) / 1000000000 = _ / 1000000000 + _ / 1000000000
    rw [elapsed_add h, Nat.cast_add, add_div]
  unfold inflow
  rw [hspan, add_mul]
  rfl

/-- **A bucket that is filled up in two steps** holds what it would after the second alone. -/
theorem refill_refill (h : now ≤ t) (hrefill : 0 ≤ limits.refill) :
    ((b.refill limits now).refill limits t).tokens = (b.refill limits t).tokens := by
  have hinflow := (b.refill limits now).inflow_nonneg limits hrefill t
  rw [refill_tokens, refill_tokens b limits now, refill_tokens b limits t, b.inflow_add limits h,
    ← min_add_add_right, min_assoc, ← add_assoc,
    min_eq_right (le_add_of_nonneg_right hinflow)]

/-- A bucket only fills up. -/
theorem refill_mono (h : now ≤ t) (hrefill : 0 ≤ limits.refill) :
    (b.refill limits now).tokens ≤ (b.refill limits t).tokens := by
  have hcapacity : (b.refill limits now).tokens ≤ limits.capacity := by
    rw [refill_tokens]
    exact min_le_right _ _
  have hinflow := (b.refill limits now).inflow_nonneg limits hrefill t
  rw [← b.refill_refill limits h hrefill, refill_tokens (b.refill limits now)]
  exact le_min (le_add_of_nonneg_right hinflow) hcapacity

end Bucket

namespace Limiter

variable {l : Limiter Rat} {key : Key} {now t : Int}

/-! ## What a pruning leaves -/

/-- Whether a key has a bucket. -/
def holds (l : Limiter Rat) (key : Key) : Bool :=
  (l.buckets.find? key).isSome

/-- A bucket that is left has been filled up. -/
theorem exists_bucket_of_holds_prune (h : (l.prune now).2.holds key = true) :
    ∃ b, l.buckets.find? key = some b ∧
      (l.prune now).2.buckets.find? key = some (b.refill (l.limits key) now) := by
  obtain ⟨left, hleft⟩ := Option.isSome_iff_exists.mp h
  have hfind : (l.prune now).2.buckets.find? key = _ := find?_after_prune l now key
  rw [hleft] at hfind
  obtain ⟨b, hb, hkept⟩ := Option.bind_eq_some_iff.mp hfind.symm
  refine ⟨b, hb, ?_⟩
  split at hkept
  · cases hkept
  · rw [hleft, ← Option.some.inj hkept]

theorem limits_prune (l : Limiter Rat) (now : Int) (key : Key) :
    (l.prune now).2.limits key = l.limits key :=
  limits_after l (.prune now) key

/-- **A key that keeps its bucket** can spend what it could before. -/
theorem level_prune_of_kept (h : (l.prune now).2.holds key = true) (ht : now ≤ t)
    (hrefill : 0 ≤ (l.limits key).refill) : (l.prune now).2.level key t = l.level key t := by
  obtain ⟨b, hb, hleft⟩ := exists_bucket_of_holds_prune h
  rw [level_of_some hleft, level_of_some hb, limits_prune, b.refill_refill _ ht hrefill]

/-- A key without a bucket can spend its capacity. -/
theorem level_prune_of_dropped (h : (l.prune now).2.holds key = false) (t : Int) :
    (l.prune now).2.level key t = (l.limits key).capacity := by
  rw [level_of_none (Option.not_isSome_iff_eq_none.mp (by simpa [holds] using h)), limits_prune]

/-- **Nobody can spend less after a pruning.** -/
theorem level_le_prune (ht : now ≤ t) (hrefill : 0 ≤ (l.limits key).refill) :
    l.level key t ≤ (l.prune now).2.level key t := by
  cases h : (l.prune now).2.holds key with
  | true => exact (level_prune_of_kept h ht hrefill).ge
  | false =>
    rw [level_prune_of_dropped h]
    exact level_le_capacity l key t

/-- **Nobody can spend more by over the tolerance.** -/
theorem level_prune_le (ht : now ≤ t) (hrefill : 0 ≤ (l.limits key).refill) :
    (l.prune now).2.level key t ≤ l.level key t + slack := by
  have hslack := slack_pos
  cases h : (l.prune now).2.holds key with
  | true =>
    rw [level_prune_of_kept h ht hrefill]
    linarith
  | false =>
    rw [level_prune_of_dropped h]
    have hnone : (l.prune now).2.buckets.find? key = none := by simpa [holds] using h
    cases hb : l.buckets.find? key with
    | none =>
      rw [level_of_none hb]
      linarith
    | some b =>
      have hfull := capacity_le_of_dropped hb hnone
      have hmono := b.refill_mono (l.limits key) ht hrefill
      rw [level_of_some hb]
      linarith

/-- The keys that lose their buckets in a pruning. -/
def dropped (l : Limiter Rat) (now : Int) : List Key :=
  l.buckets.keys.filter fun key => !(l.prune now).2.holds key

theorem prune_fst (l : Limiter Rat) (now : Int) : (l.prune now).1 = (l.dropped now).length := by
  have hsize := Table.size_choose_add l.buckets fun key b =>
    if (b.refill (l.limits key) now).isFull (l.limits key) then none
    else some (b.refill (l.limits key) now)
  have hdropped : (l.dropped now).length =
      l.buckets.keys.countP fun key => ((l.prune now).2.buckets.find? key).isNone := by
    rw [dropped, ← List.countP_eq_length_filter]
    refine List.countP_congr fun key _ => ?_
    simp [holds]
  rw [hdropped]
  exact Nat.sub_eq_of_eq_add' hsize.symm

/-- **Pruning changes what a key can spend by no more than the tolerance.** Take a limiter with the
limits of settings that are not refused, after any operations, and prune it: from that instant on
every key can spend what it could before, or more by no more than the tolerance; a key that keeps
its bucket, just what it could before. The number that is told is that of the keys that lose their
buckets. -/
theorem levels_of_prune {c : Config} (hc : c.check = .ok ()) (ops : List Operation) (now : Int) :
    let l := (ofSettings c.rateLimit).run ops
    (∀ key t, now ≤ t → l.level key t ≤ (l.prune now).2.level key t ∧
      (l.prune now).2.level key t - 1 / 1000000000 ≤ l.level key t) ∧
    (∀ key t, now ≤ t → (l.prune now).2.holds key = true →
      (l.prune now).2.level key t = l.level key t) ∧
    (l.prune now).1 = (l.dropped now).length := by
  intro l
  have hrefill : ∀ key, 0 ≤ (l.limits key).refill := by
    intro key
    rw [limits_run]
    exact (isUsable_ofSettings hc key).refill_pos.le
  refine ⟨fun key t ht => ⟨level_le_prune ht (hrefill key), ?_⟩, fun key t ht hkept => ?_, ?_⟩
  · have hle := level_prune_le ht (hrefill key)
    rw [slack_eq] at hle
    linarith
  · exact level_prune_of_kept hkept ht (hrefill key)
  · exact prune_fst l now

/-- The clock has gone back before the pruning. The bucket that is dropped is short by just the
tolerance. -/
theorem levels_of_prune_short :
    let c : Config := {}
    let client := Key.client (.v4 0xCB007105)
    let identity := Key.identity "alice"
    let ops := [Operation.consume client (1 / 1000000000) 0, .consume identity 5 10000000000]
    let l := (ofSettings c.rateLimit).run ops
    c.check = .ok () ∧ l.dropped 0 = [client] ∧ (l.prune 0).2.holds identity = true ∧
    (l.prune 0).2.level client 0 = l.level client 0 + 1 / 1000000000 ∧
    (∀ key t, 0 ≤ t → l.level key t ≤ (l.prune 0).2.level key t ∧
      (l.prune 0).2.level key t - 1 / 1000000000 ≤ l.level key t) ∧
    (∀ key t, 0 ≤ t → (l.prune 0).2.holds key = true →
      (l.prune 0).2.level key t = l.level key t) ∧
    (l.prune 0).1 = (l.dropped 0).length := by
  intro c client identity ops l
  have hc : Config.check {} = .ok () := rfl
  refine ⟨hc, ?_, ?_, ?_, levels_of_prune hc ops 0⟩
  · decide +kernel
  · decide +kernel
  · decide +kernel

end Limiter

end RateLimit

end MailScreen
