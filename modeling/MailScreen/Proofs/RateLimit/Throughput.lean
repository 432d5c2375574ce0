import MailScreen.RateLimit.Limiter
import Mathlib.Algebra.Order.Field.Rat
import Mathlib.Tactic.Linarith
import Mathlib.Tactic.Positivity
import Mathlib.Tactic.Ring

/-!
# What gets through

However attempts and prunings follow each other, what a key is allowed in a stretch of time is no
more than a full bucket and what flows in during that time, but for a tolerance. Amounts are
rational numbers here, so that nothing is rounded.

* `Operation` is an attempt or a pruning at an instant; `Limiter.run` does some of them in order.
* `Limiter.level` is what a key could spend at an instant. It is the potential of the argument: time
  raises it by the inflow (`level_le_add`), an allowed attempt lowers it by the cost, and the
  tolerance is all that an operation can add on top (`cost_add_level_after`).
* `spent_add_level_run`: the same for a run, by induction on the operations.
* `spent_le`: the bound for any window of any run.
-/

namespace MailScreen.RateLimit

open MailScreen.Time

/-- What is done to a limiter, and when. -/
inductive Operation where
  | consume (key : Key) (cost : Rat) (instant : Int)
  | prune (instant : Int)
  deriving Repr, DecidableEq

namespace Operation

/-- When it is done. -/
def instant : Operation → Int
  | consume _ _ t => t
  | prune t => t

/-- Whether it is a pruning. -/
def isPrune : Operation → Bool
  | consume _ _ _ => false
  | prune _ => true

end Operation

namespace Limiter

/-- The limiter after an operation. -/
def after (l : Limiter Rat) : Operation → Limiter Rat
  | .consume key cost t => (l.consume key cost t).2
  | .prune t => (l.prune t).2

/-- The limiter after some operations in order. -/
def run (l : Limiter Rat) (ops : List Operation) : Limiter Rat :=
  ops.foldl after l

/-- Whether an operation is an attempt for a key that is allowed. -/
def allows (l : Limiter Rat) (key : Key) : Operation → Bool
  | .consume k cost t => k = key && (l.consume k cost t).1.allowed
  | .prune _ => false

/-- What an operation costs, if it is an attempt for a key that is allowed. -/
def cost (l : Limiter Rat) (key : Key) : Operation → Rat
  | .consume k cost t => if l.allows key (.consume k cost t) then cost else 0
  | .prune _ => 0

/-- What a key is allowed by some operations. -/
def spent (l : Limiter Rat) (key : Key) : List Operation → Rat
  | [] => 0
  | op :: ops => l.cost key op + (l.after op).spent key ops

/-- How many attempts for a key are allowed. -/
def allowances (l : Limiter Rat) (key : Key) : List Operation → Nat
  | [] => 0
  | op :: ops => (l.allows key op).toNat + (l.after op).allowances key ops

/-- What a key could spend at an instant. -/
def level (l : Limiter Rat) (key : Key) (now : Int) : Rat :=
  ((l.bucket key now).refill (l.limits key) now).tokens

/-- The bucket of a key, if there is one, is not overdrawn, and not ahead of the time. -/
def Sound (l : Limiter Rat) (key : Key) (now : Int) : Prop :=
  ∀ b, l.buckets.find? key = some b → 0 ≤ b.tokens ∧ b.filledAt ≤ now

end Limiter

/-! ## Amounts -/

/-- The tolerance. -/
def slack : Rat := Amount.slack

theorem slack_eq : slack = 1 / 1000000000 := rfl

theorem slack_pos : 0 < slack := by
  rw [slack_eq]
  positivity

theorem least_eq_min (a b : Rat) : least a b = min a b := by
  show (if b < a then b else a) = min a b
  split
  · rename_i h
    exact (min_eq_right (le_of_lt h)).symm
  · rename_i h
    exact (min_eq_left (not_lt.mp h)).symm

theorem between_eq (high x : Rat) : between Amount.zero high x = min (max x 0) high := by
  show (let y := if x < 0 then 0 else x; if high < y then high else y) = min (max x 0) high
  have hmax : (if x < 0 then 0 else x) = max x 0 := by
    split
    · rename_i h
      exact (max_eq_right (le_of_lt h)).symm
    · rename_i h
      exact (max_eq_left (not_lt.mp h)).symm
  rw [hmax]
  exact least_eq_min (max x 0) high

/-- The span between two instants in order, in seconds. -/
theorem ofSpan_elapsed {t t' : Int} (h : t ≤ t') :
    (Amount.ofSpan (elapsed t t') : Rat) = ((t' - t : Int) : Rat) / 1000000000 := by
  have hcast : ((elapsed t t' : Nat) : Int) = t' - t := Int.toNat_of_nonneg (Int.sub_nonneg.mpr h)
  show ((elapsed t t' : Nat) : Rat) / 1000000000 = _
  rw [← hcast]
  rfl

namespace Bucket

variable (b : Bucket Rat) (limits : Limits Rat)

theorem refill_tokens (now : Int) :
    (b.refill limits now).tokens = min (b.tokens + b.inflow limits now) limits.capacity :=
  least_eq_min _ _

/-- A bucket that is not behind the time is only brought down to its capacity. -/
theorem refill_tokens_of_le {now : Int} (h : now ≤ b.filledAt) :
    (b.refill limits now).tokens = min b.tokens limits.capacity := by
  have hzero : b.inflow limits now = 0 := by
    rw [inflow, elapsed_of_le h]
    show ((0 : Nat) : Rat) / 1000000000 * limits.refill = 0
    simp
  rw [refill_tokens, hzero, add_zero]

theorem inflow_of_le {now : Int} (h : b.filledAt ≤ now) :
    b.inflow limits now = ((now - b.filledAt : Int) : Rat) / 1000000000 * limits.refill := by
  rw [inflow, ofSpan_elapsed h]

theorem inflow_nonneg (hrefill : 0 ≤ limits.refill) (now : Int) : 0 ≤ b.inflow limits now := by
  have hspan : (0 : Rat) ≤ Amount.ofSpan (elapsed b.filledAt now) := by
    show (0 : Rat) ≤ ((elapsed b.filledAt now : Nat) : Rat) / 1000000000
    positivity
  exact mul_nonneg hspan hrefill

theorem refill_nonneg (hcapacity : 0 ≤ limits.capacity) (hrefill : 0 ≤ limits.refill)
    (htokens : 0 ≤ b.tokens) (now : Int) : 0 ≤ (b.refill limits now).tokens := by
  rw [refill_tokens]
  exact le_min (add_nonneg htokens (b.inflow_nonneg limits hrefill now)) hcapacity

end Bucket

/-! ## Time -/

namespace Limiter

variable {l : Limiter Rat} {key : Key} {t t' : Int}

theorem limits_after (l : Limiter Rat) (op : Operation) (key : Key) :
    (l.after op).limits key = l.limits key := by
  cases op with
  | prune t => cases key <;> rfl
  | consume k cost t =>
    unfold after consume
    simp only
    split <;> cases key <;> rfl

theorem level_of_none (h : l.buckets.find? key = none) (now : Int) :
    l.level key now = (l.limits key).capacity := by
  rw [level, bucket, h]
  have hfresh := Bucket.refill_tokens_of_le ⟨(l.limits key).capacity, now⟩ (l.limits key)
    (le_refl now)
  exact hfresh.trans (min_self _)

theorem level_of_some {b : Bucket Rat} (h : l.buckets.find? key = some b) (now : Int) :
    l.level key now = (b.refill (l.limits key) now).tokens := by
  rw [level, bucket, h]
  rfl

/-- No key can spend more than its capacity. -/
theorem level_le_capacity (l : Limiter Rat) (key : Key) (now : Int) :
    l.level key now ≤ (l.limits key).capacity := by
  rw [level, Bucket.refill_tokens]
  exact min_le_right _ _

theorem Sound.mono (h : l.Sound key t) (ht : t ≤ t') : l.Sound key t' :=
  fun b hb => ⟨(h b hb).1, (h b hb).2.trans ht⟩

theorem level_nonneg (h : l.Sound key t) (hcapacity : 0 ≤ (l.limits key).capacity)
    (hrefill : 0 ≤ (l.limits key).refill) : 0 ≤ l.level key t := by
  cases hb : l.buckets.find? key with
  | none => rwa [level_of_none hb]
  | some b =>
    rw [level_of_some hb]
    exact b.refill_nonneg _ hcapacity hrefill (h b hb).1 t

/-- **Time raises the level by no more than the inflow.** -/
theorem level_le_add (h : l.Sound key t) (ht : t ≤ t') (hrefill : 0 ≤ (l.limits key).refill) :
    l.level key t' ≤
      l.level key t + (l.limits key).refill * ((t' - t : Int) : Rat) / 1000000000 := by
  have hspan : (0 : Rat) ≤ ((t' - t : Int) : Rat) := by
    exact_mod_cast Int.sub_nonneg.mpr ht
  have hflow : 0 ≤ (l.limits key).refill * ((t' - t : Int) : Rat) / 1000000000 := by positivity
  cases hb : l.buckets.find? key with
  | none =>
    rw [level_of_none hb, level_of_none hb]
    exact le_add_of_nonneg_right hflow
  | some b =>
    have hfilled := (h b hb).2
    have hinflow : b.inflow (l.limits key) t' = b.inflow (l.limits key) t +
        (l.limits key).refill * ((t' - t : Int) : Rat) / 1000000000 := by
      rw [b.inflow_of_le _ (hfilled.trans ht), b.inflow_of_le _ hfilled]
      push_cast
      ring
    rw [level_of_some hb, level_of_some hb, Bucket.refill_tokens, Bucket.refill_tokens, hinflow,
      ← add_assoc, ← min_add_add_right]
    exact min_le_min_left _ (le_add_of_nonneg_right hflow)

/-! ## One operation -/

variable {cost : Rat}

/-- What an attempt that may be made leaves in its bucket. -/
def attempted (l : Limiter Rat) (key : Key) (cost : Rat) (t : Int) : Bucket Rat :=
  let b := (l.bucket key t).refill (l.limits key) t
  if b.covers cost then b.spend (l.limits key) cost else b

theorem find?_after_consume (l : Limiter Rat) (k : Key) (hcost : isCost cost = true) (t : Int)
    (key : Key) : (l.after (.consume k cost t)).buckets.find? key =
      if key = k then some (l.attempted k cost t) else l.buckets.find? key := by
  unfold after consume
  simp only [hcost, Bool.not_true, Bool.false_eq_true, if_false]
  exact Table.find?_put _ _ _ _

theorem after_consume_of_not (l : Limiter Rat) (k : Key) (hcost : isCost cost = false) (t : Int) :
    l.after (.consume k cost t) = l := by
  unfold after consume
  simp only [hcost, Bool.not_false, if_true]

theorem find?_after_prune (l : Limiter Rat) (t : Int) (key : Key) :
    (l.after (.prune t)).buckets.find? key = (l.buckets.find? key).bind fun b =>
      if (b.refill (l.limits key) t).isFull (l.limits key) then none
      else some (b.refill (l.limits key) t) :=
  Table.find?_choose _ _ _

theorem allows_consume (l : Limiter Rat) (key k : Key) (cost : Rat) (t : Int) :
    l.allows key (.consume k cost t) = (decide (k = key) && (isCost cost &&
      ((l.bucket k t).refill (l.limits k) t).covers cost)) := by
  unfold allows consume
  cases hcost : isCost cost with
  | false => simp only [hcost, Bool.not_false, if_true, Bool.false_and]
  | true => simp only [hcost, Bool.not_true, Bool.false_eq_true, if_false, Bool.true_and]

theorem attempted_filledAt (l : Limiter Rat) (key : Key) (cost : Rat) (t : Int) :
    (l.attempted key cost t).filledAt = max t (l.bucket key t).filledAt := by
  unfold attempted
  simp only
  split <;> rfl

theorem filledAt_bucket_le (h : l.Sound key t) : (l.bucket key t).filledAt ≤ t := by
  rw [bucket]
  cases hb : l.buckets.find? key with
  | none => exact le_refl t
  | some b => exact (h b hb).2

/-- What is left after an allowed attempt. -/
theorem attempted_tokens_of_covers (hcovers :
    ((l.bucket key t).refill (l.limits key) t).covers cost = true) :
    (l.attempted key cost t).tokens =
      min (max (l.level key t - cost) 0) (l.limits key).capacity := by
  unfold attempted
  simp only [hcovers, if_true]
  exact between_eq _ _

theorem attempted_tokens_of_not (hcovers :
    ((l.bucket key t).refill (l.limits key) t).covers cost = false) :
    (l.attempted key cost t).tokens = l.level key t := by
  unfold attempted
  simp only [hcovers, Bool.false_eq_true, if_false]
  rfl

/-- What an allowed attempt leaves is too much by no more than the tolerance. -/
theorem max_level_sub_le (hcovers :
    ((l.bucket key t).refill (l.limits key) t).covers cost = true) :
    max (l.level key t - cost) 0 ≤ l.level key t - cost + slack := by
  have henough : cost ≤ l.level key t + slack := of_decide_eq_true hcovers
  have hslack := slack_pos
  apply max_le
  · linarith
  · linarith

/-- **What an operation makes of a bucket**: it leaves the bucket alone, it is an attempt for its
key, or it is a pruning that fills it up. -/
theorem find?_after_cases {op : Operation} {b : Bucket Rat}
    (h : (l.after op).buckets.find? key = some b) :
    l.buckets.find? key = some b ∨
    (∃ cost t, op = .consume key cost t ∧ isCost cost = true ∧ b = l.attempted key cost t) ∨
    (∃ b' t, op = .prune t ∧ l.buckets.find? key = some b' ∧ b = b'.refill (l.limits key) t) := by
  cases op with
  | consume k cost t =>
    cases hcost : isCost cost with
    | false =>
      rw [after_consume_of_not l k hcost] at h
      exact .inl h
    | true =>
      rw [find?_after_consume l k hcost] at h
      by_cases hk : key = k
      · subst hk
        rw [if_pos rfl] at h
        exact .inr (.inl ⟨cost, t, rfl, hcost, (Option.some.inj h).symm⟩)
      · rw [if_neg hk] at h
        exact .inl h
  | prune t =>
    rw [find?_after_prune] at h
    obtain ⟨b', hb', hkept⟩ := Option.bind_eq_some_iff.mp h
    split at hkept
    · cases hkept
    · exact .inr (.inr ⟨b', t, rfl, hb', (Option.some.inj hkept).symm⟩)

/-- **An operation keeps buckets sound.** -/
theorem Sound.after {op : Operation} (h : l.Sound key op.instant)
    (hcapacity : 0 ≤ (l.limits key).capacity) (hrefill : 0 ≤ (l.limits key).refill) :
    (l.after op).Sound key op.instant := by
  intro b hb
  rcases find?_after_cases hb with hb | ⟨cost, t, rfl, -, rfl⟩ | ⟨b', t, rfl, hb', rfl⟩
  · exact h b hb
  · constructor
    · cases hcovers : ((l.bucket key t).refill (l.limits key) t).covers cost with
      | true =>
        rw [attempted_tokens_of_covers hcovers]
        exact le_min (le_max_right _ _) hcapacity
      | false =>
        rw [attempted_tokens_of_not hcovers]
        exact level_nonneg h hcapacity hrefill
    · rw [attempted_filledAt]
      exact max_le (le_refl t) (filledAt_bucket_le h)
  · exact ⟨b'.refill_nonneg _ hcapacity hrefill (h b' hb').1 t, max_le (le_refl t) (h b' hb').2⟩

/-- An attempt for another key changes nothing for this one. -/
theorem level_after_of_ne {k : Key} (hk : k ≠ key) (cost : Rat) (t now : Int) :
    (l.after (.consume k cost t)).level key now = l.level key now := by
  cases hcost : isCost cost with
  | false => rw [after_consume_of_not l k hcost]
  | true =>
    have hfind := find?_after_consume l k hcost t key
    rw [if_neg (Ne.symm hk)] at hfind
    rw [level, level, bucket, bucket, hfind, limits_after]

/-- What a key can spend at the instant of an attempt that was made for it. -/
theorem level_after_consume (hcost : isCost cost = true) :
    (l.after (.consume key cost t)).level key t =
      min (l.attempted key cost t).tokens (l.limits key).capacity := by
  have hfind := find?_after_consume l key hcost t key
  rw [if_pos rfl] at hfind
  rw [level_of_some hfind, limits_after]
  apply Bucket.refill_tokens_of_le
  rw [attempted_filledAt]
  exact le_max_left _ _

/-- An attempt for a key lowers its level by what it is allowed, but for the tolerance. -/
theorem cost_add_level_consume (key : Key) (cost : Rat) (t : Int) :
    l.cost key (.consume key cost t) + (l.after (.consume key cost t)).level key t ≤
      l.level key t + ((l.allows key (.consume key cost t)).toNat : Rat) * slack := by
  unfold Limiter.cost
  simp only
  cases hcost : isCost cost with
  | false =>
    have hallows : l.allows key (.consume key cost t) = false := by
      rw [allows_consume, hcost, Bool.false_and, Bool.and_false]
    rw [after_consume_of_not l key hcost, hallows]
    simp
  | true =>
    have hle : (l.after (.consume key cost t)).level key t ≤ (l.attempted key cost t).tokens := by
      rw [level_after_consume hcost]
      exact min_le_left _ _
    cases hcovers : ((l.bucket key t).refill (l.limits key) t).covers cost with
    | false =>
      have hallows : l.allows key (.consume key cost t) = false := by
        rw [allows_consume, hcovers, Bool.and_false, Bool.and_false]
      rw [attempted_tokens_of_not hcovers] at hle
      rw [hallows]
      simpa using hle
    | true =>
      have hallows : l.allows key (.consume key cost t) = true := by
        rw [allows_consume, hcovers, hcost]
        simp
      rw [attempted_tokens_of_covers hcovers] at hle
      have hleft := hle.trans ((min_le_left _ _).trans (max_level_sub_le hcovers))
      rw [hallows, if_pos rfl, Bool.toNat_true, Nat.cast_one, one_mul]
      linarith

/-- A bucket that is dropped was short of its capacity by no more than the tolerance. -/
theorem capacity_le_of_dropped {l : Limiter Rat} {key : Key} {t : Int} {b : Bucket Rat}
    (hb : l.buckets.find? key = some b) (h : (l.after (.prune t)).buckets.find? key = none) :
    (l.limits key).capacity ≤ (b.refill (l.limits key) t).tokens + slack := by
  have hfind := find?_after_prune l t key
  rw [h, hb, Option.bind_some] at hfind
  split at hfind
  · rename_i hfull
    have hfull' : ¬ (b.refill (l.limits key) t).tokens + slack < (l.limits key).capacity := by
      simpa [Bucket.isFull, slack] using hfull
    exact not_lt.mp hfull'
  · cases hfind

/-- A pruning raises a level by no more than the tolerance. -/
theorem level_after_prune (l : Limiter Rat) (key : Key) (t : Int) :
    (l.after (.prune t)).level key t ≤ l.level key t + slack := by
  have hslack := slack_pos
  have hfind := find?_after_prune l t key
  cases hb : l.buckets.find? key with
  | none =>
    rw [hb, Option.bind_none] at hfind
    rw [level_of_none hfind, level_of_none hb, limits_after]
    linarith
  | some b =>
    rw [level_of_some hb]
    cases hleft : (l.after (.prune t)).buckets.find? key with
    | none =>
      rw [level_of_none hleft, limits_after]
      exact capacity_le_of_dropped hb hleft
    | some left =>
      rw [hleft, hb, Option.bind_some] at hfind
      split at hfind
      · cases hfind
      · rw [level_of_some hleft, Option.some.inj hfind, limits_after,
          Bucket.refill_tokens_of_le _ _ (le_max_left _ _)]
        exact (min_le_left _ _).trans (by linarith)

/-- **An operation lowers the level by what it costs**, but for the tolerance. -/
theorem cost_add_level_after (l : Limiter Rat) (key : Key) (op : Operation) :
    l.cost key op + (l.after op).level key op.instant ≤ l.level key op.instant +
      (((l.allows key op).toNat + op.isPrune.toNat : Nat) : Rat) * slack := by
  cases op with
  | prune t =>
    have hprune := level_after_prune l key t
    simpa [Limiter.cost, allows, Operation.isPrune, Operation.instant] using hprune
  | consume k cost t =>
    by_cases hk : k = key
    · subst hk
      simpa [Operation.isPrune, Operation.instant] using cost_add_level_consume k cost t
    · have hallows : l.allows key (.consume k cost t) = false := by
        rw [allows_consume, decide_eq_false hk, Bool.false_and]
      simp [Limiter.cost, hallows, level_after_of_ne hk, Operation.isPrune]

/-! ## A run -/

theorem limits_run (l : Limiter Rat) (ops : List Operation) (key : Key) :
    (l.run ops).limits key = l.limits key := by
  induction ops generalizing l with
  | nil => rfl
  | cons op ops ih => exact (ih (l.after op)).trans (limits_after l op key)

theorem sound_fresh (client identity : Limits Rat) (key : Key) (t : Int) :
    (fresh client identity).Sound key t := by
  intro b hb
  rw [fresh, Table.find?_empty] at hb
  cases hb

/-- **A run keeps buckets sound**, if its instants are in order. -/
theorem Sound.run (h : l.Sound key t) (hcapacity : 0 ≤ (l.limits key).capacity)
    (hrefill : 0 ≤ (l.limits key).refill) {ops : List Operation}
    (hsorted : ops.Pairwise fun a b => a.instant ≤ b.instant)
    (hops : ∀ op ∈ ops, t ≤ op.instant ∧ op.instant ≤ t') (ht : t ≤ t') :
    (l.run ops).Sound key t' := by
  induction ops generalizing l t with
  | nil => exact h.mono ht
  | cons op ops ih =>
    have hop := hops op List.mem_cons_self
    obtain ⟨hfirst, hrest⟩ := List.pairwise_cons.mp hsorted
    have hafter := (h.mono hop.1).after hcapacity hrefill
    refine ih hafter ?_ ?_ hrest (fun o ho => ?_) hop.2
    · rwa [limits_after]
    · rwa [limits_after]
    · exact ⟨hfirst o ho, (hops o (List.mem_cons_of_mem op ho)).2⟩

/-- **What a run allows a key**, and what is left for it, is what the key had, what flowed in, and
the tolerance. -/
theorem spent_add_level_run (h : l.Sound key t) (hcapacity : 0 ≤ (l.limits key).capacity)
    (hrefill : 0 ≤ (l.limits key).refill) {ops : List Operation}
    (hsorted : ops.Pairwise fun a b => a.instant ≤ b.instant)
    (hops : ∀ op ∈ ops, t ≤ op.instant ∧ op.instant ≤ t') (ht : t ≤ t') :
    l.spent key ops + (l.run ops).level key t' ≤
      l.level key t + (l.limits key).refill * ((t' - t : Int) : Rat) / 1000000000 +
        ((l.allowances key ops + ops.countP Operation.isPrune : Nat) : Rat) * slack := by
  induction ops generalizing l t with
  | nil =>
    have hlevel := level_le_add h ht hrefill
    simpa [spent, allowances, run] using hlevel
  | cons op ops ih =>
    have hop := hops op List.mem_cons_self
    obtain ⟨hfirst, hrest⟩ := List.pairwise_cons.mp hsorted
    have hsound := h.mono hop.1
    have htime := level_le_add h hop.1 hrefill
    have hcost := cost_add_level_after l key op
    have hrun := ih (hsound.after hcapacity hrefill) (by rwa [limits_after])
      (by rwa [limits_after]) hrest
      (fun o ho => ⟨hfirst o ho, (hops o (List.mem_cons_of_mem op ho)).2⟩) hop.2
    rw [limits_after] at hrun
    have hspan : (l.limits key).refill * ((t' - t : Int) : Rat) / 1000000000 =
        (l.limits key).refill * ((op.instant - t : Int) : Rat) / 1000000000 +
          (l.limits key).refill * ((t' - op.instant : Int) : Rat) / 1000000000 := by
      push_cast
      ring
    have hprunes : (op :: ops).countP Operation.isPrune =
        ops.countP Operation.isPrune + op.isPrune.toNat := by
      rw [List.countP_cons]
      cases op.isPrune <;> rfl
    rw [hspan, hprunes, spent, allowances, run, List.foldl_cons, ← run]
    push_cast at htime hcost hrun ⊢
    linarith

/-- A run from the start keeps buckets sound. -/
theorem sound_run_fresh (client identity : Limits Rat) (key : Key) {ops : List Operation}
    (hcapacity : 0 ≤ ((fresh client identity).limits key).capacity)
    (hrefill : 0 ≤ ((fresh client identity).limits key).refill)
    (hsorted : ops.Pairwise fun a b => a.instant ≤ b.instant)
    (hops : ∀ op ∈ ops, op.instant ≤ t) : ((fresh client identity).run ops).Sound key t := by
  cases ops with
  | nil => exact sound_fresh client identity key t
  | cons op ops =>
    have hle : ∀ o ∈ op :: ops, op.instant ≤ o.instant := by
      intro o ho
      rcases List.mem_cons.mp ho with rfl | ho
      · exact le_refl _
      · exact (List.pairwise_cons.mp hsorted).1 o ho
    exact (sound_fresh client identity key op.instant).run hcapacity hrefill hsorted
      (fun o ho => ⟨hle o ho, hops o ho⟩) (hops op List.mem_cons_self)

/-- **What a key is allowed in a window of a run** is at most a full bucket and what flows in during
the window, and the tolerance for every allowed attempt and every pruning. -/
theorem spent_le (client identity : Limits Rat) (key : Key) (earlier window : List Operation)
    {t₁ t₂ : Int} (hcapacity : 0 < ((fresh client identity).limits key).capacity)
    (hrefill : 0 < ((fresh client identity).limits key).refill)
    (hsorted : (earlier ++ window).Pairwise fun a b => a.instant ≤ b.instant)
    (hwindow : ∀ op ∈ window, t₁ ≤ op.instant ∧ op.instant ≤ t₂) (ht : t₁ ≤ t₂) :
    ((fresh client identity).run earlier).spent key window ≤
      ((fresh client identity).limits key).capacity +
        ((fresh client identity).limits key).refill * ((t₂ - t₁ : Int) : Rat) / 1000000000 +
        ((((fresh client identity).run earlier).allowances key window +
          window.countP Operation.isPrune : Nat) : Rat) * (1 / 1000000000) := by
  obtain ⟨hearlier, hinside, hacross⟩ := List.pairwise_append.mp hsorted
  cases window with
  | nil =>
    have hspan : (0 : Rat) ≤ ((t₂ - t₁ : Int) : Rat) := by
      exact_mod_cast Int.sub_nonneg.mpr ht
    rw [spent]
    positivity
  | cons op ops =>
    -- the window begins with its first operation, before which the run may have gone beyond `t₁`
    have hop := hwindow op List.mem_cons_self
    have hle : ∀ o ∈ op :: ops, op.instant ≤ o.instant ∧ o.instant ≤ t₂ := by
      intro o ho
      refine ⟨?_, (hwindow o ho).2⟩
      rcases List.mem_cons.mp ho with rfl | ho
      · exact le_refl _
      · exact (List.pairwise_cons.mp hinside).1 o ho
    have hsound := sound_run_fresh client identity key hcapacity.le hrefill.le hearlier
      fun o ho => hacross o ho op List.mem_cons_self
    have hlimits := limits_run (fresh client identity) earlier key
    have hcapacity' : 0 ≤ (((fresh client identity).run earlier).limits key).capacity := by
      rw [hlimits]
      exact hcapacity.le
    have hrefill' : 0 ≤ (((fresh client identity).run earlier).limits key).refill := by
      rw [hlimits]
      exact hrefill.le
    have hrun := spent_add_level_run hsound hcapacity' hrefill' hinside hle hop.2
    have hend : 0 ≤ (((fresh client identity).run earlier).run (op :: ops)).level key t₂ := by
      apply level_nonneg (hsound.run hcapacity' hrefill' hinside hle hop.2)
      · rwa [limits_run]
      · rwa [limits_run]
    have hstart := level_le_capacity ((fresh client identity).run earlier) key op.instant
    have hflow : ((fresh client identity).limits key).refill * ((t₂ - op.instant : Int) : Rat) ≤
        ((fresh client identity).limits key).refill * ((t₂ - t₁ : Int) : Rat) := by
      apply mul_le_mul_of_nonneg_left _ hrefill.le
      exact_mod_cast Int.sub_le_sub_left hop.1 t₂
    rw [hlimits] at hrun hstart
    rw [slack_eq] at hrun
    linarith

theorem spent_le_burst :
    let limits : Limits Rat := ⟨2, 4⟩
    let key := Key.identity "alice"
    let earlier := [Operation.consume key 1 0]
    let window := [Operation.consume key 1 0, .consume key 1 0, .prune 250000000,
      .consume (.identity "bob") 1 250000000, .consume key 1 250000000]
    (earlier ++ window).Pairwise (fun a b => a.instant ≤ b.instant) ∧
    (∀ op ∈ window, 0 ≤ op.instant ∧ op.instant ≤ 250000000) ∧
    ((fresh limits limits).run earlier).spent key window = 2 ∧
    ((fresh limits limits).run earlier).spent key window ≤
      2 + 4 * ((250000000 - 0 : Int) : Rat) / 1000000000 +
        ((((fresh limits limits).run earlier).allowances key window +
          window.countP Operation.isPrune : Nat) : Rat) * (1 / 1000000000) := by
  intro limits key earlier window
  have hsorted : (earlier ++ window).Pairwise (fun a b => a.instant ≤ b.instant) := by decide
  have hwindow : ∀ op ∈ window, 0 ≤ op.instant ∧ op.instant ≤ 250000000 := by decide
  refine ⟨hsorted, hwindow, ?_, ?_⟩
  · decide +kernel
  · exact spent_le limits limits key earlier window (by decide) (by decide) hsorted hwindow
      (by decide)

end Limiter

end MailScreen.RateLimit
