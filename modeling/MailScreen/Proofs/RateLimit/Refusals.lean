import MailScreen.Proofs.RateLimit.Pruning
import MailScreen.Proofs.RateLimit.WithinCapacity

/-!
# What an attempt changes

An attempt that is refused still fills up the bucket, or makes a full one for a key that had none.
It makes no difference though: what a key can spend from then on is what it could spend without the
attempt. An attempt that is allowed lowers the level of its own key by what it costs, but for the
tolerance, and leaves the other keys alone.

* `level_of_not_covers`: a refused attempt changes no level at that instant or later.
* `level_after_of_covers`, `level_sub_le`, `le_level_sub`: what an allowed attempt takes from its
  key.
* `Reading.spendable` is the level in a limiter of readings.
* `levels_of_consume`: all of it, for the limiters that settings ask for and for any costs.
-/

namespace MailScreen.RateLimit

namespace Limiter

variable {m : Limiter Rat} {key k : Key} {cost : Rat} {now t : Int}

/-! ## Refused attempts -/

/-- The level of a key at any instant is that of the bucket that it has, or would have, at
another. -/
theorem level_eq_refill_bucket (now t : Int) (hrefill : 0 ≤ (m.limits key).refill) :
    m.level key t = ((m.bucket key now).refill (m.limits key) t).tokens := by
  cases hb : m.buckets.find? key with
  | some b =>
    rw [level_of_some hb, bucket, hb]
    rfl
  | none =>
    have hfull : (m.limits key).capacity ≤
        (m.limits key).capacity + (m.bucket key now).inflow (m.limits key) t :=
      le_add_of_nonneg_right (Bucket.inflow_nonneg _ _ hrefill t)
    have htokens : (m.bucket key now).tokens = (m.limits key).capacity := by
      rw [bucket, hb]
      rfl
    rw [level_of_none hb, Bucket.refill_tokens, htokens, min_eq_right hfull]

/-- **An attempt that finds too little in the bucket changes no level** from then on. -/
theorem level_of_not_covers (hcost : isCost cost = true)
    (hcovers : ((m.bucket key now).refill (m.limits key) now).covers cost = false) (ht : now ≤ t)
    (hrefill : 0 ≤ (m.limits key).refill) (k : Key) :
    (m.after (.consume key cost now)).level k t = m.level k t := by
  by_cases hk : key = k
  · subst hk
    have hattempted : m.attempted key cost now = (m.bucket key now).refill (m.limits key) now := by
      unfold attempted
      simp only [hcovers, Bool.false_eq_true, if_false]
    have hfind := find?_after_consume m key hcost now key
    rw [if_pos rfl, hattempted] at hfind
    rw [level_of_some hfind, limits_after, Bucket.refill_refill _ _ ht hrefill,
      level_eq_refill_bucket now t hrefill]
  · exact level_after_of_ne hk cost now t

/-! ## Allowed attempts -/

section Covers

variable (hcost : isCost cost = true)
  (hcovers : ((m.bucket key now).refill (m.limits key) now).covers cost = true)
  (hcapacity : 0 ≤ (m.limits key).capacity)

include hcost hcovers hcapacity

/-- What an allowed attempt leaves for its key. -/
theorem level_after_of_covers :
    (m.after (.consume key cost now)).level key now = max (m.level key now - cost) 0 := by
  have hnonneg : 0 ≤ cost := by
    obtain ⟨-, hcost⟩ := Bool.and_eq_true_iff.mp hcost
    exact not_lt.mp (of_decide_eq_false (Bool.not_eq_true' _ ▸ hcost))
  have hle := level_le_capacity m key now
  have hleft : max (m.level key now - cost) 0 ≤ (m.limits key).capacity :=
    max_le (by linarith) hcapacity
  rw [level_after_consume hcost, attempted_tokens_of_covers hcovers, min_assoc, min_self,
    min_eq_left hleft]

/-- An allowed attempt takes no more than its cost. -/
theorem level_sub_le :
    m.level key now - (m.after (.consume key cost now)).level key now ≤ cost := by
  have hleft := le_max_left (m.level key now - cost) 0
  rw [level_after_of_covers hcost hcovers hcapacity]
  linarith

/-- An allowed attempt takes its cost, but for the tolerance. -/
theorem le_level_sub :
    cost - slack ≤ m.level key now - (m.after (.consume key cost now)).level key now := by
  have hleft := max_level_sub_le hcovers
  rw [level_after_of_covers hcost hcovers hcapacity]
  linarith

end Covers

/-! ## Limiters of readings -/

/-- What a key could spend at an instant. -/
def spendable (l : Limiter Reading) (key : Key) (now : Int) : Reading :=
  ((l.bucket key now).refill (l.limits key) now).tokens

theorem Mirrors.spendable_eq {l : Limiter Reading} (h : l.Mirrors m) (key : Key) (now : Int) :
    l.spendable key now = .number (m.level key now) := by
  unfold spendable
  rw [h.bucket_eq, h.limits_eq, Bucket.refill_map]
  rfl

/-- Only a cost that is a number is allowed. -/
theorem Mirrors.exists_number_of_allowed {l : Limiter Reading} {cost : Reading} (h : l.Mirrors m)
    (hallowed : (l.consume key cost now).1.allowed = true) : ∃ x, cost = .number x := by
  rw [allowed_consume, h.bucket_eq, h.limits_eq, Bucket.refill_map] at hallowed
  obtain ⟨hcost, hcovers⟩ := Bool.and_eq_true_iff.mp hallowed
  exact Bucket.exists_number_of_covers _ hcost hcovers

/-- **What an attempt changes.** Take a limiter with the limits of settings that are not refused,
after any calls at instants in any order, and one more attempt. If it is refused, every key can
spend from that instant on what it could without it. A cost below zero, or one that is not a number,
is refused and leaves the limiter as it was. If the attempt is allowed, no other key's level changes
at any instant, and that of its own key falls by at most the cost, and by at least the cost less the
tolerance. -/
theorem levels_of_consume {c : Config} (hc : c.check = .ok ()) (calls : List Call) (key : Key)
    (cost : Reading) (now : Int) :
    let l := (ofReadings c.rateLimit).runCalls calls
    let outcome := (l.consume key cost now).1
    let l' := (l.consume key cost now).2
    (outcome.allowed = false → ∀ k t, now ≤ t → l'.spendable k t = l.spendable k t) ∧
    (cost < Amount.zero ∨ Amount.isNumber cost = false → outcome.allowed = false ∧ l' = l) ∧
    (outcome.allowed = true →
      (∀ k ≠ key, ∀ t, l'.spendable k t = l.spendable k t) ∧
      l.spendable key now - l'.spendable key now ≤ cost ∧
      cost - .number (1 / 1000000000) ≤ l.spendable key now - l'.spendable key now) := by
  intro l outcome l'
  obtain ⟨ops, hm⟩ := exists_mirrors_runCalls hc calls
  let m := (ofSettings c.rateLimit).run ops
  have hlimits := isUsable_run hc ops key
  let x := cost.standIn (m.limits key).capacity
  obtain ⟨houtcome, hm'⟩ := hm.consume key cost now
  have hlevel : ∀ k t, l.spendable k t = .number (m.level k t) := hm.spendable_eq
  have hlevel' : ∀ k t, l'.spendable k t = .number ((m.after (.consume key x now)).level k t) :=
    hm'.spendable_eq
  have hallowed : outcome.allowed = (isCost x &&
      ((m.bucket key now).refill (m.limits key) now).covers x) := by
    rw [← allowed_consume]
    exact congrArg Outcome.allowed houtcome
  refine ⟨fun hrefused k t ht => ?_, fun hinvalid => ?_, fun hallow => ?_⟩
  · rw [hlevel, hlevel']
    cases hcost : isCost x with
    | false => rw [after_consume_of_not m key hcost]
    | true =>
      rw [hallowed, hcost, Bool.true_and] at hrefused
      rw [level_of_not_covers hcost hrefused ht hlimits.refill_pos.le]
  · have hcost : isCost cost = false := by
      unfold isCost
      rcases hinvalid with h | h
      · rw [decide_eq_true h, Bool.not_true, Bool.and_false]
      · rw [h, Bool.false_and]
    unfold outcome l'
    rw [consume_of_not_isCost hcost]
    exact ⟨rfl, rfl⟩
  · obtain ⟨hcost, hcovers⟩ := Bool.and_eq_true_iff.mp (hallowed.symm.trans hallow)
    obtain ⟨y, rfl⟩ := hm.exists_number_of_allowed hallow
    have hsub : l.spendable key now - l'.spendable key now =
        .number (m.level key now - (m.after (.consume key x now)).level key now) := by
      rw [hlevel, hlevel', Reading.number_sub]
    refine ⟨fun k hk t => ?_, ?_, ?_⟩
    · rw [hlevel, hlevel', level_after_of_ne hk.symm]
    · rw [hsub]
      exact Reading.number_le.mpr (level_sub_le hcost hcovers hlimits.capacity_pos.le)
    · rw [hsub, Reading.number_sub]
      exact Reading.number_le.mpr (le_level_sub hcost hcovers hlimits.capacity_pos.le)

/-- A bucket ahead of the time, from which one attempt too many is made, and one that takes all that
is left and the tolerance. -/
theorem levels_of_consume_ahead :
    let c : Config := { rateLimit := { client := ⟨2, 1⟩ } }
    let client := Key.client (.v4 0xCB007105)
    let calls := [Call.consume client (.number 1) 5000000000]
    let l := (ofReadings c.rateLimit).runCalls calls
    let refused := l.consume client (.infinite true) 3000000000
    let allowed := l.consume client (.number (1 + 1 / 1000000000)) 3000000000
    c.check = .ok () ∧
    (refused.1.allowed = false ∧
      ∀ k t, 3000000000 ≤ t → refused.2.spendable k t = l.spendable k t) ∧
    ((l.consume client .notANumber 3000000000).1.allowed = false ∧
      (l.consume client .notANumber 3000000000).2 = l) ∧
    allowed.1.allowed = true ∧
    l.spendable client 3000000000 - allowed.2.spendable client 3000000000 = .number 1 ∧
    .number (1 + 1 / 1000000000) - .number (1 / 1000000000) ≤
      l.spendable client 3000000000 - allowed.2.spendable client 3000000000 := by
  intro c client calls l refused allowed
  have hc : c.check = .ok () := by decide +kernel
  have hrefused : refused.1.allowed = false := by decide +kernel
  have hallowed : allowed.1.allowed = true := by decide +kernel
  obtain ⟨hlater, -, -⟩ := levels_of_consume hc calls client (.infinite true) 3000000000
  obtain ⟨-, hinvalid, -⟩ := levels_of_consume hc calls client .notANumber 3000000000
  obtain ⟨-, -, htaken⟩ :=
    levels_of_consume hc calls client (.number (1 + 1 / 1000000000)) 3000000000
  exact ⟨hc, ⟨hrefused, hlater hrefused⟩, hinvalid (.inr rfl), hallowed, by decide +kernel,
    (htaken hallowed).2.2⟩

end Limiter

end MailScreen.RateLimit
