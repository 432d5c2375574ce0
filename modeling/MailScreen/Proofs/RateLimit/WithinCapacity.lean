import MailScreen.Proofs.RateLimit.Readings

/-!
# Buckets stay within their capacity

Whatever is asked of a limiter, at whatever instants, its buckets hold at least nothing and at most
their capacity, and their instants do not go back.

* `Bucket.IsWithin` is the invariant of a bucket; `IsWithin.after` and `IsWithin.run` carry it
  through the operations of a run.
* `filledAt_le_after`: no operation takes the instant of a bucket back.
* `consume?` is an attempt that comes to nothing if the bounds of what it leaves are crossed, or are
  no numbers; `consume?_eq` says when it is the same as an attempt.
* `stays_within`: all of it, for the limiters that settings ask for and for any costs.
-/

namespace MailScreen.RateLimit

/-- A bucket that holds at least nothing and at most its capacity. -/
structure Bucket.IsWithin (b : Bucket Rat) (limits : Limits Rat) : Prop where
  nonneg : 0 ≤ b.tokens
  le : b.tokens ≤ limits.capacity

namespace Bucket

variable {b : Bucket Rat} {limits : Limits Rat}

theorem IsWithin.refill (h : b.IsWithin limits) (hlimits : limits.IsUsable) (now : Int) :
    (b.refill limits now).IsWithin limits :=
  ⟨b.refill_nonneg limits hlimits.capacity_pos.le hlimits.refill_pos.le h.nonneg now,
    b.refill_le limits now⟩

theorem isWithin_spend (b : Bucket Rat) (hlimits : limits.IsUsable) (cost : Rat) :
    (b.spend limits cost).IsWithin limits := by
  have htokens : (b.spend limits cost).tokens = min (max (b.tokens - cost) 0) limits.capacity :=
    between_eq _ _
  constructor
  · rw [htokens]
    exact le_min (le_max_right _ _) hlimits.capacity_pos.le
  · rw [htokens]
    exact min_le_right _ _

end Bucket

namespace Limiter

variable {m : Limiter Rat} {key : Key} {b b' : Bucket Rat}

/-! ## One operation -/

/-- **No operation takes the instant of a bucket back.** -/
theorem filledAt_le_after {op : Operation} (hb : m.buckets.find? key = some b)
    (hb' : (m.after op).buckets.find? key = some b') : b.filledAt ≤ b'.filledAt := by
  rcases find?_after_cases hb' with h | ⟨cost, t, rfl, -, rfl⟩ | ⟨b₀, t, rfl, h, rfl⟩
  · rw [hb] at h
    rw [Option.some.inj h]
  · rw [attempted_filledAt, bucket, hb]
    exact le_max_right _ _
  · rw [hb] at h
    rw [Option.some.inj h]
    exact le_max_right _ _

/-- Every bucket holds at least nothing and at most its capacity. -/
def IsWithin (m : Limiter Rat) : Prop :=
  ∀ key b, m.buckets.find? key = some b → b.IsWithin (m.limits key)

theorem isWithin_fresh (client identity : Limits Rat) : (fresh client identity).IsWithin := by
  intro key b hb
  rw [fresh, Table.find?_empty] at hb
  cases hb

namespace IsWithin

/-- A key without a bucket has a full one. -/
theorem bucket (h : m.IsWithin) (hlimits : (m.limits key).IsUsable) (now : Int) :
    (m.bucket key now).IsWithin (m.limits key) := by
  unfold Limiter.bucket
  cases hb : m.buckets.find? key with
  | none => exact ⟨hlimits.capacity_pos.le, le_refl _⟩
  | some b => exact h key b hb

theorem attempted (h : m.IsWithin) (hlimits : (m.limits key).IsUsable) (cost : Rat) (t : Int) :
    (m.attempted key cost t).IsWithin (m.limits key) := by
  unfold Limiter.attempted
  simp only
  split
  · exact Bucket.isWithin_spend _ hlimits cost
  · exact (h.bucket hlimits t).refill hlimits t

/-- **An operation keeps buckets within their capacity.** -/
theorem after (h : m.IsWithin) (hlimits : ∀ key, (m.limits key).IsUsable) (op : Operation) :
    (m.after op).IsWithin := by
  intro key b' hb'
  rw [limits_after]
  rcases find?_after_cases hb' with hb | ⟨cost, t, rfl, -, rfl⟩ | ⟨b, t, rfl, hb, rfl⟩
  · exact h key b' hb
  · exact h.attempted (hlimits key) cost t
  · exact (h key b hb).refill (hlimits key) t

/-- **A run keeps buckets within their capacity**, whatever the order of its instants. -/
theorem run (h : m.IsWithin) (hlimits : ∀ key, (m.limits key).IsUsable) (ops : List Operation) :
    (m.run ops).IsWithin := by
  induction ops generalizing m with
  | nil => exact h
  | cons op ops ih =>
    refine ih (h.after hlimits op) fun key => ?_
    rw [limits_after]
    exact hlimits key

/-- What an attempt tells is left in a bucket is within its capacity, too. -/
theorem remaining (h : m.IsWithin) (hlimits : (m.limits key).IsUsable) (cost : Rat) (now : Int) :
    let left := (m.consume key cost now).1.remaining
    0 ≤ left ∧ left ≤ (m.limits key).capacity := by
  intro left
  have hbucket := h.bucket hlimits now
  have hrefill := hbucket.refill hlimits now
  unfold left
  cases hcost : isCost cost with
  | false =>
    rw [consume_of_not_isCost hcost]
    exact ⟨hbucket.nonneg, hbucket.le⟩
  | true =>
    cases hcovers : ((m.bucket key now).refill (m.limits key) now).covers cost with
    | false =>
      rw [consume_of_not_covers hcost hcovers]
      exact ⟨hrefill.nonneg, hrefill.le⟩
    | true =>
      have hspend :=
        Bucket.isWithin_spend ((m.bucket key now).refill (m.limits key) now) hlimits cost
      rw [consume_of_covers hcost hcovers]
      exact ⟨hspend.nonneg, hspend.le⟩

end IsWithin

/-! ## Attempts that check the bounds -/

section Checked

variable {α : Type} [Add α] [Sub α] [Mul α] [LT α] [LE α] [DecidableLT α] [DecidableLE α] [Amount α]

/-- The amount nearest to `x` between two bounds; there is none if they are crossed, or if one of
them is not a number. -/
def between? (low high x : α) : Option α :=
  if low ≤ high then some (between low high x) else none

/-- One attempt, which comes to nothing if there is no amount between the bounds of what it
leaves. -/
def consume? (l : Limiter α) (key : Key) (cost : α) (now : Int) :
    Option (Outcome α × Limiter α) :=
  let b := l.bucket key now
  if !isCost cost then some (⟨false, b.tokens⟩, l)
  else
    let limits := l.limits key
    let b := b.refill limits now
    if b.covers cost then
      (between? Amount.zero limits.capacity (b.tokens - cost)).map fun left =>
        (⟨true, left⟩, { l with buckets := l.buckets.put key { b with tokens := left } })
    else some (⟨false, b.tokens⟩, { l with buckets := l.buckets.put key b })

/-- **An attempt needs no check** if the capacity is not below zero. -/
theorem consume?_eq {l : Limiter α} {key : Key} (h : Amount.zero ≤ (l.limits key).capacity)
    (cost : α) (now : Int) : l.consume? key cost now = some (l.consume key cost now) := by
  unfold consume? between?
  cases hcost : isCost cost with
  | false =>
    rw [consume_of_not_isCost hcost]
    rfl
  | true =>
    cases hcovers : ((l.bucket key now).refill (l.limits key) now).covers cost with
    | false =>
      rw [consume_of_not_covers hcost hcovers]
      simp only [hcovers, Bool.not_true, Bool.false_eq_true, if_false]
    | true =>
      rw [consume_of_covers hcost hcovers]
      simp only [hcovers, h, Bool.not_true, Bool.false_eq_true, if_false, if_true, Option.map_some]
      rfl

end Checked

/-! ## Limiters of readings -/

/-- The limits of settings that are not refused can be used, also after a run. -/
theorem isUsable_run {c : Config} (hc : c.check = .ok ()) (ops : List Operation) (key : Key) :
    (((ofSettings c.rateLimit).run ops).limits key).IsUsable := by
  rw [limits_run]
  exact isUsable_ofSettings hc key

/-- **Buckets stay within their capacity.** Take a limiter with the limits of settings that are not
refused, after any calls at instants in any order and with costs of any kind. Every bucket holds at
least nothing and at most the capacity of its key, and so does what any attempt tells is left; no
call takes the instant of a bucket back; and no attempt fails for bounds that are crossed. -/
theorem stays_within {c : Config} (hc : c.check = .ok ()) (calls : List Call) :
    let l := (ofReadings c.rateLimit).runCalls calls
    (∀ key b, l.buckets.find? key = some b →
      Amount.zero ≤ b.tokens ∧ b.tokens ≤ ((ofReadings c.rateLimit).limits key).capacity) ∧
    (∀ key cost now, Amount.zero ≤ (l.consume key cost now).1.remaining ∧
      (l.consume key cost now).1.remaining ≤ ((ofReadings c.rateLimit).limits key).capacity) ∧
    (∀ call key b b', l.buckets.find? key = some b →
      (l.afterCall call).buckets.find? key = some b' → b.filledAt ≤ b'.filledAt) ∧
    (∀ key cost now, l.consume? key cost now = some (l.consume key cost now)) := by
  intro l
  obtain ⟨ops, hm⟩ := exists_mirrors_runCalls hc calls
  let m := (ofSettings c.rateLimit).run ops
  have hlimits : ∀ key, (m.limits key).IsUsable := isUsable_run hc ops
  have hwithin : m.IsWithin := (isWithin_fresh _ _).run (isUsable_ofSettings hc) ops
  have hcapacity : ∀ key, ((ofReadings c.rateLimit).limits key).capacity =
      .number (m.limits key).capacity := by
    intro key
    rw [(mirrors_ofReadings hc).limits_eq key]
    unfold m
    rw [limits_run]
    rfl
  refine ⟨fun key b hb => ?_, fun key cost now => ?_, fun call key b b' hb hb' => ?_,
    fun key cost now => ?_⟩
  · rw [hm.find? key] at hb
    obtain ⟨held, hheld, rfl⟩ := Option.map_eq_some_iff.mp hb
    have hbounds := hwithin key held hheld
    rw [hcapacity]
    exact ⟨Reading.number_le.mpr hbounds.nonneg, Reading.number_le.mpr hbounds.le⟩
  · obtain ⟨hnonneg, hle⟩ :=
      hwithin.remaining (hlimits key) (cost.standIn (m.limits key).capacity) now
    rw [(hm.consume key cost now).1, hcapacity]
    exact ⟨Reading.number_le.mpr hnonneg, Reading.number_le.mpr hle⟩
  · rw [hm.find? key] at hb
    rw [(hm.afterCall call).find? key] at hb'
    obtain ⟨before, hbefore, rfl⟩ := Option.map_eq_some_iff.mp hb
    obtain ⟨behind, hbehind, rfl⟩ := Option.map_eq_some_iff.mp hb'
    exact filledAt_le_after hbefore hbehind
  · apply consume?_eq
    rw [hm.limits_eq key]
    exact Reading.number_le.mpr (hlimits key).capacity_pos.le

/-- Costs of all kinds, one of them beyond what is left by just the tolerance, and a clock that goes
back. -/
theorem stays_within_backwards :
    let c : Config := { rateLimit := { client := ⟨2, 1⟩ } }
    let client := Key.client (.v4 0xCB007105)
    let calls := [Call.consume client (.number (2 + 1 / 1000000000)) 5000000000,
      .consume client (.infinite true) 6000000000, .consume client .notANumber 9000000000,
      .consume client (.infinite false) 9000000000, .consume client (.number (1 / 2)) 0,
      .prune 1000000000]
    let l := (ofReadings c.rateLimit).runCalls calls
    c.check = .ok () ∧
    (l.buckets.find? client).map (fun b => (b.tokens, b.filledAt)) =
      some (.number (1 / 2), 6000000000) ∧
    (∀ key b, l.buckets.find? key = some b →
      Amount.zero ≤ b.tokens ∧ b.tokens ≤ ((ofReadings c.rateLimit).limits key).capacity) ∧
    (∀ key cost now, Amount.zero ≤ (l.consume key cost now).1.remaining ∧
      (l.consume key cost now).1.remaining ≤ ((ofReadings c.rateLimit).limits key).capacity) ∧
    (∀ call key b b', l.buckets.find? key = some b →
      (l.afterCall call).buckets.find? key = some b' → b.filledAt ≤ b'.filledAt) ∧
    (∀ key cost now, l.consume? key cost now = some (l.consume key cost now)) := by
  intro c client calls l
  have hc : c.check = .ok () := by decide +kernel
  refine ⟨hc, ?_, stays_within hc calls⟩
  decide +kernel

end Limiter

end MailScreen.RateLimit
