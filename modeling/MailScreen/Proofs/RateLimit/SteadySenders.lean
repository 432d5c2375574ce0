import MailScreen.Proofs.RateLimit.Refusals

/-!
# Senders that keep to the rate

A sender who waits after each attempt until its cost has flowed in again is never refused, however
full the bucket was before and whatever others do in the meantime.

* `Limits.Regains` says that a cost flows in between two instants; `regains_iff`: that takes as many
  seconds as the cost is times what flows in in one.
* `Limiter.Rested` is the invariant: once the cost has flowed in since the last attempt, the level
  is at least the cost. `Rested.prune`, `Rested.other` and `Rested.attempt` carry it through the
  calls.
* `allowed_of_steady`: every attempt of such a sender is allowed.
-/

namespace MailScreen.RateLimit

/-- What an attempt costs flows in between two instants. -/
def Limits.Regains (limits : Limits Rat) (cost : Rat) (t t' : Int) : Prop :=
  cost ≤ limits.refill * ((t' - t : Int) : Rat) / 1000000000

instance (limits : Limits Rat) (cost : Rat) (t t' : Int) : Decidable (limits.Regains cost t t') :=
  inferInstanceAs (Decidable (cost ≤ _))

theorem Limits.regains_iff {limits : Limits Rat} (h : 0 < limits.refill) (cost : Rat) (t t' : Int) :
    limits.Regains cost t t' ↔ cost / limits.refill ≤ ((t' - t : Int) : Rat) / 1000000000 := by
  unfold Regains
  rw [div_le_iff₀ h, mul_comm limits.refill, mul_div_right_comm]

/-- Only time brings a cost back, and only if anything flows in. -/
theorem Limits.Regains.refill_pos {limits : Limits Rat} {cost : Rat} {t t' : Int}
    (h : limits.Regains cost t t') (hcost : 0 < cost) (ht : t ≤ t') : 0 < limits.refill := by
  have hspan : (0 : Rat) ≤ ((t' - t : Int) : Rat) := by
    exact_mod_cast Int.sub_nonneg.mpr ht
  have hflow : 0 < limits.refill * ((t' - t : Int) : Rat) := by
    unfold Regains at h
    linarith
  exact pos_of_mul_pos_left hflow hspan

/-- When a call is made, if it is an attempt for a key. -/
def Call.attempt? (key : Key) : Call → Option Int
  | consume k _ t => if k = key then some t else none
  | prune _ => none

namespace Limiter

variable {m : Limiter Rat} {key k : Key} {cost : Rat} {last : Option Int} {now t : Int}

theorem isCost_of_pos (hcost : 0 < cost) : isCost cost = true := by
  show (true && !decide (cost < 0)) = true
  rw [decide_eq_false (not_lt.mpr hcost.le)]
  rfl

theorem covers_of_le_level (hlevel : cost ≤ m.level key now) :
    ((m.bucket key now).refill (m.limits key) now).covers cost = true :=
  decide_eq_true (hlevel.trans (le_add_of_nonneg_right slack_pos.le))

/-- **A key that has rested**: after its last attempt it can spend a cost as soon as that has flowed
in. A key without an attempt has no bucket. -/
structure Rested (m : Limiter Rat) (key : Key) (cost : Rat) (last : Option Int) (now : Int) :
    Prop where
  unused : last = none → m.buckets.find? key = none
  past : ∀ t₀ ∈ last, t₀ ≤ now
  punctual : ∀ b, m.buckets.find? key = some b → b.filledAt ≤ now
  level : ∀ t₀ ∈ last, ∀ t, now ≤ t → (m.limits key).Regains cost t₀ t → cost ≤ m.level key t

theorem rested_fresh (client identity : Limits Rat) (key : Key) (cost : Rat) (now : Int) :
    (fresh client identity).Rested key cost none now where
  unused _ := Table.find?_empty key
  past := nofun
  punctual b hb := by
    rw [fresh, Table.find?_empty] at hb
    cases hb
  level := nofun

namespace Rested

/-- A key that has rested stays so as time passes. -/
theorem mono (h : m.Rested key cost last now) (ht : now ≤ t) : m.Rested key cost last t where
  unused := h.unused
  past t₀ h₀ := (h.past t₀ h₀).trans ht
  punctual b hb := (h.punctual b hb).trans ht
  level t₀ h₀ t' ht' := h.level t₀ h₀ t' (ht.trans ht')

/-- There is enough for an attempt if the cost has flowed in. -/
theorem cost_le_level (h : m.Rested key cost last now)
    (hcapacity : cost ≤ (m.limits key).capacity)
    (hlast : ∀ t₀ ∈ last, (m.limits key).Regains cost t₀ now) : cost ≤ m.level key now := by
  cases last with
  | none =>
    rw [level_of_none (h.unused rfl)]
    exact hcapacity
  | some t₀ => exact h.level t₀ rfl now (le_refl now) (hlast t₀ rfl)

/-- A pruning leaves a key rested. -/
theorem prune (h : m.Rested key cost last now) (hcost : 0 < cost) :
    (m.after (.prune now)).Rested key cost last now where
  unused hlast := by
    rw [find?_after_prune, h.unused hlast]
    rfl
  past := h.past
  punctual b hb := by
    rcases find?_after_cases hb with hb | ⟨c, t, hop, -⟩ | ⟨b', t, hop, hb', rfl⟩
    · exact h.punctual b hb
    · cases hop
    · cases hop
      exact max_le (le_refl now) (h.punctual b' hb')
  level t₀ h₀ t ht hregains := by
    rw [limits_after] at hregains
    have hrefill := hregains.refill_pos hcost ((h.past t₀ h₀).trans ht)
    exact (h.level t₀ h₀ t ht hregains).trans (level_le_prune ht hrefill.le)

/-- An attempt for another key leaves this one rested. -/
theorem other (h : m.Rested key cost last now) (hk : k ≠ key) (c : Rat) :
    (m.after (.consume k c now)).Rested key cost last now := by
  have hfind : (m.after (.consume k c now)).buckets.find? key = m.buckets.find? key := by
    cases hc : isCost c with
    | false => rw [after_consume_of_not m k hc]
    | true => rw [find?_after_consume m k hc, if_neg hk.symm]
  refine ⟨fun hlast => ?_, h.past, fun b hb => ?_, fun t₀ h₀ t ht hregains => ?_⟩
  · rw [hfind, h.unused hlast]
  · exact h.punctual b (hfind ▸ hb)
  · rw [limits_after] at hregains
    rw [level_after_of_ne hk]
    exact h.level t₀ h₀ t ht hregains

/-- **A key rests from an attempt** that was allowed. -/
theorem attempt (h : m.Rested key cost last now) (hcost : 0 < cost)
    (hcapacity : cost ≤ (m.limits key).capacity) (hlevel : cost ≤ m.level key now) :
    (m.after (.consume key cost now)).Rested key cost (some now) now := by
  have hcovers := covers_of_le_level hlevel
  have hfind := find?_after_consume m key (isCost_of_pos hcost) now key
  rw [if_pos rfl] at hfind
  have hfilled : (m.attempted key cost now).filledAt = now := by
    rw [attempted_filledAt, bucket]
    cases hb : m.buckets.find? key with
    | none => exact max_self now
    | some b => exact max_eq_left (h.punctual b hb)
  have hleft : 0 ≤ (m.attempted key cost now).tokens := by
    rw [attempted_tokens_of_covers hcovers]
    exact le_min (le_max_right _ _) (hcost.le.trans hcapacity)
  refine ⟨fun hlast => ?_, fun t₀ h₀ => ?_, fun b hb => ?_, fun t₀ h₀ t ht hregains => ?_⟩
  · exact absurd hlast (Option.some_ne_none now)
  · rw [Option.mem_some.mp h₀]
  · rw [hfind] at hb
    rw [← Option.some.inj hb, hfilled]
  · obtain rfl := Option.mem_some.mp h₀
    rw [limits_after] at hregains
    have hinflow : cost ≤ (m.attempted key cost now).inflow (m.limits key) t := by
      rw [Bucket.inflow_of_le _ _ (hfilled.le.trans ht), hfilled, div_mul_eq_mul_div,
        mul_comm _ (m.limits key).refill]
      exact hregains
    rw [level_of_some hfind, limits_after, Bucket.refill_tokens]
    exact le_min (hinflow.trans (le_add_of_nonneg_left hleft)) hcapacity

/-- **One call**: an attempt at the pace is allowed, and after any call the key rests again. -/
theorem afterCall {l : Limiter Reading} (hm : l.Mirrors m) {call : Call} {instants : List Int}
    (h : m.Rested key cost last call.instant) (hcost : 0 < cost)
    (hcapacity : cost ≤ (m.limits key).capacity)
    (hown : ∀ c t, call = .consume key c t → c = .number cost)
    (hpace : (last.toList ++ ((call.attempt? key).toList ++ instants)).IsChain
      ((m.limits key).Regains cost)) :
    (∀ c t, call = .consume key c t → (l.consume key c t).1.allowed = true) ∧
    ∃ last', (m.after (call.standIn fun key => (m.limits key).capacity)).Rested key cost last'
        call.instant ∧
      (last'.toList ++ instants).IsChain ((m.limits key).Regains cost) := by
  cases call with
  | prune t => exact ⟨nofun, last, h.prune hcost, hpace⟩
  | consume k c t =>
    by_cases hk : k = key
    · subst hk
      obtain rfl := hown c t rfl
      have hpaced : (last.toList ++ t :: instants).IsChain ((m.limits k).Regains cost) := by
        simpa [Call.attempt?] using hpace
      have hlevel : cost ≤ m.level k t := by
        refine h.cost_le_level hcapacity fun t₀ h₀ => ?_
        obtain rfl := Option.mem_def.mp h₀
        exact (List.isChain_cons_cons.mp hpaced).1
      refine ⟨fun c' t' hcall => ?_, some t, h.attempt hcost hcapacity hlevel, ?_⟩
      · cases hcall
        rw [(hm.consume k (.number cost) t).1]
        show (m.consume k cost t).1.allowed = true
        rw [allowed_consume, isCost_of_pos hcost, covers_of_le_level hlevel]
        rfl
      · exact hpaced.right_of_append
    · have hpaced : (last.toList ++ instants).IsChain ((m.limits key).Regains cost) := by
        simpa [Call.attempt?, hk] using hpace
      refine ⟨fun c' t' hcall => ?_, last, h.other hk _, hpaced⟩
      cases hcall
      exact absurd rfl hk

end Rested

/-- **A run at the pace**: every attempt for the key is allowed. -/
theorem Rested.allowed {l : Limiter Reading} (hm : l.Mirrors m)
    (h : m.Rested key cost last now) (hcost : 0 < cost)
    (hcapacity : cost ≤ (m.limits key).capacity) {calls : List Call}
    (hnow : ∀ call ∈ calls, now ≤ call.instant)
    (hsorted : calls.Pairwise fun a b => a.instant ≤ b.instant)
    (hown : ∀ c t, .consume key c t ∈ calls → c = .number cost)
    (hpace : (last.toList ++ calls.filterMap (Call.attempt? key)).IsChain
      ((m.limits key).Regains cost)) {earlier later : List Call} {c : Reading} {t : Int}
    (hsplit : calls = earlier ++ .consume key c t :: later) :
    ((l.runCalls earlier).consume key c t).1.allowed = true := by
  induction calls generalizing l m last now earlier with
  | nil => cases earlier <;> cases hsplit
  | cons call calls ih =>
    obtain ⟨hfirst, hrest⟩ := List.pairwise_cons.mp hsorted
    obtain ⟨hcall, hcalls⟩ := List.forall_mem_cons.mp hnow
    have hpaced : (last.toList ++ ((call.attempt? key).toList ++
        calls.filterMap (Call.attempt? key))).IsChain ((m.limits key).Regains cost) := by
      rw [List.filterMap_cons] at hpace
      cases hattempt : call.attempt? key with
      | none => rwa [hattempt] at hpace
      | some t => rwa [hattempt] at hpace
    obtain ⟨hallowed, last', hrested, hpaced'⟩ := (h.mono hcall).afterCall hm hcost hcapacity
      (fun c t heq => hown c t (heq ▸ List.mem_cons_self)) hpaced
    cases earlier with
    | nil => exact hallowed c t (List.cons.inj hsplit).1
    | cons e earlier =>
      obtain ⟨rfl, hothers⟩ := List.cons.inj hsplit
      refine ih (hm.afterCall call) hrested (by rwa [limits_after]) hfirst hrest
        (fun c t hmem => hown c t (List.mem_cons_of_mem call hmem)) ?_ hothers
      rwa [limits_after]

/-- **A sender that keeps to the rate is never refused.** Take a limiter that has seen nothing yet,
and calls at instants in order. Let all attempts for one key have the same cost, which is above zero
and at most the capacity of the key, and let the cost flow in from each of them to the next. Then
every attempt for the key is allowed, whatever the other calls are. -/
theorem allowed_of_steady (client identity : Limits Rat) (key : Key) (cost : Rat)
    (calls : List Call) (hcost : 0 < cost)
    (hcapacity : cost ≤ ((fresh client identity).limits key).capacity)
    (hsorted : calls.Pairwise fun a b => a.instant ≤ b.instant)
    (hown : ∀ c t, .consume key c t ∈ calls → c = .number cost)
    (hpace : (calls.filterMap (Call.attempt? key)).IsChain
      (((fresh client identity).limits key).Regains cost)) :
    ∀ earlier c t later, calls = earlier ++ .consume key c t :: later →
      (((fresh (client.map .number) (identity.map .number)).runCalls earlier).consume key c
        t).1.allowed = true := by
  intro earlier c t later hsplit
  cases calls with
  | nil => cases earlier <;> cases hsplit
  | cons call calls =>
    have hnow : ∀ o ∈ call :: calls, call.instant ≤ o.instant := by
      intro o ho
      rcases List.mem_cons.mp ho with rfl | ho
      · exact le_refl _
      · exact (List.pairwise_cons.mp hsorted).1 o ho
    exact (rested_fresh client identity key cost call.instant).allowed
      (mirrors_fresh client identity) hcost hcapacity hnow hsorted hown hpace hsplit

/-- The first attempt empties the bucket, and the second comes when just its cost has flowed in;
what is no number is asked for by somebody else, and the bucket is dropped in between. -/
theorem allowed_of_steady_emptied :
    let limits : Limits Rat := ⟨2, 4⟩
    let key := Key.identity "alice"
    let calls := [Call.consume key (.number 2) 0, .consume (.identity "bob") .notANumber 0,
      .prune 250000000, .consume key (.number 2) 500000000, .prune 1500000000,
      .consume (.identity "bob") (.infinite true) 1500000000, .consume key (.number 2) 1500000000]
    let l := fresh (limits.map .number) (limits.map .number)
    calls.Pairwise (fun a b => a.instant ≤ b.instant) ∧
    (calls.filterMap (Call.attempt? key)).IsChain (limits.Regains 2) ∧
    ((l.runCalls (calls.take 4)).buckets.find? key).map (·.tokens) = some (.number 0) ∧
    ((l.runCalls (calls.take 5)).buckets.find? key).isNone ∧
    ((l.runCalls (calls.take 3)).consume key (.number 2) 500000000).1.allowed = true ∧
    ((l.runCalls (calls.take 6)).consume key (.number 2) 1500000000).1.allowed = true := by
  intro limits key calls l
  have hsorted : calls.Pairwise (fun a b => a.instant ≤ b.instant) := by decide
  have hown : ∀ c t, .consume key c t ∈ calls → c = .number 2 := by
    intro c t h
    grind
  have hpace : (calls.filterMap (Call.attempt? key)).IsChain (limits.Regains 2) := by
    decide +kernel
  have hallowed :=
    allowed_of_steady limits limits key 2 calls (by decide) (by decide) hsorted hown hpace
  exact ⟨hsorted, hpace, by decide +kernel, by decide +kernel, hallowed (calls.take 3) _ _ _ rfl,
    hallowed (calls.take 6) _ _ _ rfl⟩

end Limiter

end MailScreen.RateLimit
