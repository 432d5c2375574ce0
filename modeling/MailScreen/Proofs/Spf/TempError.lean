import MailScreen.Proofs.Dns.Inquiry
import MailScreen.Proofs.Spf.LookupBound
import Mathlib.Tactic.Choose

/-!
# Temporary errors

A check comes to a temporary error if and only if a lookup failed for now, at whatever depth of
includes and redirects that was; and then that lookup was the last one.

* `Plan` is an inquiry that also keeps the count of terms and the chain of domains. `GivesUp` says
  that a part of an evaluation follows such a plan, with any resolver in any context, and that the
  plan gives up at the first lookup that fails for now.
* `givesUp_isMatch`, `givesUp_evaluateRecord`, `givesUp_evaluate` go through the evaluation: the
  outcome of an included policy and of one that is redirected to is a temporary error only if it is
  handed on as one.
* `tempError_iff_transient` is the result, on the log of the inquiry that a check follows.
-/

namespace MailScreen.Spf

open Dns (Inquiry Resolver Context)

variable {α β γ : Type}

/-- The same check with another resolver, in another context. -/
def Check.under (c : Check) (r : Resolver) (ctx : Context) : Check :=
  { c with resolver := r, context := ctx }

/-- What a part of an evaluation comes to, beside what becomes of the session. -/
structure Reached (β : Type) where
  result : β
  counted : Nat
  chain : List String

/-- An inquiry for each count and each chain to begin with. -/
def Plan (β : Type) : Type :=
  Nat → List String → Inquiry (Reached β)

namespace Plan

/-- Follows the plan. -/
def run (p : Plan β) (r : Resolver) (ctx : Context) : State → β × State := fun s =>
  let a := (p s.counted s.chain).run ctx r s.session
  (a.1.result, ⟨a.2, a.1.counted, a.1.chain⟩)

/-- The plan with another end. -/
def map (g : Reached β → Reached γ) (p : Plan β) : Plan γ :=
  fun counted chain => (p counted chain).bind fun b => .done (g b)

/-- How a plan goes on with another one, unless its result ends the evaluation. -/
def next (q : α → Plan (Except Outcome β)) (a : Reached (Except Outcome α)) :
    Inquiry (Reached (Except Outcome β)) :=
  match a.result with
  | .ok b => q b a.counted a.chain
  | .error o => .done ⟨.error o, a.counted, a.chain⟩

/-- The plan that goes on with another one. -/
def andThen (p : Plan (Except Outcome α)) (q : α → Plan (Except Outcome β)) :
    Plan (Except Outcome β) :=
  fun counted chain => (p counted chain).bind (next q)

theorem run_map (g : Reached β → Reached γ) (p : Plan β) (r : Resolver) (ctx : Context)
    (s : State) : (p.map g).run r ctx s =
      let a := p.run r ctx s
      let b := g ⟨a.1, a.2.counted, a.2.chain⟩
      (b.result, ⟨a.2.session, b.counted, b.chain⟩) := by
  unfold run map
  rw [Inquiry.run_bind]
  rfl

theorem run_andThen (p : Plan (Except Outcome α)) (q : α → Plan (Except Outcome β)) (r : Resolver)
    (ctx : Context) :
    (p.andThen q).run r ctx = (p.run r ctx >>= fun a => (q a).run r ctx : Eval β) := by
  funext s
  rcases hp : (p s.counted s.chain).run ctx r s.session with ⟨⟨a, counted, chain⟩, session⟩
  have hrun : p.run r ctx s = (a, ⟨session, counted, chain⟩) := by rw [run, hp]
  unfold run andThen
  rw [Inquiry.run_bind, hp]
  cases a with
  | ok a => exact (bind_of_ok hrun fun a => (q a).run r ctx).symm
  | error o => exact (bind_of_error hrun fun a => (q a).run r ctx).symm

end Plan

/-! ## Evaluations that give up -/

/-- Whether an evaluation is to end as a lookup failed for now: by itself, or by a result that is
handed on. -/
def HasFailed (kind : α → Prop) : Except Outcome α → Prop
  | .ok a => kind a
  | .error o => o = .tempError

/-- A kind of results that there are none of. -/
def never (_ : α) : Prop := False

theorem not_never {a : α} : ¬ never a := id

/-- A computation follows a plan with any resolver in any context, and it **gives up** at the first
lookup that fails for now, with a result of a certain kind. -/
def GivesUp (kind : β → Prop) (x : Resolver → Context → State → β × State) : Prop :=
  ∃ p : Plan β, (∀ counted chain, (p counted chain).GivesUp fun b => kind b.result) ∧
    ∀ r ctx s, x r ctx s = p.run r ctx s

/-- What makes no lookup need not give up. -/
theorem givesUp_of_done {kind : β → Prop} {x : Resolver → Context → State → β × State}
    (f : Nat → List String → Reached β)
    (hx : ∀ r ctx s, x r ctx s = ((f s.counted s.chain).result,
      ⟨s.session, (f s.counted s.chain).counted, (f s.counted s.chain).chain⟩))
    (hkind : ∀ counted chain, ¬ kind (f counted chain).result) : GivesUp kind x :=
  ⟨fun counted chain => .done (f counted chain), fun counted chain => .done (hkind counted chain),
    hx⟩

variable {kind : α → Prop} {kind' : β → Prop}

theorem givesUp_pure {a : α} (h : ¬ kind a) :
    GivesUp (HasFailed kind) fun _ _ => (pure a : Eval α) :=
  givesUp_of_done (fun counted chain => ⟨.ok a, counted, chain⟩) (fun _ _ _ => rfl) fun _ _ => h

theorem givesUp_throw : GivesUp (HasFailed kind) fun _ _ => (throw .permError : Eval α) :=
  givesUp_of_done (fun counted chain => ⟨.error .permError, counted, chain⟩) (fun _ _ _ => rfl)
    fun _ _ => Outcome.noConfusion

/-- An evaluation that goes on must hand on at once that a lookup failed for now. -/
theorem GivesUp.bind {x : Resolver → Context → Eval α} {f : Resolver → Context → α → Eval β}
    (hx : GivesUp (HasFailed kind) x)
    (hends : ∀ a, kind a → ∃ b, HasFailed kind' b ∧ ∀ r ctx s, f r ctx a s = (b, s))
    (hgoesOn : ∀ a, ¬ kind a → GivesUp (HasFailed kind') fun r ctx => f r ctx a) :
    GivesUp (HasFailed kind') fun r ctx => x r ctx >>= f r ctx := by
  obtain ⟨p, hp, hxp⟩ := hx
  have hplan (a : α) : ∃ q : Plan (Except Outcome β), (∀ r ctx s, f r ctx a s = q.run r ctx s) ∧
      (kind a → ∃ b, HasFailed kind' b ∧ ∀ counted chain,
        q counted chain = .done ⟨b, counted, chain⟩) ∧
      (¬ kind a → ∀ counted chain,
        (q counted chain).GivesUp fun b => HasFailed kind' b.result) := by
    by_cases ha : kind a
    · obtain ⟨b, hb, hf⟩ := hends a ha
      exact ⟨fun counted chain => .done ⟨b, counted, chain⟩, hf, fun _ => ⟨b, hb, fun _ _ => rfl⟩,
        fun hna => absurd ha hna⟩
    · obtain ⟨q, hq, hf⟩ := hgoesOn a ha
      exact ⟨q, hf, fun hka => absurd hka ha, fun _ => hq⟩
  choose q hf hends' hgoesOn' using hplan
  refine ⟨p.andThen q, fun counted chain => ?_, fun r ctx s => ?_⟩
  · apply (hp counted chain).bind
    · rintro ⟨a | a, counted', chain'⟩ hfailed
      · exact ⟨⟨.error a, counted', chain'⟩, hfailed, rfl⟩
      · obtain ⟨b, hb, hq⟩ := hends' a hfailed
        exact ⟨_, hb, hq counted' chain'⟩
    · rintro ⟨a | a, counted', chain'⟩ hfailed
      · exact .done hfailed
      · exact hgoesOn' a hfailed counted' chain'
  · have hxr : x r ctx = p.run r ctx := funext (hxp r ctx)
    have hfr : f r ctx = fun a => (q a).run r ctx := funext fun a => funext (hf a r ctx)
    show (x r ctx >>= f r ctx) s = _
    rw [Plan.run_andThen, hxr, hfr]

/-- An evaluation that goes on after results that say nothing of failed lookups. -/
theorem GivesUp.andThen {x : Resolver → Context → Eval α} {f : Resolver → Context → α → Eval β}
    (hx : GivesUp (HasFailed never) x)
    (hf : ∀ a, GivesUp (HasFailed kind') fun r ctx => f r ctx a) :
    GivesUp (HasFailed kind') fun r ctx => x r ctx >>= f r ctx :=
  hx.bind (fun _ hnever => hnever.elim) fun a _ => hf a

theorem GivesUp.ite (b : Prop) [Decidable b] {x y : Resolver → Context → Eval α}
    (hx : GivesUp (HasFailed kind) x) (hy : GivesUp (HasFailed kind) y) :
    GivesUp (HasFailed kind) fun r ctx => if b then x r ctx else y r ctx := by
  by_cases hb : b
  · simpa only [if_pos hb] using hx
  · simpa only [if_neg hb] using hy

/-- A result may be taken for another one that says the same. -/
theorem GivesUp.map {x : Resolver → Context → State → α × State} (hx : GivesUp kind x) (g : α → β)
    (hg : ∀ a, kind' (g a) ↔ kind a) :
    GivesUp kind' fun r ctx s => (g (x r ctx s).1, (x r ctx s).2) := by
  obtain ⟨p, hp, hxp⟩ := hx
  refine ⟨p.map fun b => ⟨g b.result, b.counted, b.chain⟩, fun counted chain => ?_,
    fun r ctx s => ?_⟩
  · apply (hp counted chain).bind
    · exact fun b hb => ⟨_, (hg b.result).mpr hb, rfl⟩
    · exact fun b hb => .done fun hgb => hb ((hg b.result).mp hgb)
  · rw [Plan.run_map, ← hxp]

theorem GivesUp.lift {x : Resolver → Context → StateM State α} (hx : GivesUp kind x) :
    GivesUp (HasFailed kind) fun r ctx => (liftM (x r ctx) : Eval α) :=
  hx.map Except.ok fun _ => Iff.rfl

theorem GivesUp.outcome {x : Resolver → Context → Eval Outcome}
    (hx : GivesUp (HasFailed (· = .tempError)) x) :
    GivesUp (· = .tempError) fun r ctx => Check.outcome (x r ctx) := by
  have hkind (a : Except Outcome Outcome) :
      outcomeOf a = .tempError ↔ HasFailed (· = .tempError) a := by
    cases a <;> exact Iff.rfl
  have houtcome (r : Resolver) (ctx : Context) : Check.outcome (x r ctx) =
      fun s => (outcomeOf (x r ctx s).1, (x r ctx s).2) := funext (outcome_apply (x r ctx))
  simp only [houtcome]
  exact hx.map outcomeOf hkind

theorem GivesUp.within {x : Resolver → Context → StateM State Outcome} {kind : Outcome → Prop}
    (hx : GivesUp kind x) (domain : String) :
    GivesUp kind fun r ctx => Check.within domain (x r ctx) := by
  obtain ⟨p, hp, hxp⟩ := hx
  let entered : Plan Outcome := fun counted chain => p counted (domain :: chain)
  refine ⟨entered.map fun b => ⟨b.result, b.counted, b.chain.tail⟩, fun counted chain => ?_,
    fun r ctx s => ?_⟩
  · apply (hp counted (domain :: chain)).bind
    · exact fun b hb => ⟨⟨b.result, b.counted, b.chain.tail⟩, hb, rfl⟩
    · exact fun b hb => .done hb
  · show Check.within domain (x r ctx) s = _
    rw [Plan.run_map, within_apply, hxp]
    rfl

/-! ## The parts of an evaluation -/

variable (c : Check)

theorem givesUp_count : GivesUp (HasFailed never) fun r ctx => (c.under r ctx).count := by
  refine givesUp_of_done (fun counted chain =>
    ⟨if counted < c.limit then .ok () else .error .permError, counted + 1, chain⟩)
    (fun r ctx s => ?_) fun counted chain => ?_
  · by_cases h : s.counted < c.limit
    · rw [count_of_lt_limit (c := c.under r ctx) h, if_pos h]
    · rw [count_of_limit_le (c := c.under r ctx) (Nat.le_of_not_lt h), if_neg h]
  · split
    · exact id
    · exact Outcome.noConfusion

theorem givesUp_expand (domain spec : String) :
    GivesUp (HasFailed never) fun r ctx => (c.under r ctx).expand domain spec := by
  show GivesUp _ fun _ _ => c.expand domain spec
  unfold Check.expand
  split
  · exact givesUp_pure not_never
  · exact givesUp_throw

theorem givesUp_target (domain : String) (spec : Option String) :
    GivesUp (HasFailed never) fun r ctx => (c.under r ctx).target domain spec := by
  cases spec with
  | none => exact givesUp_pure not_never
  | some spec => exact givesUp_expand c domain spec

/-- A lookup of which an error other than that there are no records ends the evaluation. -/
theorem givesUp_look (q : Dns.Query)
    (g : Except Dns.LookupError q.Records → Except Outcome α)
    (hg : ∀ answer, HasFailed never (g answer) ↔ Dns.isTransientError answer = true) :
    GivesUp (HasFailed never) fun r ctx s =>
      (g (ctx.look r q s.session).1, { s with session := (ctx.look r q s.session).2 }) := by
  refine ⟨fun counted chain => .ask q fun answer => .done ⟨g answer, counted, chain⟩,
    fun counted chain => .ask (fun answer hanswer => ?_) fun answer hanswer => ?_,
    fun r ctx s => rfl⟩
  · exact ⟨_, (hg answer).mpr hanswer, rfl⟩
  · refine .done fun hfailed => ?_
    rw [(hg answer).mp hfailed] at hanswer
    cases hanswer

theorem hasFailed_answer (answer : Except Dns.LookupError (List α)) :
    HasFailed never (Check.answer answer) ↔ Dns.isTransientError answer = true := by
  rcases answer with (_ | _ | _ | _) | values
  · exact iff_of_false id Bool.false_ne_true
  · exact iff_of_true rfl rfl
  · exact iff_of_true rfl rfl
  · exact iff_of_true rfl rfl
  · exact iff_of_false id Bool.false_ne_true

theorem givesUp_addresses (name : String) :
    GivesUp (HasFailed never) fun r ctx => (c.under r ctx).addresses name :=
  givesUp_look (.ip name) Check.answer hasFailed_answer

theorem givesUp_exchanges (name : String) :
    GivesUp (HasFailed never) fun r ctx => (c.under r ctx).exchanges name :=
  givesUp_look (.mx name) Check.answer hasFailed_answer

theorem givesUp_policyText (domain : String) :
    GivesUp (HasFailed never) fun r ctx => (c.under r ctx).policyText domain := by
  unfold Check.policyText
  refine GivesUp.andThen (givesUp_look (.txt domain) Check.answer hasFailed_answer) fun texts => ?_
  split
  · exact givesUp_pure not_never
  · exact givesUp_pure not_never
  · exact givesUp_throw

theorem givesUp_anyHostNear (lengths : Lengths) (hosts : List Dns.Exchange) :
    GivesUp (HasFailed never) fun r ctx => (c.under r ctx).anyHostNear lengths hosts := by
  induction hosts with
  | nil => exact givesUp_pure not_never
  | cons x hosts ih =>
    refine GivesUp.andThen (givesUp_addresses c x.host) fun found => ?_
    exact GivesUp.ite (found.any (Check.isNear c.client lengths) = true) (givesUp_pure not_never) ih

theorem givesUp_addressesOf {name : Resolver → Context → Eval String}
    (hname : GivesUp (HasFailed never) name) (f : List Ip.Address → Bool) :
    GivesUp (HasFailed never) fun r ctx => (do
      let name ← name r ctx
      let found ← (c.under r ctx).addresses name
      return f found : Eval Bool) :=
  hname.andThen fun name => (givesUp_addresses c name).andThen fun _ => givesUp_pure not_never

/-- The evaluation of another domain in the place of a name. What is made of its outcome must be a
temporary error if the outcome is, and only then. -/
theorem givesUp_recur {recur : Resolver → Context → String → StateM State Outcome}
    (hrecur : ∀ d, GivesUp (· = .tempError) fun r ctx => recur r ctx d) (domain spec : String)
    {f : Outcome → Eval β}
    (htemp : ∃ b, HasFailed kind' b ∧ ∀ s, f .tempError s = (b, s))
    (hf : ∀ o, o ≠ .tempError → GivesUp (HasFailed kind') fun _ _ => f o) :
    GivesUp (HasFailed kind') fun r ctx => (do
      let name ← (c.under r ctx).expand domain spec
      f (← recur r ctx name) : Eval β) := by
  refine (givesUp_expand c domain spec).andThen fun name => ?_
  refine (hrecur name).lift.bind ?_ hf
  rintro _ rfl
  obtain ⟨b, hb, hs⟩ := htemp
  exact ⟨b, hb, fun _ _ => hs⟩

theorem outcome_ne_tempError (q : Qualifier) : q.outcome ≠ .tempError := by
  cases q <;> decide

section Recursion

variable {recur : Resolver → Context → String → StateM State Outcome}
  (hrecur : ∀ d, GivesUp (· = .tempError) fun r ctx => recur r ctx d)

include hrecur

/-- **A mechanism** ends the evaluation with a temporary error if and only if a lookup failed. -/
theorem givesUp_isMatch (domain : String) (m : Mechanism) :
    GivesUp (HasFailed never) fun r ctx => (c.under r ctx).isMatch (recur r ctx) domain m := by
  cases m with
  | all => exact givesUp_pure not_never
  | ip4 net =>
    show GivesUp _ fun _ _ => (pure (net.contains c.client) : Eval Bool)
    exact givesUp_pure not_never
  | ip6 net =>
    show GivesUp _ fun _ _ => (pure (net.contains c.client) : Eval Bool)
    exact givesUp_pure not_never
  | pointer spec => exact (givesUp_count c).andThen fun _ => givesUp_pure not_never
  | existing spec =>
    exact (givesUp_count c).andThen fun _ =>
      givesUp_addressesOf c (givesUp_expand c domain spec) fun found => ! found.isEmpty
  | address spec lengths =>
    exact (givesUp_count c).andThen fun _ =>
      givesUp_addressesOf c (givesUp_target c domain spec)
        fun found => found.any (Check.isNear c.client lengths)
  | exchange spec lengths =>
    refine (givesUp_count c).andThen fun _ => (givesUp_target c domain spec).andThen fun name =>
      (givesUp_exchanges c name).andThen fun hosts => ?_
    exact GivesUp.ite (maxExchanges < hosts.length) givesUp_throw (givesUp_anyHostNear c lengths _)
  | included spec =>
    refine (givesUp_count c).andThen fun _ => givesUp_recur c hrecur domain spec
      ⟨.error .tempError, rfl, fun _ => rfl⟩ fun o ho => ?_
    cases o with
    | pass => exact givesUp_pure not_never
    | fail => exact givesUp_pure not_never
    | softFail => exact givesUp_pure not_never
    | neutral => exact givesUp_pure not_never
    | none => exact givesUp_throw
    | permError => exact givesUp_throw
    | tempError => exact absurd rfl ho

theorem givesUp_firstMatch (domain : String) (ds : List Directive) :
    GivesUp (HasFailed never) fun r ctx => (c.under r ctx).firstMatch (recur r ctx) domain ds := by
  induction ds with
  | nil => exact givesUp_pure not_never
  | cons d ds ih =>
    refine (givesUp_isMatch c hrecur domain d.mechanism).andThen fun found => ?_
    cases found with
    | true => exact givesUp_pure not_never
    | false => exact ih

theorem givesUp_evaluateRecord (domain : String) (record : Record) :
    GivesUp (HasFailed (· = .tempError))
      fun r ctx => (c.under r ctx).evaluateRecord (recur r ctx) domain record := by
  refine (givesUp_firstMatch c hrecur domain record.directives).andThen fun found => ?_
  cases found with
  | some q => exact givesUp_pure (outcome_ne_tempError q)
  | none =>
    cases record.redirect with
    | none => exact givesUp_pure Outcome.noConfusion
    | some spec =>
      refine (givesUp_count c).andThen fun _ => givesUp_recur c hrecur domain spec
        ⟨.ok .tempError, rfl, fun _ => rfl⟩ fun o ho => ?_
      apply givesUp_pure
      cases o with
      | none => exact Outcome.noConfusion
      | _ => exact ho

theorem givesUp_evaluateRead (domain : String) (read : Except Fault Record) :
    GivesUp (HasFailed (· = .tempError))
      fun r ctx => (c.under r ctx).evaluateRead (recur r ctx) domain read := by
  cases read with
  | error fault => exact givesUp_throw
  | ok record => exact ((givesUp_evaluateRecord c hrecur domain record).outcome.within domain).lift

theorem givesUp_evaluatePolicy (domain : String) :
    GivesUp (HasFailed (· = .tempError))
      fun r ctx => (c.under r ctx).evaluatePolicy (recur r ctx) domain := by
  refine (givesUp_policyText c domain).andThen fun text => ?_
  cases text with
  | none => exact givesUp_pure Outcome.noConfusion
  | some text => exact givesUp_evaluateRead c hrecur domain (Record.ofText text)

theorem givesUp_evaluateDomain (domain : String) :
    GivesUp (HasFailed (· = .tempError))
      fun r ctx => (c.under r ctx).evaluateDomain (recur r ctx) domain := by
  obtain ⟨p, hp, hpolicy⟩ := givesUp_evaluatePolicy c hrecur domain
  let looped : Plan (Except Outcome Outcome) :=
    fun counted chain => .done ⟨.error .permError, counted, chain⟩
  refine ⟨fun counted chain => if chain.contains domain then looped counted chain
    else p counted chain, fun counted chain => ?_, fun r ctx s => ?_⟩
  · by_cases h : chain.contains domain = true
    · simp only [if_pos h]
      exact .done Outcome.noConfusion
    · simp only [if_neg h]
      exact hp counted chain
  · show (c.under r ctx).evaluateDomain (recur r ctx) domain s = _
    rw [evaluateDomain_apply]
    by_cases h : s.chain.contains domain = true
    · simp only [Plan.run, if_pos h]
      rfl
    · simp only [Plan.run, if_neg h]
      exact hpolicy r ctx s

end Recursion

/-- **An evaluation** comes to a temporary error if and only if a lookup failed, at any depth. -/
theorem givesUp_evaluate (depth : Nat) (domain : String) :
    GivesUp (· = .tempError) fun r ctx => (c.under r ctx).evaluate depth domain := by
  induction depth generalizing domain with
  | zero =>
    exact givesUp_of_done (fun counted chain => ⟨.permError, counted, chain⟩) (fun _ _ _ => rfl)
      fun _ _ => Outcome.noConfusion
  | succ depth ih => exact (givesUp_evaluateDomain c ih domain).outcome

/-! ## A whole check -/

/-- What a check does is an inquiry that gives up. -/
theorem exists_inquiry (limit : Nat) (client : Ip.Address) (domain sender helo : String) :
    ∃ p : Inquiry Outcome, p.GivesUp (· = .tempError) ∧
      ∀ r ctx, check r ctx limit client domain sender helo = p.run ctx r := by
  let c := Check.ofArguments (.unreachable "") ⟨0, none⟩ limit client domain sender helo
  obtain ⟨p, hp, hrun⟩ := givesUp_evaluate c (limit + 1) (DomainName.normalize domain)
  refine ⟨(p 0 []).bind fun a => .done a.result, ?_, fun r ctx => funext fun session => ?_⟩
  · apply (hp 0 []).bind
    · exact fun a ha => ⟨a.result, ha, rfl⟩
    · exact fun a ha => .done ha
  · have hevaluate : (c.under r ctx).evaluate (limit + 1) (DomainName.normalize domain)
        ⟨session, 0, []⟩ = p.run r ctx ⟨session, 0, []⟩ := hrun r ctx ⟨session, 0, []⟩
    have hcheck : check r ctx limit client domain sender helo session =
        ((p.run r ctx ⟨session, 0, []⟩).1, (p.run r ctx ⟨session, 0, []⟩).2.session) := by
      rw [← hevaluate]
      rfl
    rw [hcheck, Inquiry.run_bind]
    rfl

/-- **A temporary error means exactly that a lookup failed for now.** What a check does is one
inquiry, whatever the resolver, the context and the clock; there is no other one that does the same.
The outcome is a temporary error if and only if one of its lookups ended in an error other than that
there are no records, and only the last lookup may have ended so. -/
theorem tempError_iff_transient (limit : Nat) (client : Ip.Address) (domain sender helo : String) :
    ∃ p : Inquiry Outcome,
      (∀ r ctx, check r ctx limit client domain sender helo = p.run ctx r) ∧
      (∀ p' : Inquiry Outcome,
        (∀ r ctx, check r ctx limit client domain sender helo = p'.run ctx r) → p' = p) ∧
      ∀ r ctx session,
        ((check r ctx limit client domain sender helo session).1 = .tempError ↔
          ∃ a ∈ p.log ctx r session, a.isTransient = true) ∧
        ∀ a ∈ (p.log ctx r session).dropLast, a.isTransient = false := by
  obtain ⟨p, hp, hrun⟩ := exists_inquiry limit client domain sender helo
  refine ⟨p, hrun, fun p' hrun' => ?_, fun r ctx session => ⟨?_, ?_⟩⟩
  · exact Inquiry.eq_of_run_eq fun r ctx => (hrun' r ctx).symm.trans (hrun r ctx)
  · rw [hrun]
    exact hp.result_iff ctx r session
  · exact hp.not_transient ctx r session

end MailScreen.Spf
