import MailScreen.Dns.Zone
import MailScreen.Proofs.Dns.Inquiry
import MailScreen.Proofs.Spf.LookupBound
import MailScreen.Proofs.Spf.SideBySide

/-!
# Qualifiers that withhold a pass

Two zones with the same policies, but that `-`, `~` and `?` are exchanged for one another in some of
them, let the same clients pass, and a check asks both of them for the same.

* `Similar` relates two computations that end in the same state wherever they begin, with results
  that are related. It is kept by going on with something similar (`Similar.bind`).
* An included policy only says whether the client passes, so its mechanism means the same
  (`similar_isMatch`). What matches first is then the same directive (`similar_firstMatch`); its
  outcome, or that of a redirect, may be another one that withholds a pass
  (`similar_evaluateRecord`).
* `check_exchanged` is the result for a whole check.
-/

namespace MailScreen.Spf

open Dns (Query Response Session)

variable {α β α' β' : Type} {R : α → β → Prop} {R' : α' → β' → Prop}

/-! ## Two computations side by side -/

/-- Two computations come to the same state from each state, and their results are related. -/
def Similar (R : α → β → Prop) (x : State → α × State) (y : State → β × State) : Prop :=
  ∀ s, R (x s).1 (y s).1 ∧ (x s).2 = (y s).2

/-- Two evaluations go on with related values, or end with the same outcome. -/
abbrev SimilarEval (R : α → β → Prop) (x : Eval α) (y : Eval β) : Prop :=
  Similar (Paired Eq R) x y

theorem similar_iff {x : State → α × State} {y : State → β × State} :
    Similar R x y ↔ Coupled Eq R x y :=
  ⟨fun h s _ hs => hs ▸ h s, fun h s => h s s rfl⟩

theorem similar_self (x : Eval α) : SimilarEval Eq x x :=
  fun s => ⟨paired_refl (fun _ => rfl) (fun _ => rfl) (x s).1, rfl⟩

theorem similar_pure {a : α} {b : β} (h : R a b) : SimilarEval R (pure a) (pure b) :=
  similar_iff.mpr (coupled_pure h)

theorem similar_throw (o : Outcome) : SimilarEval R (throw o) (throw o) :=
  similar_iff.mpr (coupled_throw o)

theorem Similar.bind {x : Eval α} {y : Eval β} {f : α → Eval α'} {g : β → Eval β'}
    (hxy : SimilarEval R x y) (hfg : ∀ a b, R a b → SimilarEval R' (f a) (g b)) :
    SimilarEval R' (x >>= f) (y >>= g) :=
  similar_iff.mpr ((similar_iff.mp hxy).bind fun a b hab => similar_iff.mp (hfg a b hab))

/-- What both do first may be the same. -/
theorem Similar.after (x : Eval α) {f : α → Eval α'} {g : α → Eval β'}
    (hfg : ∀ a, SimilarEval R' (f a) (g a)) : SimilarEval R' (x >>= f) (x >>= g) :=
  (similar_self x).bind fun a _ hab => hab ▸ hfg a

theorem Similar.lift {x : StateM State α} {y : StateM State β} (h : Similar R x y) :
    SimilarEval R (liftM x) (liftM y) :=
  similar_iff.mpr (similar_iff.mp h).lift

theorem Similar.outcome {x y : Eval Outcome} (h : SimilarEval Outcome.Alike x y) :
    Similar Outcome.Alike (Check.outcome x) (Check.outcome y) :=
  similar_iff.mpr ((similar_iff.mp h).outcome Outcome.Alike.refl)

theorem Similar.within {x y : StateM State Outcome} (h : Similar Outcome.Alike x y)
    (domain : String) : Similar Outcome.Alike (Check.within domain x) (Check.within domain y) :=
  have hchains : KeepsChains Eq := fun _ _ _ hs => hs ▸ rfl
  similar_iff.mpr ((similar_iff.mp h).within hchains domain)

/-! ## The same answers, but for what is exchanged -/

/-- Two responses with the same texts, but for what is exchanged, at the same time; or with the same
error. -/
structure ResponseExchanged (a b : Response (List String)) : Prop where
  delay : a.delay = b.delay
  answer : Paired Eq (List.Forall₂ TextExchanged) a.answer b.answer

/-- The same check, where texts are looked up in another way. -/
def Check.reading (c : Check) (txt : List Query → String → Response (List String)) : Check :=
  { c with resolver := { c.resolver with txt } }

theorem await_exchanged {a b : Response (List String)} (h : ResponseExchanged a b)
    (ctx : Dns.Context) (now : Int) :
    Paired Eq (List.Forall₂ TextExchanged) (ctx.await now a).1 (ctx.await now b).1 ∧
      (ctx.await now a).2 = (ctx.await now b).2 :=
  ctx.await_related (fun _ => .error rfl) h.delay h.answer now

theorem answer_paired {R : α → β → Prop} {a : Except Dns.LookupError (List α)}
    {b : Except Dns.LookupError (List β)} (h : Paired Eq (List.Forall₂ R) a b) :
    Paired Eq (List.Forall₂ R) (Check.answer a) (Check.answer b) := by
  cases h with
  | ok hvalues => exact .ok hvalues
  | @error e e' he =>
    subst he
    cases e with
    | notFound => exact .ok .nil
    | timeout => exact .error rfl
    | cancelled => exact .error rfl
    | failure what => exact .error rfl

variable {c : Check} {txt : List Query → String → Response (List String)}

/-- The other way to look up texts gives the same but for what is exchanged. -/
def Check.TextsExchanged (c : Check) (txt : List Query → String → Response (List String)) : Prop :=
  ∀ earlier name, ResponseExchanged (c.resolver.txt earlier name) (txt earlier name)

theorem similar_texts (htxt : c.TextsExchanged txt) (domain : String) :
    SimilarEval (List.Forall₂ TextExchanged) (Check.lookup (c.context.txt c.resolver domain))
      (Check.lookup (c.context.txt (c.reading txt).resolver domain)) := by
  intro s
  unfold Check.lookup Dns.Context.txt Dns.Context.resolve
  by_cases h : c.context.isCancelled s.session.now = true
  · simp only [if_pos h]
    exact ⟨.error rfl, trivial⟩
  · simp only [if_neg h]
    obtain ⟨hanswer, hnow⟩ :=
      await_exchanged (htxt s.session.history domain) c.context s.session.now
    refine ⟨answer_paired hanswer, ?_⟩
    rw [hnow]
    rfl

/-- The one policy of a domain is the same but for what is exchanged. -/
theorem similar_policyText (htxt : c.TextsExchanged txt) (domain : String) :
    SimilarEval (Option.Rel TextExchanged) (c.policyText domain)
      ((c.reading txt).policyText domain) := by
  refine Similar.bind (similar_texts htxt domain) fun texts texts' htexts => ?_
  have hpolicies : List.Forall₂ TextExchanged (texts.filter isRecord) (texts'.filter isRecord) :=
    List.rel_filter (fun _ _ h => by simp only [isRecord_exchanged h]) htexts
  revert hpolicies
  generalize texts.filter isRecord = policies
  generalize texts'.filter isRecord = policies'
  intro hpolicies
  cases hpolicies with
  | nil => exact similar_pure .none
  | cons htext hrest =>
    cases hrest with
    | nil => exact similar_pure (.some htext)
    | cons => exact similar_throw .permError

/-! ## Policies -/

/-- **An included policy only says whether the client passes.** -/
theorem includeMatch_alike {o o' : Outcome} (h : o.Alike o') :
    Check.includeMatch o = Check.includeMatch o' := by
  have hwithheld {o : Outcome} (ho : o.withholds = true) : Check.includeMatch o = pure false := by
    cases o with
    | fail => rfl
    | softFail => rfl
    | neutral => rfl
    | _ => cases ho
  rcases h with rfl | ⟨ho, ho'⟩
  · rfl
  · rw [hwithheld ho, hwithheld ho']

theorem redirectOutcome_alike {o o' : Outcome} (h : o.Alike o') :
    (Check.redirectOutcome o).Alike (Check.redirectOutcome o') := by
  have hwithheld {o : Outcome} (ho : o.withholds = true) : Check.redirectOutcome o = o := by
    cases o with
    | none => cases ho
    | _ => rfl
  rcases h with rfl | ⟨ho, ho'⟩
  · exact .refl _
  · rw [hwithheld ho, hwithheld ho']
    exact Or.inr ⟨ho, ho'⟩

theorem anyHostNear_reading (lengths : Lengths) (hosts : List Dns.Exchange) :
    (c.reading txt).anyHostNear lengths hosts = c.anyHostNear lengths hosts := by
  induction hosts with
  | nil => rfl
  | cons x hosts ih =>
    unfold Check.anyHostNear
    rw [ih]
    rfl

section Recursion

variable {recur recur' : String → StateM State Outcome}
  (hrecur : ∀ d, Similar Outcome.Alike (recur d) (recur' d))

include hrecur

/-- **A mechanism means the same** if the other policies that it may include are alike. -/
theorem similar_isMatch (domain : String) (m : Mechanism) :
    SimilarEval Eq (c.isMatch recur domain m) ((c.reading txt).isMatch recur' domain m) := by
  cases m with
  | all => exact similar_self _
  | ip4 net => exact similar_self (pure (net.contains c.client))
  | ip6 net => exact similar_self (pure (net.contains c.client))
  | pointer spec => exact similar_self (c.isMatch recur domain (.pointer spec))
  | existing spec => exact similar_self (c.isMatch recur domain (.existing spec))
  | address spec lengths => exact similar_self (c.isMatch recur domain (.address spec lengths))
  | exchange spec lengths =>
    have hsame : (c.reading txt).isMatch recur' domain (.exchange spec lengths) =
        c.isMatch recur domain (.exchange spec lengths) := by
      unfold Check.isMatch
      simp only [anyHostNear_reading]
      rfl
    rw [hsame]
    exact similar_self _
  | included spec =>
    refine Similar.after c.count fun _ => Similar.after (c.expand domain spec) fun name => ?_
    refine Similar.bind (hrecur name).lift fun o o' ho => ?_
    rw [includeMatch_alike ho]
    exact similar_self _

/-- What matches first is the same directive, of which the qualifiers are alike. -/
theorem similar_firstMatch (domain : String) {ds ds' : List Directive}
    (hds : List.Forall₂ Directive.Alike ds ds') :
    SimilarEval (Option.Rel fun q q' : Qualifier => q.outcome.Alike q'.outcome)
      (c.firstMatch recur domain ds) ((c.reading txt).firstMatch recur' domain ds') := by
  induction hds with
  | nil => exact similar_pure .none
  | @cons d d' ds ds' hd _ ih =>
    unfold Check.firstMatch
    rw [← hd.mechanism]
    refine Similar.bind (similar_isMatch hrecur domain d.mechanism) fun found found' hfound => ?_
    obtain rfl := hfound
    cases found with
    | true => exact similar_pure (.some hd.outcome)
    | false => exact ih

theorem similar_evaluateRecord (domain : String) {record record' : Record}
    (hrecord : record.Alike record') :
    SimilarEval Outcome.Alike (c.evaluateRecord recur domain record)
      ((c.reading txt).evaluateRecord recur' domain record') := by
  unfold Check.evaluateRecord
  refine Similar.bind (similar_firstMatch hrecur domain hrecord.directives)
    fun found found' hfound => ?_
  cases hfound with
  | some hq => exact similar_pure hq
  | none =>
    rw [← hrecord.redirect]
    cases record.redirect with
    | none => exact similar_pure (.refl _)
    | some spec =>
      refine Similar.after c.count fun _ => Similar.after (c.expand domain spec) fun name => ?_
      exact Similar.bind (hrecur name).lift fun o o' ho => similar_pure (redirectOutcome_alike ho)

theorem similar_evaluateRead (domain : String) {read read' : Except Fault Record}
    (hread : Paired anyFault Record.Alike read read') :
    SimilarEval Outcome.Alike (c.evaluateRead recur domain read)
      ((c.reading txt).evaluateRead recur' domain read') := by
  cases hread with
  | error => exact similar_throw .permError
  | ok hrecord => exact ((similar_evaluateRecord hrecur domain hrecord).outcome.within domain).lift

theorem similar_evaluatePolicy (htxt : c.TextsExchanged txt) (domain : String) :
    SimilarEval Outcome.Alike (c.evaluatePolicy recur domain)
      ((c.reading txt).evaluatePolicy recur' domain) := by
  refine Similar.bind (similar_policyText htxt domain) fun text text' htext => ?_
  cases htext with
  | none => exact similar_pure (.refl _)
  | some htext => exact similar_evaluateRead hrecur domain (ofText_exchanged htext)

theorem similar_evaluateDomain (htxt : c.TextsExchanged txt) (domain : String) :
    SimilarEval Outcome.Alike (c.evaluateDomain recur domain)
      ((c.reading txt).evaluateDomain recur' domain) := by
  intro s
  rw [evaluateDomain_apply, evaluateDomain_apply]
  by_cases h : s.chain.contains domain = true
  · rw [if_pos h, if_pos h]
    exact ⟨.error rfl, rfl⟩
  · rw [if_neg h, if_neg h]
    exact similar_evaluatePolicy hrecur htxt domain s

end Recursion

/-- **An evaluation** does the same at any depth, and comes to an outcome that is alike. -/
theorem similar_evaluate (htxt : c.TextsExchanged txt) (depth : Nat) (domain : String) :
    Similar Outcome.Alike (c.evaluate depth domain) ((c.reading txt).evaluate depth domain) := by
  induction depth generalizing domain with
  | zero => exact fun _ => ⟨.refl _, rfl⟩
  | succ depth ih => exact (similar_evaluateDomain ih htxt domain).outcome

/-! ## Zones -/

/-- Two zones with the same records, but for what is exchanged in policies. -/
structure ZoneExchanged (z z' : Dns.Zone) : Prop where
  texts : List.Forall₂ (fun a b => a.1 = b.1 ∧ TextExchanged a.2 b.2) z.texts z'.texts
  addresses : z.addresses = z'.addresses
  exchanges : z.exchanges = z'.exchanges
  faults : z.faults = z'.faults
  delay : z.delay = z'.delay

variable {z z' : Dns.Zone}

theorem ZoneExchanged.answer (h : ZoneExchanged z z') (name : String) :
    Paired Eq (List.Forall₂ TextExchanged) (z.answer z.texts name) (z'.answer z'.texts name) :=
  Dns.Zone.answer_related (fun _ => .error rfl) (fun _ _ => .ok) h.faults h.texts name

/-- The zones are told apart by their texts alone. -/
theorem ZoneExchanged.resolver_eq (h : ZoneExchanged z z') :
    z'.resolver = { z.resolver with txt := z'.resolver.txt } := by
  unfold Dns.Zone.resolver Dns.Zone.answer
  rw [h.addresses, h.exchanges, h.faults, h.delay]

/-- **Which qualifiers withhold a pass makes no difference to who passes.** With two zones that are
the same but that `-`, `~` and `?` are exchanged for one another in policies, a check starts the
same lookups in the same order and ends at the same instant; and it comes to the same outcome, or to
two of those that these qualifiers stand for. -/
theorem check_exchanged (h : ZoneExchanged z z') (ctx : Dns.Context) (limit : Nat)
    (client : Ip.Address) (domain sender helo : String) (session : Session) :
    let checked := check z.resolver ctx limit client domain sender helo session
    let checked' := check z'.resolver ctx limit client domain sender helo session
    checked.2 = checked'.2 ∧ checked.1.Alike checked'.1 := by
  let c := Check.ofArguments z.resolver ctx limit client domain sender helo
  have htxt : c.TextsExchanged z'.resolver.txt := fun _ name => ⟨h.delay, h.answer name⟩
  obtain ⟨halike, hstate⟩ :=
    similar_evaluate htxt (limit + 1) (DomainName.normalize domain) ⟨session, 0, []⟩
  intro checked checked'
  have hchecked' :
      checked' = (c.reading z'.resolver.txt).run (DomainName.normalize domain) session := by
    show check z'.resolver ctx limit client domain sender helo session = _
    rw [h.resolver_eq]
    rfl
  rw [hchecked']
  exact ⟨congrArg State.session hstate, halike⟩

theorem check_exchanged_redirect :
    let zone (b c : String) : Dns.Zone :=
      ((Dns.Zone.empty.addText "a.com" "v=spf1 include:b.com redirect=c.com").addText "b.com"
        b).addText "c.com" c
    let z := zone "v=spf1 -all" "v=spf1 a ~all"
    let z' := zone "v=spf1 ?all" "v=spf1 a -all"
    let checked := check z.resolver ⟨0, none⟩ 10 (.v4 0xCB007105) "a.com" "u@a.com" "" ⟨0, []⟩
    let checked' := check z'.resolver ⟨0, none⟩ 10 (.v4 0xCB007105) "a.com" "u@a.com" "" ⟨0, []⟩
    ZoneExchanged z z' ∧ checked.1 = .softFail ∧ checked'.1 = .fail ∧
      checked.2.queries = [.txt "a.com", .txt "b.com", .txt "c.com", .ip "c.com"] ∧
      checked.2 = checked'.2 ∧ checked.1.Alike checked'.1 := by
  intro zone z z' checked checked'
  have hzones : ZoneExchanged z z' := ⟨by decide +kernel, rfl, rfl, rfl, rfl⟩
  have houtcomes : checked.1 = .softFail ∧ checked'.1 = .fail ∧
      checked.2.queries = [.txt "a.com", .txt "b.com", .txt "c.com", .ip "c.com"] := by
    decide +kernel
  exact ⟨hzones, houtcomes.1, houtcomes.2.1, houtcomes.2.2,
    check_exchanged hzones ⟨0, none⟩ 10 (.v4 0xCB007105) "a.com" "u@a.com" "" ⟨0, []⟩⟩

end MailScreen.Spf
