import MailScreen.Proofs.Spf.Qualifiers

/-!
# Evaluations that follow one another

Of two checks the second may have less to spend than the first, so that it may exceed the limit
where the first does not. It follows the first one if it does the same until then.

* `Follows` is this relation between two computations: from related states the second is lost, or
  both come to related states with related results. It is kept by going on with something that
  follows (`Follows.bind`), by taking the outcome and by putting a domain on the chain.
* `Leads` is what it takes of two checks: what they count and look up follows. Then so do their
  mechanisms (`Leads.isMatch`), policies (`Leads.evaluateRecord`) and evaluations
  (`Leads.evaluate`).
* `leads_of_revised`: two zones lead so that are the same but for texts, which may be others of a
  certain kind.
-/

namespace MailScreen.Spf

open Dns (Query Response)

variable {α β α' β' : Type} {S : State → State → Prop} {L : Outcome → Nat → Prop} {R : α → β → Prop}
  {R' : α' → β' → Prop} {kind : β → Nat → Prop} {kind' : β' → Nat → Prop}

/-! ## Following -/

theorem Paired.imp {ε : Type} {E : ε → ε → Prop} {R R' : α → β → Prop} {x : Except ε α}
    {y : Except ε β} (h : Paired E R x y) (hR : ∀ a b, R a b → R' a b) : Paired E R' x y := by
  cases h with
  | ok h => exact .ok (hR _ _ h)
  | error h => exact .error h

/-- From related states the second computation is lost, as its result and the number of counted
terms say, or the two come to related states with related results. -/
def Follows (S : State → State → Prop) (lost : β → Nat → Prop) (R : α → β → Prop)
    (x : State → α × State) (y : State → β × State) : Prop :=
  ∀ s s', S s s' → lost (y s').1 (y s').2.counted ∨ R (x s).1 (y s').1 ∧ S (x s).2 (y s').2

/-- Whether an evaluation is lost: by the outcome that ended it, or by its value. -/
def LostIn (L : Outcome → Nat → Prop) (kind : β → Nat → Prop) : Except Outcome β → Nat → Prop
  | .ok b => kind b
  | .error o => L o

/-- An evaluation follows another one. -/
abbrev FollowsEval (S : State → State → Prop) (L : Outcome → Nat → Prop) (kind : β → Nat → Prop)
    (R : α → β → Prop) (x : Eval α) (y : Eval β) : Prop :=
  Follows S (LostIn L kind) (Paired Eq R) x y

/-- An evaluation follows another one, and no value means that it is lost. -/
abbrev FollowsPart (S : State → State → Prop) (L : Outcome → Nat → Prop) (R : α → β → Prop)
    (x : Eval α) (y : Eval β) : Prop :=
  FollowsEval S L (fun _ _ => False) R x y

theorem Coupled.follows {lost : β → Nat → Prop} {x : State → α × State} {y : State → β × State}
    (h : Coupled S R x y) : Follows S lost R x y :=
  fun s s' hs => Or.inr (h s s' hs)

theorem follows_pure {a : α} {b : β} (h : R a b) : FollowsEval S L kind R (pure a) (pure b) :=
  (coupled_pure h).follows

theorem follows_throw (o : Outcome) : FollowsEval S L kind R (throw o) (throw o) :=
  (coupled_throw o).follows

theorem follows_self (x : Eval α) : FollowsPart Eq L Eq x x :=
  (similar_iff.mp (similar_self x)).follows

/-- What goes on after a value that is lost has to be lost as well. -/
theorem Follows.bind {x : Eval α} {y : Eval β} {f : α → Eval α'} {g : β → Eval β'}
    (hxy : FollowsEval S L kind R x y)
    (hlost : ∀ b t, kind b t.counted → LostIn L kind' (g b t).1 (g b t).2.counted)
    (hfg : ∀ a b, R a b → FollowsEval S L kind' R' (f a) (g b)) :
    FollowsEval S L kind' R' (x >>= f) (y >>= g) := by
  intro s s' hs
  have hnext := hxy s s' hs
  rcases hx : x s with ⟨a, t⟩
  rcases hy : y s' with ⟨b, t'⟩
  rw [hx, hy] at hnext
  rcases hnext with h | ⟨hresult, hstate⟩
  · left
    cases b with
    | ok b =>
      rw [bind_of_ok hy]
      exact hlost b t' h
    | error o =>
      rw [bind_of_error hy]
      exact h
  · cases hresult with
    | ok hab =>
      rw [bind_of_ok hx, bind_of_ok hy]
      exact hfg _ _ hab t t' hstate
    | error he =>
      rw [bind_of_error hx, bind_of_error hy]
      exact Or.inr ⟨.error he, hstate⟩

/-- After a part of an evaluation. -/
theorem Follows.next {x : Eval α} {y : Eval β} {f : α → Eval α'} {g : β → Eval β'}
    (hxy : FollowsPart S L R x y) (hfg : ∀ a b, R a b → FollowsEval S L kind' R' (f a) (g b)) :
    FollowsEval S L kind' R' (x >>= f) (y >>= g) :=
  hxy.bind (fun _ _ => False.elim) hfg

theorem Follows.lift {x : StateM State α} {y : StateM State β} (h : Follows S kind R x y) :
    FollowsEval S L kind R (liftM x) (liftM y) :=
  fun s s' hs => (h s s' hs).imp id fun h => ⟨.ok h.1, h.2⟩

theorem Follows.outcome {x y : Eval Outcome} (h : FollowsEval S L L Eq x y) :
    Follows S L Eq (Check.outcome x) (Check.outcome y) := by
  intro s s' hs
  rw [outcome_apply, outcome_apply]
  refine (h s s' hs).imp (fun h => ?_) fun h => ⟨outcomeOf_paired (fun _ => rfl) h.1, h.2⟩
  rcases hy : y s' with ⟨o | o, t'⟩
  · rw [hy] at h
    exact h
  · rw [hy] at h
    exact h

/-! ## States in step -/

/-- What a relation between the states of two evaluations has to allow so that they can do the same
side by side. -/
structure InStep (S : State → State → Prop) : Prop where
  now : ∀ {s s'}, S s s' → s.session.now = s'.session.now
  chain : ∀ {s s'}, S s s' → s.chain = s'.chain
  logged : ∀ {s s'} (now : Int) (q : Query), S s s' →
    S { s with session := ⟨now, q :: s.session.history⟩ }
      { s' with session := ⟨now, q :: s'.session.history⟩ }
  keepsChains : KeepsChains S

theorem inStep_eq : InStep Eq where
  now h := h ▸ rfl
  chain h := h ▸ rfl
  logged _ _ h := h ▸ rfl
  keepsChains _ _ _ h := h ▸ rfl

theorem Follows.within (hS : KeepsChains S) {x y : StateM State Outcome} (h : Follows S L Eq x y)
    (domain : String) : Follows S L Eq (Check.within domain x) (Check.within domain y) := by
  intro s s' hs
  rw [within_apply, within_apply]
  exact (h _ _ (hS s s' (domain :: ·) hs)).imp id fun h => ⟨h.1, hS _ _ List.tail h.2⟩

/-! ## Checks that lead others -/

/-- **A check leads another one**: what it counts and looks up is followed by that one. It is lost
only with a permanent error, and texts are related by `T`. -/
structure Leads (c c' : Check) (S : State → State → Prop) (L : Outcome → Nat → Prop)
    (T : String → String → Prop) : Prop where
  states : InStep S
  lost : ∀ {o n}, L o n → o = .permError
  client : c.client = c'.client
  facts : ∀ domain, c.facts domain = c'.facts domain
  count : FollowsPart S L Eq c.count c'.count
  addresses : ∀ name, FollowsPart S L Eq (c.addresses name) (c'.addresses name)
  exchanges : ∀ name, FollowsPart S L Eq (c.exchanges name) (c'.exchanges name)
  texts : ∀ name, FollowsPart S L (List.Forall₂ T)
    (Check.lookup (c.context.txt c.resolver name)) (Check.lookup (c'.context.txt c'.resolver name))
  isRecord : ∀ {text text'}, T text text' → isRecord text = isRecord text'

/-- A permanent error after more terms were counted than the limit allows. -/
def Check.Exceeded (c : Check) (o : Outcome) (n : Nat) : Prop :=
  o = .permError ∧ c.limit < n

/-- A term is counted alike, unless it is one too many for the second check. -/
theorem follows_count {c c' : Check} (hlimit : ∀ {s s'}, S s s' → s'.counted < c'.limit →
      s.counted < c.limit)
    (hcounted : ∀ {s s'}, S s s' →
      S { s with counted := s.counted + 1 } { s' with counted := s'.counted + 1 }) :
    FollowsPart S c'.Exceeded Eq c.count c'.count := by
  intro s s' hs
  by_cases h : s'.counted < c'.limit
  · rw [count_of_lt_limit h, count_of_lt_limit (hlimit hs h)]
    exact Or.inr ⟨.ok rfl, hcounted hs⟩
  · rw [count_of_limit_le (Nat.le_of_not_lt h)]
    exact Or.inl ⟨rfl, Nat.lt_succ_of_le (Nat.le_of_not_lt h)⟩

namespace Leads

variable {c c' : Check} {T : String → String → Prop}

theorem expand (h : Leads c c' S L T) (domain spec : String) :
    FollowsPart S L Eq (c.expand domain spec) (c'.expand domain spec) := by
  unfold Check.expand
  rw [h.facts]
  cases (c'.facts domain).expand? spec with
  | none => exact follows_throw _
  | some name => exact follows_pure rfl

theorem target (h : Leads c c' S L T) (domain : String) (spec : Option String) :
    FollowsPart S L Eq (c.target domain spec) (c'.target domain spec) := by
  cases spec with
  | none => exact follows_pure rfl
  | some spec => exact h.expand domain spec

theorem anyHostNear (h : Leads c c' S L T) (lengths : Lengths) (hosts : List Dns.Exchange) :
    FollowsPart S L Eq (c.anyHostNear lengths hosts) (c'.anyHostNear lengths hosts) := by
  induction hosts with
  | nil => exact follows_pure rfl
  | cons x hosts ih =>
    refine (h.addresses x.host).next fun found found' hfound => ?_
    subst hfound
    rw [h.client]
    split
    · exact follows_pure rfl
    · exact ih

theorem follows_includeMatch (o : Outcome) :
    FollowsPart S L Eq (Check.includeMatch o) (Check.includeMatch o) := by
  cases o with
  | pass => exact follows_pure rfl
  | fail => exact follows_pure rfl
  | softFail => exact follows_pure rfl
  | neutral => exact follows_pure rfl
  | none => exact follows_throw _
  | tempError => exact follows_throw _
  | permError => exact follows_throw _

/-- The addresses of a name, behind a counted term. -/
theorem addressesOf (h : Leads c c' S L T) {x y : Eval String} (hxy : FollowsPart S L Eq x y)
    (f : List Ip.Address → Bool) :
    FollowsPart S L Eq
      (do
        c.count
        let name ← x
        let found ← c.addresses name
        return f found : Eval Bool)
      (do
        c'.count
        let name ← y
        let found ← c'.addresses name
        return f found : Eval Bool) := by
  refine h.count.next fun _ _ _ => hxy.next fun name name' hname => ?_
  subst hname
  refine (h.addresses name).next fun found found' hfound => ?_
  subst hfound
  exact follows_pure rfl

section Recursion

variable {recur recur' : String → StateM State Outcome}
  (hrecur : ∀ name, Follows S L Eq (recur name) (recur' name))

include hrecur

/-- The evaluation of another domain; if that is lost, what comes of it has to be lost as well. -/
theorem follows_recur (h : Leads c c' S L T) (domain spec : String) {f : Outcome → Eval α}
    {g : Outcome → Eval β}
    (hlost : ∀ t, L .permError t.counted →
      LostIn L kind (g .permError t).1 (g .permError t).2.counted)
    (hfg : ∀ o, FollowsEval S L kind R (f o) (g o)) :
    FollowsEval S L kind R
      (do
        c.count
        let name ← c.expand domain spec
        f (← recur name) : Eval α)
      (do
        c'.count
        let name ← c'.expand domain spec
        g (← recur' name) : Eval β) := by
  refine h.count.next fun _ _ _ => (h.expand domain spec).next fun name name' hname => ?_
  subst hname
  refine (hrecur name).lift.bind (fun o t ho => ?_) fun o o' ho => ?_
  · obtain rfl := h.lost ho
    exact hlost t ho
  · subst ho
    exact hfg o

theorem isMatch (h : Leads c c' S L T) (domain : String) (m : Mechanism) :
    FollowsPart S L Eq (c.isMatch recur domain m) (c'.isMatch recur' domain m) := by
  cases m with
  | all => exact follows_pure rfl
  | ip4 net => exact follows_pure (congrArg net.contains h.client)
  | ip6 net => exact follows_pure (congrArg net.contains h.client)
  | pointer spec => exact h.count.next fun _ _ _ => follows_pure rfl
  | existing spec => exact h.addressesOf (h.expand domain spec) fun found => ! found.isEmpty
  | address spec lengths =>
    unfold Check.isMatch
    rw [h.client]
    exact h.addressesOf (h.target domain spec) _
  | exchange spec lengths =>
    refine h.count.next fun _ _ _ => (h.target domain spec).next fun name name' hname => ?_
    subst hname
    refine (h.exchanges name).next fun hosts hosts' hhosts => ?_
    subst hhosts
    by_cases hmany : maxExchanges < hosts.length
    · rw [if_pos hmany, if_pos hmany]
      exact (follows_throw (R := Eq) .permError).next fun _ _ _ => h.anyHostNear lengths _
    · rw [if_neg hmany, if_neg hmany]
      exact h.anyHostNear lengths _
  | included spec =>
    exact h.follows_recur hrecur domain spec (fun _ => id) follows_includeMatch

theorem firstMatch (h : Leads c c' S L T) (domain : String) (ds : List Directive) :
    FollowsPart S L Eq (c.firstMatch recur domain ds) (c'.firstMatch recur' domain ds) := by
  induction ds with
  | nil => exact follows_pure rfl
  | cons d ds ih =>
    refine (h.isMatch hrecur domain d.mechanism).next fun found found' hfound => ?_
    subst hfound
    cases found with
    | true => exact follows_pure rfl
    | false => exact ih

/-- **A policy** with the same redirect follows if the same directive is the first to match. -/
theorem evaluateRecord (h : Leads c c' S L T) (domain : String) {record record' : Record}
    (hfirst : FollowsPart S L Eq (c.firstMatch recur domain record.directives)
      (c'.firstMatch recur' domain record'.directives))
    (hredirect : record.redirect = record'.redirect) :
    FollowsEval S L L Eq (c.evaluateRecord recur domain record)
      (c'.evaluateRecord recur' domain record') := by
  unfold Check.evaluateRecord
  refine hfirst.next fun found found' hfound => ?_
  subst hfound
  rw [← hredirect]
  cases found with
  | some q => exact follows_pure rfl
  | none =>
    cases record.redirect with
    | none => exact follows_pure rfl
    | some spec =>
      exact h.follows_recur hrecur domain spec (fun _ => id) fun _ => follows_pure rfl

end Recursion

theorem policyText (h : Leads c c' S L T) (domain : String) :
    FollowsPart S L (Option.Rel T) (c.policyText domain) (c'.policyText domain) := by
  refine (h.texts domain).next fun texts texts' htexts => ?_
  have hpolicies : List.Forall₂ T (texts.filter Spf.isRecord) (texts'.filter Spf.isRecord) :=
    List.rel_filter (fun _ _ ht => by simp only [h.isRecord ht]) htexts
  revert hpolicies
  generalize texts.filter Spf.isRecord = policies
  generalize texts'.filter Spf.isRecord = policies'
  intro hpolicies
  cases hpolicies with
  | nil => exact follows_pure .none
  | cons htext hrest =>
    cases hrest with
    | nil => exact follows_pure (.some htext)
    | cons => exact follows_throw .permError

/-- Policies as they were read: both are faulty, or one follows the other. -/
theorem evaluateRead (h : Leads c c' S L T) {recur recur' : String → StateM State Outcome}
    (domain : String) {read read' : Except Fault Record}
    (hread : Paired anyFault
      (fun record record' => FollowsEval S L L Eq (c.evaluateRecord recur domain record)
        (c'.evaluateRecord recur' domain record')) read read') :
    FollowsEval S L L Eq (c.evaluateRead recur domain read)
      (c'.evaluateRead recur' domain read') := by
  cases hread with
  | error => exact follows_throw .permError
  | ok hrecord => exact (hrecord.outcome.within h.states.keepsChains domain).lift

/-- **Evaluations follow one another**, at any depth, if policies with related texts do. -/
theorem evaluate (h : Leads c c' S L T)
    (hread : ∀ depth, (∀ name, Follows S L Eq (c.evaluate depth name) (c'.evaluate depth name)) →
      ∀ domain text text', T text text' → Paired anyFault
        (fun record record' => FollowsEval S L L Eq
          (c.evaluateRecord (c.evaluate depth) domain record)
          (c'.evaluateRecord (c'.evaluate depth) domain record'))
        (Record.ofText text) (Record.ofText text'))
    (depth : Nat) (name : String) :
    Follows S L Eq (c.evaluate depth name) (c'.evaluate depth name) := by
  induction depth generalizing name with
  | zero => exact fun s s' hs => Or.inr ⟨rfl, hs⟩
  | succ depth ih =>
    refine Follows.outcome fun s s' hs => ?_
    rw [evaluateDomain_apply, evaluateDomain_apply, ← h.states.chain hs]
    -- the chains are the same, so that both evaluations meet a loop here or neither does
    by_cases hmet : s.chain.contains name = true
    · rw [if_pos hmet, if_pos hmet]
      exact Or.inr ⟨.error rfl, hs⟩
    · rw [if_neg hmet, if_neg hmet]
      refine (h.policyText name).next (fun text text' htext => ?_) s s' hs
      cases htext with
      | none => exact follows_pure rfl
      | some htext => exact h.evaluateRead name (hread depth ih name _ _ htext)

/-- The same texts are read as the same policies. -/
theorem evaluate_of_eq (h : Leads c c' S L Eq) (depth : Nat) (name : String) :
    Follows S L Eq (c.evaluate depth name) (c'.evaluate depth name) := by
  refine h.evaluate (fun depth hrecur domain text text' htext => ?_) depth name
  subst htext
  exact paired_refl (fun _ => trivial) (fun record => h.evaluateRecord hrecur domain
    (h.firstMatch hrecur domain record.directives) rfl) (Record.ofText text)

end Leads

/-! ## Zones that lead others -/

/-- The same check with the records of a zone. -/
def Check.over (c : Check) (z : Dns.Zone) : Check :=
  { c with resolver := z.resolver }

/-- Two zones with the same records, but that texts may be others that are related to them. -/
structure ZoneRevised (T : String → String → Prop) (z z' : Dns.Zone) : Prop where
  texts : List.Forall₂ (fun a b => a.1 = b.1 ∧ T a.2 b.2) z.texts z'.texts
  addresses : z.addresses = z'.addresses
  exchanges : z.exchanges = z'.exchanges
  faults : z.faults = z'.faults
  delay : z.delay = z'.delay

/-- A lookup is answered at the same time by related values. -/
theorem InStep.coupled_lookup (hS : InStep S) {A : α → β → Prop} (ctx : Dns.Context) (q : Query)
    {ask : List Query → Response (List α)} {ask' : List Query → Response (List β)}
    (hdelay : ∀ earlier earlier', (ask earlier).delay = (ask' earlier').delay)
    (hanswer : ∀ earlier earlier',
      Paired Eq (List.Forall₂ A) (ask earlier).answer (ask' earlier').answer) :
    CoupledEval S (List.Forall₂ A) (Check.lookup (ctx.resolve q ask))
      (Check.lookup (ctx.resolve q ask')) := by
  intro s s' hs
  unfold Check.lookup Dns.Context.resolve
  rw [← hS.now hs]
  by_cases hcancelled : ctx.isCancelled s.session.now = true
  · simp only [if_pos hcancelled]
    exact ⟨.error rfl, hs⟩
  · simp only [if_neg hcancelled]
    obtain ⟨hcome, hnow⟩ := ctx.await_related (R := Paired Eq (List.Forall₂ A))
      (fun _ => .error rfl) (hdelay s.session.history s'.session.history)
      (hanswer s.session.history s'.session.history) s.session.now
    rw [← hnow]
    exact ⟨answer_paired hcome, hS.logged _ q hs⟩

/-- What is answered at the same time by the same values is looked up alike. -/
theorem InStep.coupled_records (hS : InStep S) (ctx : Dns.Context) (q : Query)
    {response response' : Response (List α)} (h : response = response') :
    CoupledEval S Eq (Check.lookup (ctx.resolve q fun _ => response))
      (Check.lookup (ctx.resolve q fun _ => response')) := by
  subst h
  have hsame : CoupledEval S (List.Forall₂ Eq) (Check.lookup (ctx.resolve q fun _ => response))
      (Check.lookup (ctx.resolve q fun _ => response)) :=
    hS.coupled_lookup ctx q (fun _ _ => rfl) fun _ _ =>
      paired_refl (fun _ => rfl) (fun values => List.forall₂_refl values) response.answer
  rwa [List.forall₂_eq_eq_eq] at hsame

theorem ZoneRevised.response_eq {T : String → String → Prop} {z z' : Dns.Zone}
    (hz : ZoneRevised T z z') {records records' : List (String × α)} (h : records = records')
    (name : String) :
    (⟨z.delay, z.answer records name⟩ : Response (List α)) =
      ⟨z'.delay, z'.answer records' name⟩ := by
  rw [h, hz.delay, Dns.Zone.answer, Dns.Zone.answer, hz.faults]

/-- **A zone leads its revision** if a permanent error is all that may be lost. -/
theorem leads_of_revised {T : String → String → Prop} {z z' : Dns.Zone}
    (hz : ZoneRevised T z z') (hT : ∀ {text text'}, T text text' → isRecord text = isRecord text')
    (c : Check) (hS : InStep S) (hL : ∀ {o n}, L o n → o = .permError)
    (hcount : FollowsPart S L Eq c.count c.count) : Leads (c.over z) (c.over z') S L T where
  states := hS
  lost := hL
  client := rfl
  facts _ := rfl
  count := hcount
  addresses name := (hS.coupled_records c.context _ (hz.response_eq hz.addresses name)).follows
  exchanges name := (hS.coupled_records c.context _ (hz.response_eq hz.exchanges name)).follows
  texts name := by
    refine (hS.coupled_lookup c.context (.txt name) (fun _ _ => hz.delay) fun _ _ => ?_).follows
    exact Dns.Zone.answer_related (fun _ => .error rfl) (fun _ _ => .ok) hz.faults hz.texts name
  isRecord := hT

end MailScreen.Spf
