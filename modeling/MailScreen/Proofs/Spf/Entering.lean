import MailScreen.Proofs.Spf.LookupBound
import Mathlib.Logic.Relation

/-!
# Entering the policies of other domains

An evaluation enters the policies of other domains by `include` and by `redirect`. An `Entry` is a
domain whose evaluation begins, and the state in which it does.

* `Check.evaluation` evaluates the policy of a domain, and those it leads to, as deep as they lead.
  One step of the recursion leaves it what it is (`unfolding_evaluation`).
* `Check.Enters` relates an entry to those that come from it directly. Between the two a term is
  counted (`Check.Enters.counted_lt`), so there is an induction along the entries
  (`entry_induction`).
* `Moves` says that a relation between two states holds of each thing that an evaluation does. It
  then holds of an evaluation as a whole, and its lookups of policies have to be looked at only for
  the entries that are reached (`Moves.evaluation`).
* `Proceeds` is what holds of all evaluations: lookups and counted terms are only added, and the
  chain is left as it was.
-/

namespace MailScreen.Spf

open Relation (ReflTransGen)

variable {α β : Type} {c : Check} {recur : String → StateM State Outcome}

/-! ## Evaluations of any depth -/

/-- Evaluates the policy of a domain and of those it leads to. -/
def Check.evaluation (c : Check) : String → StateM State Outcome :=
  c.evaluate (c.limit + 1)

theorem evaluate_add (c : Check) (n depth : Nat) :
    c.evaluate (n + depth) = c.unfolding^[n] (c.evaluate depth) := by
  induction n with
  | zero => rw [Nat.zero_add, Function.iterate_zero_apply]
  | succ n ih =>
    rw [Function.iterate_succ_apply', ← ih, Nat.succ_add]
    rfl

/-- A depth of more than the limit is as good as any other. -/
theorem evaluate_of_limit_lt {depth : Nat} (h : c.limit < depth) :
    c.evaluate depth = c.evaluation := by
  obtain ⟨k, rfl⟩ := Nat.exists_eq_add_of_le h
  rw [evaluate_add, iterate_unfolding]
  rfl

/-- **An evaluation is what one step of the recursion makes of it.** -/
theorem unfolding_evaluation (c : Check) : c.unfolding c.evaluation = c.evaluation :=
  evaluate_of_limit_lt (Nat.lt_succ_of_lt (Nat.lt_succ_self c.limit))

/-! ## Entries -/

/-- A domain whose evaluation begins, and the state in which it does. -/
structure Entry where
  name : String
  state : State

/-- Counts a term, and expands the name of the domain that it leads to. -/
def Check.named (c : Check) (domain spec : String) : Eval String := do
  c.count
  c.expand domain spec

theorem isMatch_included (domain spec : String) : c.isMatch recur domain (.included spec) =
    c.named domain spec >>= fun name => liftM (recur name) >>= Check.includeMatch :=
  (bind_assoc _ _ _).symm

theorem named_bind_redirect (domain spec : String) :
    (do
      c.count
      let name ← c.expand domain spec
      return Check.redirectOutcome (← recur name) : Eval Outcome) =
    c.named domain spec >>= fun name => liftM (recur name) >>= fun o =>
      pure (Check.redirectOutcome o) :=
  (bind_assoc _ _ _).symm

theorem named_eq_ok_iff {domain spec name : String} {s t : State} :
    c.named domain spec s = (.ok name, t) ↔ s.counted < c.limit ∧
      (c.facts domain).expand? spec = some name ∧ t = { s with counted := s.counted + 1 } := by
  unfold Check.named
  by_cases hlimit : s.counted < c.limit
  · rw [bind_of_ok (count_of_lt_limit hlimit)]
    unfold Check.expand
    cases (c.facts domain).expand? spec with
    | none => exact iff_of_false (fun h => nomatch (Prod.mk.inj h).1) fun h => nomatch h.2.1
    | some expanded =>
      refine ⟨fun h => ?_, ?_⟩
      · obtain ⟨hname, rfl⟩ := Prod.mk.inj h
        exact ⟨hlimit, congrArg some (Except.ok.inj hname), rfl⟩
      · rintro ⟨-, hname, rfl⟩
        rw [Option.some.inj hname]
        rfl
  · rw [bind_of_error (count_of_limit_le (Nat.le_of_not_lt hlimit))]
    exact iff_of_false (fun h => nomatch (Prod.mk.inj h).1) fun h => hlimit h.1

variable (c recur)

/-- Directives, evaluated from one state on, come to an `include` of a name in another one. -/
inductive Check.Includes (domain : String) : List Directive → State → String → State → Prop
  | here {q : Qualifier} {spec name : String} {ds : List Directive} {s t : State}
      (h : c.named domain spec s = (.ok name, t)) :
      Includes domain (⟨q, .included spec⟩ :: ds) s name t
  | later {d : Directive} {ds : List Directive} {s s' t : State} {name : String}
      (h : c.isMatch recur domain d.mechanism s = (.ok false, s'))
      (hds : Includes domain ds s' name t) : Includes domain (d :: ds) s name t

/-- A policy, evaluated from one state on, enters another domain in another state. -/
inductive Check.PolicyEnters (domain : String) (record : Record) (s : State) :
    String → State → Prop
  | included {name : String} {t : State}
      (h : c.Includes recur domain record.directives s name t) :
      PolicyEnters domain record s name t
  /-- No directive matches. -/
  | redirected {spec name : String} {s' t : State}
      (hfirst : c.firstMatch recur domain record.directives s = (.ok none, s'))
      (hredirect : record.redirect = some spec) (h : c.named domain spec s' = (.ok name, t)) :
      PolicyEnters domain record s name t

/-- An entry leads to another one, which the policy enters that is read at the first. -/
inductive Check.EntersBy : Entry → Entry → Prop
  | intro {domain text name : String} {s s' t : State} {record : Record}
      (hchain : domain ∉ s.chain) (htext : c.policyText domain s = (.ok (some text), s'))
      (hrecord : Record.ofText text = .ok record)
      (h : c.PolicyEnters recur domain record { s' with chain := domain :: s'.chain } name t) :
      EntersBy ⟨domain, s⟩ ⟨name, t⟩

/-- An entry leads to another one directly. -/
abbrev Check.Enters : Entry → Entry → Prop :=
  c.EntersBy c.evaluation

/-- The entries that the evaluation of an entry comes to, itself included. -/
abbrev Check.Reaches : Entry → Entry → Prop :=
  ReflTransGen c.Enters

/-! ## What every step does -/

/-- A relation that holds between the states before and after each thing that an evaluation does,
but for the lookups of policies. -/
structure Moves (P : State → State → Prop) : Prop where
  refl : ∀ s, P s s
  trans : ∀ {s t u}, P s t → P t u → P s u
  counted : ∀ s, P s { s with counted := s.counted + 1 }
  addresses : ∀ name s, P s (c.addresses name s).2
  exchanges : ∀ name s, P s (c.exchanges name s).2
  within : ∀ (domain : String) (s t : State), P { s with chain := domain :: s.chain } t →
    P s { t with chain := t.chain.tail }

variable {c recur} {P : State → State → Prop}

/-- Of the text of a policy nothing is asked but the lookup. -/
theorem policyText_snd (domain : String) (s : State) :
    (c.policyText domain s).2 = (Check.lookup (c.context.txt c.resolver domain) s).2 := by
  unfold Check.policyText
  rcases hlookup : Check.lookup (c.context.txt c.resolver domain) s with ⟨a | texts, t⟩
  · rw [bind_of_error hlookup]
  · rw [bind_of_ok hlookup]
    rcases texts.filter isRecord with _ | ⟨text, _ | ⟨text', rest⟩⟩ <;> rfl

namespace Moves

/-- What comes behind a first thing moves from where that has ended. -/
theorem behind (hP : Moves c P) {x : Eval α} {f : α → Eval β} {s : State}
    (hf : ∀ a t, x s = (.ok a, t) → P t (f a t).2) : P (x s).2 ((x >>= f) s).2 := by
  rcases hxs : x s with ⟨a | a, t⟩
  · rw [bind_of_error hxs]
    exact hP.refl t
  · rw [bind_of_ok hxs]
    exact hf a t hxs

theorem bind (hP : Moves c P) {x : Eval α} {f : α → Eval β} {s : State} (hx : P s (x s).2)
    (hf : ∀ a t, x s = (.ok a, t) → P t (f a t).2) : P s ((x >>= f) s).2 :=
  hP.trans hx (hP.behind hf)

theorem outcome {x : Eval Outcome} {s : State} (hx : P s (x s).2) :
    P s (Check.outcome x s).2 := by
  rwa [outcome_apply]

theorem count (hP : Moves c P) (s : State) : P s (c.count s).2 := by
  by_cases h : s.counted < c.limit
  · rw [count_of_lt_limit h]
    exact hP.counted s
  · rw [count_of_limit_le (Nat.le_of_not_lt h)]
    exact hP.counted s

theorem expand (hP : Moves c P) (domain spec : String) (s : State) :
    P s (c.expand domain spec s).2 := by
  unfold Check.expand
  cases (c.facts domain).expand? spec with
  | none => exact hP.refl s
  | some name => exact hP.refl s

theorem target (hP : Moves c P) (domain : String) (spec : Option String) (s : State) :
    P s (c.target domain spec s).2 := by
  cases spec with
  | none => exact hP.refl s
  | some spec => exact hP.expand domain spec s

theorem named (hP : Moves c P) (domain spec : String) (s : State) :
    P s (c.named domain spec s).2 :=
  hP.bind (hP.count s) fun _ t _ => hP.expand domain spec t

theorem anyHostNear (hP : Moves c P) (lengths : Lengths) (hosts : List Dns.Exchange) (s : State) :
    P s (c.anyHostNear lengths hosts s).2 := by
  induction hosts generalizing s with
  | nil => exact hP.refl s
  | cons x hosts ih =>
    refine hP.bind (hP.addresses x.host s) fun found t _ => ?_
    split
    · exact hP.refl t
    · exact ih t

theorem includeMatch (hP : Moves c P) (o : Outcome) (s : State) :
    P s (Check.includeMatch o s).2 := by
  cases o <;> exact hP.refl s

/-- The addresses of a name, behind a counted term. -/
theorem addressesOf (hP : Moves c P) {x : Eval String} (hx : ∀ s, P s (x s).2)
    (f : List Ip.Address → Bool) (s : State) :
    P s ((do
      c.count
      let name ← x
      let found ← c.addresses name
      return f found : Eval Bool) s).2 :=
  hP.bind (hP.count s) fun _ t _ => hP.bind (hx t) fun name t _ =>
    hP.bind (hP.addresses name t) fun _ t _ => hP.refl t

theorem isMatch (hP : Moves c P) {domain : String} {m : Mechanism} {s : State}
    (hrecur : ∀ spec name t, m = .included spec → c.named domain spec s = (.ok name, t) →
      P t (recur name t).2) : P s (c.isMatch recur domain m s).2 := by
  cases m with
  | all => exact hP.refl s
  | ip4 net => exact hP.refl s
  | ip6 net => exact hP.refl s
  | pointer spec => exact hP.bind (hP.count s) fun _ t _ => hP.refl t
  | existing spec =>
    exact hP.addressesOf (hP.expand domain spec) (fun found => ! found.isEmpty) s
  | address spec lengths => exact hP.addressesOf (hP.target domain spec) _ s
  | exchange spec lengths =>
    refine hP.bind (hP.count s) fun _ t _ => hP.bind (hP.target domain spec t) fun name t _ =>
      hP.bind (hP.exchanges name t) fun hosts t _ => ?_
    by_cases hmany : maxExchanges < hosts.length
    · rw [if_pos hmany]
      exact hP.refl t
    · rw [if_neg hmany]
      exact hP.anyHostNear lengths _ t
  | included spec =>
    rw [isMatch_included]
    refine hP.bind (hP.named domain spec s) fun name t hname => ?_
    exact hP.bind (x := liftM (recur name)) (hrecur spec name t rfl hname)
      fun o t _ => hP.includeMatch o t

theorem firstMatch (hP : Moves c P) {domain : String} {ds : List Directive} {s : State}
    (hrecur : ∀ name t, c.Includes recur domain ds s name t → P t (recur name t).2) :
    P s (c.firstMatch recur domain ds s).2 := by
  induction ds generalizing s with
  | nil => exact hP.refl s
  | cons d ds ih =>
    refine hP.bind (hP.isMatch fun spec name t hspec hname => ?_) fun found t hfound => ?_
    · obtain ⟨q, m⟩ := d
      obtain rfl : m = .included spec := hspec
      exact hrecur name t (.here hname)
    · cases found with
      | true => exact hP.refl t
      | false => exact ih fun name u h => hrecur name u (.later hfound h)

theorem evaluateRecord (hP : Moves c P) {domain : String} {record : Record} {s : State}
    (hrecur : ∀ name t, c.PolicyEnters recur domain record s name t → P t (recur name t).2) :
    P s (c.evaluateRecord recur domain record s).2 := by
  have hfirst : P s (c.firstMatch recur domain record.directives s).2 :=
    hP.firstMatch fun name t h => hrecur name t (.included h)
  refine hP.bind hfirst fun found t hfound => ?_
  cases found with
  | some q => exact hP.refl t
  | none =>
    cases hredirect : record.redirect with
    | none => exact hP.refl t
    | some spec =>
      simp only
      rw [named_bind_redirect]
      refine hP.bind (hP.named domain spec t) fun name u hname => ?_
      exact hP.bind (x := liftM (recur name))
        (hrecur name u (.redirected hfound hredirect hname)) fun o u _ => hP.refl u

/-- A policy that was read moves as the evaluations do that it enters. -/
theorem evaluateRead (hP : Moves c P) {domain : String} {read : Except Fault Record} {s : State}
    (hrecur : ∀ record name t, read = .ok record →
      c.PolicyEnters recur domain record { s with chain := domain :: s.chain } name t →
        P t (recur name t).2) : P s (c.evaluateRead recur domain read s).2 := by
  cases read with
  | error fault => exact hP.refl s
  | ok record =>
    show P s (Check.within domain (Check.outcome (c.evaluateRecord recur domain record)) s).2
    rw [within_apply]
    refine hP.within domain s _ (outcome (hP.evaluateRecord fun name t h => ?_))
    exact hrecur record name t rfl h

/-- The policy of a domain moves so behind its lookup. -/
theorem evaluatePolicy (hP : Moves c P) {domain : String} {s : State}
    (hrecur : ∀ text record name t t', c.policyText domain s = (.ok (some text), t) →
      Record.ofText text = .ok record →
      c.PolicyEnters recur domain record { t with chain := domain :: t.chain } name t' →
        P t' (recur name t').2) :
    P (Check.lookup (c.context.txt c.resolver domain) s).2
      (c.evaluatePolicy recur domain s).2 := by
  rw [← policyText_snd]
  refine hP.behind fun text t htext => ?_
  cases text with
  | none => exact hP.refl t
  | some text =>
    exact hP.evaluateRead fun record name t' hrecord h =>
      hrecur text record name t t' htext hrecord h

/-- **One step of the recursion** moves as its lookup of a policy and the evaluations of the entries
do to which it leads. -/
theorem unfolding (hP : Moves c P) {e : Entry}
    (htexts : e.name ∉ e.state.chain →
      P e.state (Check.lookup (c.context.txt c.resolver e.name) e.state).2)
    (hrecur : ∀ e', c.EntersBy recur e e' → P e'.state (recur e'.name e'.state).2) :
    P e.state (c.unfolding recur e.name e.state).2 := by
  obtain ⟨domain, s⟩ := e
  apply outcome
  rw [evaluateDomain_apply]
  by_cases hchain : s.chain.contains domain = true
  · rw [if_pos hchain]
    exact hP.refl s
  · rw [if_neg hchain]
    rw [List.contains_iff_mem] at hchain
    refine hP.trans (htexts hchain)
      (hP.evaluatePolicy fun text record name t t' htext hrecord h => ?_)
    exact hrecur ⟨name, t'⟩ (.intro hchain htext hrecord h)

/-- **An evaluation of any depth** moves as its lookups do. -/
theorem evaluate (hP : Moves c P)
    (htexts : ∀ name s, P s (Check.lookup (c.context.txt c.resolver name) s).2) (depth : Nat)
    (name : String) (s : State) : P s (c.evaluate depth name s).2 := by
  induction depth generalizing name s with
  | zero => exact hP.refl s
  | succ depth ih =>
    exact hP.unfolding (e := ⟨name, s⟩) (fun _ => htexts name s) fun e' _ => ih e'.name e'.state

/-- Up to where directives come to an `include`, they move as the evaluations do that they enter
before. -/
theorem includes (hP : Moves c P) (hrecur : ∀ name s, P s (recur name s).2) {domain name : String}
    {ds : List Directive} {s t : State} (h : c.Includes recur domain ds s name t) :
    ∃ s', P s s' ∧ s'.counted < c.limit ∧ t = { s' with counted := s'.counted + 1 } := by
  induction h with
  | @here _ _ _ _ s _ h =>
    obtain ⟨hlimit, -, ht⟩ := named_eq_ok_iff.mp h
    exact ⟨s, hP.refl s, hlimit, ht⟩
  | @later d _ s s' _ _ h _ ih =>
    obtain ⟨u, hu, hlimit, ht⟩ := ih
    have hs : P s (c.isMatch recur domain d.mechanism s).2 :=
      hP.isMatch fun _ name t _ _ => hrecur name t
    rw [h] at hs
    exact ⟨u, hP.trans hs hu, hlimit, ht⟩

theorem policyEnters (hP : Moves c P) (hrecur : ∀ name s, P s (recur name s).2)
    {domain name : String} {record : Record} {s t : State}
    (h : c.PolicyEnters recur domain record s name t) :
    ∃ s', P s s' ∧ s'.counted < c.limit ∧ t = { s' with counted := s'.counted + 1 } := by
  cases h with
  | included h => exact hP.includes hrecur h
  | @redirected _ _ s' _ hfirst _ h =>
    obtain ⟨hlimit, -, ht⟩ := named_eq_ok_iff.mp h
    have hs : P s (c.firstMatch recur domain record.directives s).2 :=
      hP.firstMatch fun name t _ => hrecur name t
    rw [hfirst] at hs
    exact ⟨s', hs, hlimit, ht⟩

end Moves

/-! ## What an evaluation keeps -/

/-- What happens between two states: lookups and counted terms are only added, and the chain is left
as it was. -/
structure Proceeds (s t : State) : Prop where
  history : s.session.history <:+ t.session.history
  counted : s.counted ≤ t.counted
  chain : t.chain = s.chain

theorem proceeds_lookup {q : Dns.Query} {ask : List Dns.Query → Dns.Response (List α)}
    (s : State) : Proceeds s (Check.lookup (c.context.resolve q ask) s).2 := by
  refine ⟨?_, Nat.le_refl _, rfl⟩
  show s.session.history <:+ (c.context.resolve q ask s.session).2.history
  rcases history_resolve c.context q ask s.session with h | h
  · exact h ▸ List.suffix_rfl
  · exact h ▸ List.suffix_cons _ _

theorem moves_proceeds : Moves c Proceeds where
  refl _ := ⟨List.suffix_rfl, Nat.le_refl _, rfl⟩
  trans h h' := ⟨h.history.trans h'.history, Nat.le_trans h.counted h'.counted,
    h'.chain.trans h.chain⟩
  counted _ := ⟨List.suffix_rfl, Nat.le_succ _, rfl⟩
  addresses _ := proceeds_lookup
  exchanges _ := proceeds_lookup
  within _ _ _ h := ⟨h.history, h.counted, congrArg List.tail h.chain⟩

theorem proceeds_evaluate (depth : Nat) (name : String) (s : State) :
    Proceeds s (c.evaluate depth name s).2 :=
  moves_proceeds.evaluate (fun _ => proceeds_lookup) depth name s

/-- **An evaluation leaves the chain as it was**, whatever it comes to. -/
theorem chain_evaluate (depth : Nat) (name : String) (s : State) :
    (c.evaluate depth name s).2.chain = s.chain :=
  (proceeds_evaluate depth name s).chain

/-! ## Along the entries -/

/-- **Where another domain is entered**, the one that is left is on the chain, and one term more was
counted, within the limit. -/
theorem Check.Enters.proceeds {e e' : Entry} (h : c.Enters e e') :
    e.name ∉ e.state.chain ∧ e'.state.chain = e.name :: e.state.chain ∧
      e.state.counted < e'.state.counted ∧ e'.state.counted ≤ c.limit := by
  obtain @⟨domain, text, name, s, s', t, record, hchain, htext, -, h⟩ := h
  have hs : Proceeds s (c.policyText domain s).2 := by
    rw [policyText_snd]
    exact proceeds_lookup s
  rw [htext] at hs
  obtain ⟨u, hu, hlimit, rfl⟩ := moves_proceeds.policyEnters (proceeds_evaluate _) h
  refine ⟨hchain, ?_, Nat.lt_succ_of_le (Nat.le_trans hs.counted hu.counted), hlimit⟩
  exact hu.chain.trans (congrArg (domain :: ·) hs.chain)

theorem Check.Enters.counted_lt {e e' : Entry} (h : c.Enters e e') :
    e.state.counted < e'.state.counted ∧ e'.state.counted ≤ c.limit :=
  h.proceeds.2.2

/-- **Induction along the entries**: what holds of an entry if it holds of those that come from it
holds of all. -/
theorem entry_induction {motive : Entry → Prop}
    (step : ∀ e, (∀ e', c.Enters e e' → motive e') → motive e) (e : Entry) : motive e := by
  -- on the number of terms that the limit leaves; an entry beyond the limit leads nowhere
  induction hn : c.limit + 1 - e.state.counted using Nat.strongRecOn generalizing e with
  | ind n ih =>
    refine step e fun e' h => ih _ ?_ e' rfl
    have := h.counted_lt
    omega

/-- **An evaluation moves as its lookups of policies do** at the entries that are reached. -/
theorem Moves.evaluation (hP : Moves c P) {e : Entry}
    (htexts : ∀ e', c.Reaches e e' → e'.name ∉ e'.state.chain →
      P e'.state (Check.lookup (c.context.txt c.resolver e'.name) e'.state).2) :
    P e.state (c.evaluation e.name e.state).2 := by
  induction e using entry_induction (c := c) with
  | step e ih =>
    rw [← unfolding_evaluation]
    exact hP.unfolding (htexts e .refl) fun e' h => ih e' h fun e'' h' => htexts e'' (.head h h')

end MailScreen.Spf
