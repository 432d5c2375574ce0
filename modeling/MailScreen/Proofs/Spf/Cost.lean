import MailScreen.Spf.Evaluate

/-!
# What an evaluation costs

Lookups are weighed, and every term that is counted pays a price for the lookups that it starts.

* `Weight` weighs lookups by their kind. A price is fair (`Weight.Fair`) if it covers what one
  counted term starts: the policy of another domain, the addresses of a name, or the hosts that take
  mail for a name and the addresses of ten of them.
* `Spends` relates the states before and after a part of an evaluation: lookups and counted terms
  are only added, and the lookups that were added are paid for by the terms that were counted within
  the limit, but for what is free.
* `costs_isMatch`, `costs_evaluateRecord`: a policy pays for all that it starts.
* `costs_evaluate`: so does an evaluation of a domain but for the first lookup, at any depth and for
  any resolver.
-/

namespace MailScreen.Spf

/-- What lookups weigh, by kind. -/
structure Weight where
  txt : Nat
  mx : Nat
  ip : Nat

namespace Weight

/-- The weight of a lookup. -/
def of (w : Weight) : Dns.Query → Nat
  | .txt _ => w.txt
  | .mx _ => w.mx
  | .ip _ => w.ip

/-- The weight of some lookups. -/
def total (w : Weight) : List Dns.Query → Nat
  | [] => 0
  | q :: queries => w.of q + w.total queries

theorem total_append (w : Weight) (as bs : List Dns.Query) :
    w.total (as ++ bs) = w.total as + w.total bs := by
  induction as with
  | nil => rw [List.nil_append, total, Nat.zero_add]
  | cons q as ih => rw [List.cons_append, total, total, ih, Nat.add_assoc]

/-- A price that covers what one counted term may start. -/
structure Fair (w : Weight) (price : Nat) : Prop where
  txt : w.txt ≤ price
  ip : w.ip ≤ price
  mx : w.mx + maxExchanges * w.ip ≤ price

end Weight

/-! ## Actions on states -/

variable {α β : Type}

theorem bind_of_ok {x : Eval α} {s s' : State} {a : α} (h : x s = (.ok a, s'))
    (f : α → Eval β) : (x >>= f) s = f a s' := by
  show ExceptT.bindCont f (x s).1 (x s).2 = f a s'
  rw [h]
  rfl

theorem bind_of_error {x : Eval α} {s s' : State} {e : Outcome} (h : x s = (.error e, s'))
    (f : α → Eval β) : (x >>= f) s = (.error e, s') := by
  show ExceptT.bindCont f (x s).1 (x s).2 = (.error e, s')
  rw [h]
  rfl

theorem lift_apply (x : StateM State α) (s : State) :
    (liftM x : Eval α) s = (.ok (x s).1, (x s).2) := rfl

theorem outcome_of_ok {x : Eval Outcome} {s s' : State} {o : Outcome} (h : x s = (.ok o, s')) :
    Check.outcome x s = (o, s') := by
  have hrun : x.run s = (.ok o, s') := h
  unfold Check.outcome
  simp only [bind, StateT.bind, hrun]
  rfl

theorem outcome_of_error {x : Eval Outcome} {s s' : State} {o : Outcome}
    (h : x s = (.error o, s')) : Check.outcome x s = (o, s') := by
  have hrun : x.run s = (.error o, s') := h
  unfold Check.outcome
  simp only [bind, StateT.bind, hrun]
  rfl

/-- The outcome of an evaluation that came to its end or was ended early. -/
def outcomeOf : Except Outcome Outcome → Outcome
  | .ok o => o
  | .error o => o

theorem outcome_apply (x : Eval Outcome) (s : State) :
    Check.outcome x s = (outcomeOf (x s).1, (x s).2) := by
  rcases hxs : x s with ⟨o | o, s'⟩
  · exact outcome_of_error hxs
  · exact outcome_of_ok hxs

theorem within_apply (domain : String) (x : StateM State Outcome) (s : State) :
    Check.within domain x s = ((x { s with chain := domain :: s.chain }).1,
      { (x { s with chain := domain :: s.chain }).2 with
        chain := (x { s with chain := domain :: s.chain }).2.chain.tail }) := rfl

/-- Evaluates a policy of a domain as it was read. -/
def Check.evaluateRead (c : Check) (recur : String → StateM State Outcome) (domain : String) :
    Except Fault Record → Eval Outcome
  | .error _ => throw .permError
  | .ok record => do return ← within domain (outcome (c.evaluateRecord recur domain record))

/-- Evaluates the policy of a domain without a look at the chain. -/
def Check.evaluatePolicy (c : Check) (recur : String → StateM State Outcome) (domain : String) :
    Eval Outcome := do
  match ← c.policyText domain with
  | none => return .none
  | some text => c.evaluateRead recur domain (Record.ofText text)

theorem evaluateDomain_apply (c : Check) (recur : String → StateM State Outcome) (domain : String)
    (s : State) : c.evaluateDomain recur domain s =
      if s.chain.contains domain then (.error .permError, s)
      else c.evaluatePolicy recur domain s := by
  have hget : (get : Eval State) s = (.ok s, s) := rfl
  unfold Check.evaluateDomain
  rw [bind_of_ok hget]
  by_cases h : s.chain.contains domain = true
  · rw [if_pos h, if_pos h]
    rfl
  · rw [if_neg h, if_neg h]
    rfl

variable (c : Check) (w : Weight) (price : Nat)

/-- How many of the counted terms were within the limit. -/
def Check.charged (s : State) : Nat :=
  min s.counted c.limit

/-- **What may happen between two states**: lookups and counted terms are added, and but for what is
free the counted terms pay for the lookups. -/
structure Spends (free : Nat) (s s' : State) : Prop where
  grows : s.session.history <:+ s'.session.history
  counts : s.counted ≤ s'.counted
  pays : w.total s'.session.history + price * c.charged s ≤
    w.total s.session.history + price * c.charged s' + free

/-- What a computation may spend, wherever it begins. -/
def Costs (free : Nat) (x : State → β × State) : Prop :=
  ∀ s, Spends c w price free s (x s).2

variable {c w price} {free free' : Nat}

theorem Spends.refl (s : State) : Spends c w price 0 s s :=
  ⟨List.suffix_rfl, Nat.le_refl _, Nat.le_refl _⟩

theorem Spends.trans {s s' s'' : State} (h : Spends c w price free s s')
    (h' : Spends c w price free' s' s'') : Spends c w price (free + free') s s'' where
  grows := h.grows.trans h'.grows
  counts := Nat.le_trans h.counts h'.counts
  pays := by
    have h₁ := h.pays
    have h₂ := h'.pays
    omega

theorem Spends.mono {s s' : State} (h : Spends c w price free s s') (hfree : free ≤ free') :
    Spends c w price free' s s' :=
  ⟨h.grows, h.counts, Nat.le_trans h.pays (Nat.add_le_add_left hfree _)⟩

theorem Costs.mono {x : State → β × State} (h : Costs c w price free x) (hfree : free ≤ free') :
    Costs c w price free' x := fun s => (h s).mono hfree

theorem costs_pure (a : α) : Costs c w price 0 (pure a : Eval α) := Spends.refl

theorem costs_throw (e : Outcome) : Costs c w price 0 (throw e : Eval α) := Spends.refl

theorem Costs.bind {x : Eval α} {f : α → Eval β} (hx : Costs c w price free x)
    (hf : ∀ a, Costs c w price free' (f a)) : Costs c w price (free + free') (x >>= f) := by
  intro s
  have hs := hx s
  rcases hxs : x s with ⟨a, s'⟩
  rw [hxs] at hs
  cases a with
  | ok a =>
    rw [bind_of_ok hxs]
    exact hs.trans (hf a s')
  | error e =>
    rw [bind_of_error hxs]
    exact hs.mono (Nat.le_add_right _ _)

theorem Costs.lift {x : StateM State α} (hx : Costs c w price free x) :
    Costs c w price free (liftM x : Eval α) := hx

theorem Costs.outcome {x : Eval Outcome} (hx : Costs c w price free x) :
    Costs c w price free (Check.outcome x) := by
  intro s
  rw [outcome_apply]
  exact hx s

/-! ## Counting -/

/-- A term that the limit does not allow ends the evaluation, and changes nothing but the count. -/
theorem count_of_limit_le {s : State} (h : c.limit ≤ s.counted) :
    c.count s = (.error .permError, { s with counted := s.counted + 1 }) :=
  if_pos (Nat.lt_succ_of_le h)

theorem count_of_lt_limit {s : State} (h : s.counted < c.limit) :
    c.count s = (.ok (), { s with counted := s.counted + 1 }) :=
  if_neg (Nat.not_lt_of_le h)

/-- **A counted term pays** for what it spends, up to the price. -/
theorem Costs.counted {x : Eval α} (hx : Costs c w price price x) :
    Costs c w price 0 (c.count >>= fun _ => x) := by
  intro s
  by_cases h : s.counted < c.limit
  · rw [bind_of_ok (count_of_lt_limit h)]
    have hs := hx { s with counted := s.counted + 1 }
    have hcharged : c.charged { s with counted := s.counted + 1 } = c.charged s + 1 := by
      unfold Check.charged
      simp only
      omega
    refine ⟨hs.grows, Nat.le_trans (Nat.le_succ _) hs.counts, ?_⟩
    have hpays := hs.pays
    rw [hcharged, Nat.mul_add] at hpays
    simp only at hpays ⊢
    omega
  · rw [bind_of_error (count_of_limit_le (Nat.le_of_not_lt h))]
    have hcharged : c.charged { s with counted := s.counted + 1 } = c.charged s := by
      unfold Check.charged
      simp only
      omega
    refine ⟨List.suffix_rfl, Nat.le_succ _, ?_⟩
    rw [hcharged]
    exact Nat.le_refl _

/-! ## Lookups -/

/-- A lookup is started once, or not at all. -/
theorem history_resolve (ctx : Dns.Context) (q : Dns.Query) (ask : List Dns.Query → Dns.Response α)
    (s : Dns.Session) : (ctx.resolve q ask s).2.history = s.history ∨
      (ctx.resolve q ask s).2.history = q :: s.history := by
  unfold Dns.Context.resolve
  split
  · exact Or.inl rfl
  · exact Or.inr rfl

theorem costs_lookup (q : Dns.Query) (ask : List Dns.Query → Dns.Response (List α)) :
    Costs c w price (w.of q) (Check.lookup (c.context.resolve q ask)) := by
  intro s
  have hsession : (Check.lookup (c.context.resolve q ask) s).2 =
      { s with session := (c.context.resolve q ask s.session).2 } := rfl
  rw [hsession]
  rcases history_resolve c.context q ask s.session with h | h
  · refine ⟨?_, Nat.le_refl _, ?_⟩
    · simp only [h, List.suffix_rfl]
    · rw [h]
      exact Nat.le_add_right _ _
  · refine ⟨?_, Nat.le_refl _, ?_⟩
    · rw [h]
      exact List.suffix_cons _ _
    · have hcharged : c.charged { s with session := (c.context.resolve q ask s.session).2 } =
          c.charged s := rfl
      rw [h, Weight.total, hcharged]
      omega

theorem costs_addresses (name : String) : Costs c w price w.ip (c.addresses name) :=
  costs_lookup (.ip name) _

theorem costs_exchanges (name : String) : Costs c w price w.mx (c.exchanges name) :=
  costs_lookup (.mx name) _

theorem costs_policyText (domain : String) : Costs c w price w.txt (c.policyText domain) := by
  unfold Check.policyText
  show Costs c w price (w.of (.txt domain) + 0) _
  refine Costs.bind (costs_lookup (.txt domain) _) fun texts => ?_
  split
  · exact costs_pure _
  · exact costs_pure _
  · exact costs_throw _

theorem costs_expand (domain spec : String) : Costs c w price 0 (c.expand domain spec) := by
  unfold Check.expand
  split
  · exact costs_pure _
  · exact costs_throw _

theorem costs_target (domain : String) (spec : Option String) :
    Costs c w price 0 (c.target domain spec) := by
  cases spec with
  | none => exact costs_pure _
  | some spec => exact costs_expand domain spec

theorem costs_anyHostNear (lengths : Lengths) (hosts : List Dns.Exchange) :
    Costs c w price (hosts.length * w.ip) (c.anyHostNear lengths hosts) := by
  induction hosts with
  | nil => exact (costs_pure false).mono (Nat.zero_le _)
  | cons x hosts ih =>
    rw [List.length_cons, Nat.succ_mul, Nat.add_comm]
    refine Costs.bind (costs_addresses x.host) fun found => ?_
    split
    · exact (costs_pure true).mono (Nat.zero_le _)
    · exact ih

/-! ## Policies -/

theorem costs_includeMatch (o : Outcome) : Costs c w price 0 (Check.includeMatch o) := by
  cases o with
  | pass => exact costs_pure _
  | fail => exact costs_pure _
  | softFail => exact costs_pure _
  | neutral => exact costs_pure _
  | none => exact costs_throw _
  | tempError => exact costs_throw _
  | permError => exact costs_throw _

variable {recur : String → StateM State Outcome}

/-- The evaluation of another domain in the place of a name. -/
theorem costs_recur (hrecur : ∀ d, Costs c w price w.txt (recur d)) (domain spec : String)
    {f : Outcome → Eval α} (hf : ∀ o, Costs c w price 0 (f o)) :
    Costs c w price w.txt (do
      let name ← c.expand domain spec
      f (← recur name) : Eval α) := by
  show Costs c w price (w.txt + 0) _
  rw [Nat.add_comm]
  refine Costs.bind (costs_expand domain spec) fun name => ?_
  exact Costs.bind (Costs.lift (hrecur name)) hf

/-- The addresses of a name. -/
theorem costs_addressesOf (hw : w.Fair price) {x : Eval String} (hx : Costs c w price 0 x)
    (f : List Ip.Address → Bool) :
    Costs c w price price (do
      let name ← x
      let found ← c.addresses name
      return f found : Eval Bool) := by
  have hspent : Costs c w price (0 + (w.ip + 0)) (do
      let name ← x
      let found ← c.addresses name
      return f found : Eval Bool) :=
    Costs.bind hx fun name => Costs.bind (costs_addresses name) fun found => costs_pure _
  apply hspent.mono
  rw [Nat.zero_add]
  exact hw.ip

/-- The hosts that take mail for a name, and the addresses of as many of them as may be asked
for. -/
theorem costs_exchangesOf (hw : w.Fair price) {x : Eval String} (hx : Costs c w price 0 x)
    (lengths : Lengths) :
    Costs c w price price (do
      let name ← x
      let hosts ← c.exchanges name
      if maxExchanges < hosts.length then throw .permError
      c.anyHostNear lengths (hosts.mergeSort fun x y => x.preference ≤ y.preference) :
        Eval Bool) := by
  have hspent : Costs c w price (0 + (w.mx + maxExchanges * w.ip)) (do
      let name ← x
      let hosts ← c.exchanges name
      if maxExchanges < hosts.length then throw .permError
      c.anyHostNear lengths (hosts.mergeSort fun x y => x.preference ≤ y.preference) :
        Eval Bool) := by
    refine Costs.bind hx fun name => Costs.bind (costs_exchanges name) fun hosts => ?_
    by_cases hmany : maxExchanges < hosts.length
    · rw [if_pos hmany]
      exact (costs_throw .permError).mono (Nat.zero_le _)
    · rw [if_neg hmany]
      apply (costs_anyHostNear lengths _).mono
      rw [List.length_mergeSort]
      exact Nat.mul_le_mul_right _ (Nat.le_of_not_lt hmany)
  apply hspent.mono
  rw [Nat.zero_add]
  exact hw.mx

/-- **A mechanism pays for all that it starts.** -/
theorem costs_isMatch (hw : w.Fair price) (hrecur : ∀ d, Costs c w price w.txt (recur d))
    (domain : String) (m : Mechanism) : Costs c w price 0 (c.isMatch recur domain m) := by
  cases m with
  | all => exact costs_pure _
  | ip4 net => exact costs_pure _
  | ip6 net => exact costs_pure _
  | pointer spec => exact Costs.counted ((costs_pure _).mono (Nat.zero_le _))
  | included spec =>
    exact Costs.counted ((costs_recur hrecur domain spec costs_includeMatch).mono hw.txt)
  | existing spec =>
    exact Costs.counted (costs_addressesOf hw (costs_expand domain spec)
      fun found => ! found.isEmpty)
  | address spec lengths =>
    exact Costs.counted (costs_addressesOf hw (costs_target domain spec)
      fun found => found.any (Check.isNear c.client lengths))
  | exchange spec lengths =>
    exact Costs.counted (costs_exchangesOf hw (costs_target domain spec) lengths)

theorem costs_firstMatch (hw : w.Fair price) (hrecur : ∀ d, Costs c w price w.txt (recur d))
    (domain : String) (ds : List Directive) :
    Costs c w price 0 (c.firstMatch recur domain ds) := by
  induction ds with
  | nil => exact costs_pure none
  | cons d ds ih =>
    show Costs c w price (0 + 0) _
    refine Costs.bind (costs_isMatch hw hrecur domain d.mechanism) fun found => ?_
    cases found with
    | true => exact costs_pure _
    | false => exact ih

/-- **A policy pays for all that it starts**, and so does its redirect. -/
theorem costs_evaluateRecord (hw : w.Fair price) (hrecur : ∀ d, Costs c w price w.txt (recur d))
    (domain : String) (record : Record) :
    Costs c w price 0 (c.evaluateRecord recur domain record) := by
  show Costs c w price (0 + 0) _
  refine Costs.bind (costs_firstMatch hw hrecur domain record.directives) fun found => ?_
  cases found with
  | some q => exact costs_pure _
  | none =>
    cases record.redirect with
    | none => exact costs_pure _
    | some spec =>
      exact Costs.counted ((costs_recur hrecur domain spec fun o => costs_pure _).mono hw.txt)

theorem costs_within {x : StateM State Outcome} (hx : Costs c w price 0 x) (domain : String) :
    Costs c w price 0 (Check.within domain x) := by
  intro s
  have hs := hx { s with chain := domain :: s.chain }
  exact ⟨hs.grows, hs.counts, hs.pays⟩

/-- One step down the chain: the text of the policy is free. -/
theorem costs_evaluateDomain (hw : w.Fair price) (hrecur : ∀ d, Costs c w price w.txt (recur d))
    (domain : String) : Costs c w price w.txt (c.evaluateDomain recur domain) := by
  have hget : Costs c w price 0 (get : Eval State) := Spends.refl
  rw [← Nat.zero_add w.txt]
  unfold Check.evaluateDomain
  refine Costs.bind hget fun s => ?_
  by_cases hchain : s.chain.contains domain = true
  · rw [if_pos hchain]
    exact (costs_throw .permError).mono (Nat.zero_le _)
  · rw [if_neg hchain]
    show Costs c w price (w.txt + 0) _
    refine Costs.bind (costs_policyText domain) fun text => ?_
    cases text with
    | none => exact costs_pure _
    | some text =>
      cases hrecord : Record.ofText text with
      | error fault =>
        simp only [hrecord]
        exact costs_throw _
      | ok record =>
        simp only [hrecord]
        have hspent := (costs_evaluateRecord hw hrecur domain record).outcome
        exact Costs.lift (costs_within hspent domain)

/-- **An evaluation pays for all lookups but the first**, at any depth. -/
theorem costs_evaluate (hw : w.Fair price) (depth : Nat) (domain : String) :
    Costs c w price w.txt (c.evaluate depth domain) := by
  induction depth generalizing domain with
  | zero =>
    intro s
    exact (Spends.refl s).mono (Nat.zero_le _)
  | succ depth ih => exact (costs_evaluateDomain hw ih domain).outcome

end MailScreen.Spf
