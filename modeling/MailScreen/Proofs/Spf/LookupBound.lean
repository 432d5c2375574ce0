import MailScreen.Proofs.Spf.Cost
import Mathlib.Logic.Function.Iterate

/-!
# Policies cannot make a check go on

Whoever writes policies decides what is evaluated: policies include each other and redirect to each
other, and macros make new names without end. What bounds a check is the count of the terms that
cause lookups, for any resolver and whatever it answers.

* `unfolding_congr`: the evaluation of a domain enters another one only behind a counted term.
* `iterate_unfolding`: so the recursion is left after as many steps as the limit allows and one
  more.
* `isMatch_of_limit_le`, `evaluateRecord_of_limit_le`: a term beyond the limit starts no lookup.
* `check_bounded`: with a limit of `n` a check ends and starts at most `1 + n` lookups of texts, `n`
  of hosts that take mail, `10 * n` of addresses, and `1 + 11 * n` in all.
-/

namespace MailScreen.Spf

variable {α β : Type} {c : Check} {k : Nat}

/-! ## Where another domain is entered -/

/-- One step of the recursion: the evaluation of a domain, with another one in the place of the
evaluations that it enters. -/
def Check.unfolding (c : Check) (recur : String → StateM State Outcome) (domain : String) :
    StateM State Outcome :=
  Check.outcome (c.evaluateDomain recur domain)

/-- Two computations do the same wherever at least `k` terms were counted. -/
def AgreeFrom (k : Nat) (x y : State → β) : Prop :=
  ∀ s, k ≤ s.counted → x s = y s

theorem AgreeFrom.refl (x : State → β) : AgreeFrom k x x := fun _ _ => rfl

/-- The weight of a computation of which only the count matters. -/
def Weight.zero : Weight := ⟨0, 0, 0⟩

theorem Weight.fair_zero : Weight.zero.Fair 0 := ⟨Nat.le_refl 0, Nat.le_refl 0, Nat.le_refl 0⟩

/-- A computation that never takes back a count. -/
abbrev Counts (c : Check) (x : State → β × State) : Prop := Costs c .zero 0 0 x

theorem AgreeFrom.bind {x y : Eval α} {f g : α → Eval β} (hy : Counts c y)
    (hxy : AgreeFrom k x y) (hfg : ∀ a, AgreeFrom k (f a) (g a)) :
    AgreeFrom k (x >>= f) (y >>= g) := by
  intro s hs
  have hcounts := (hy s).counts
  rcases hys : y s with ⟨a, s'⟩
  have hxs := (hxy s hs).trans hys
  rw [hys] at hcounts
  cases a with
  | ok a =>
    rw [bind_of_ok hxs, bind_of_ok hys]
    exact hfg a s' (Nat.le_trans hs hcounts)
  | error e => rw [bind_of_error hxs, bind_of_error hys]

theorem AgreeFrom.outcome {x y : Eval Outcome} (h : AgreeFrom k x y) :
    AgreeFrom k (Check.outcome x) (Check.outcome y) := by
  intro s hs
  rcases hys : y s with ⟨a, s'⟩
  have hxs := (h s hs).trans hys
  cases a with
  | ok o => rw [outcome_of_ok hxs, outcome_of_ok hys]
  | error o => rw [outcome_of_error hxs, outcome_of_error hys]

theorem AgreeFrom.within {x y : StateM State Outcome} (h : AgreeFrom k x y) (domain : String) :
    AgreeFrom k (Check.within domain x) (Check.within domain y) := by
  intro s hs
  rw [within_apply, within_apply, h { s with chain := domain :: s.chain } hs]

variable {f g : String → StateM State Outcome}

/-- **Behind a counted term** only states within the limit matter, and one term more is counted. -/
theorem agreeFrom_counted {x y : Eval α}
    (h : ∀ s, k < s.counted → s.counted ≤ c.limit → x s = y s) :
    AgreeFrom k (c.count >>= fun _ => x) (c.count >>= fun _ => y) := by
  intro s hs
  by_cases hlimit : s.counted < c.limit
  · rw [bind_of_ok (count_of_lt_limit hlimit), bind_of_ok (count_of_lt_limit hlimit)]
    exact h _ (Nat.lt_succ_of_le hs) hlimit
  · rw [bind_of_error (count_of_limit_le (Nat.le_of_not_lt hlimit)),
      bind_of_error (count_of_limit_le (Nat.le_of_not_lt hlimit))]

/-- The evaluation of another domain depends on that evaluation only in the state at hand. -/
theorem recur_congr {s : State} (h : ∀ d, f d s = g d s) (domain spec : String)
    (next : Outcome → Eval α) :
    (do let name ← c.expand domain spec; next (← f name) : Eval α) s =
      (do let name ← c.expand domain spec; next (← g name) : Eval α) s := by
  unfold Check.expand
  cases (c.facts domain).expand? spec with
  | none => rfl
  | some name =>
    show ((liftM (f name) : Eval Outcome) >>= next) s = ((liftM (g name) : Eval Outcome) >>= next) s
    rw [bind_of_ok (lift_apply (f name) s), bind_of_ok (lift_apply (g name) s), h name]

section Congr

variable (hg : ∀ d, Counts c (g d))
  (hfg : ∀ d s, k < s.counted → s.counted ≤ c.limit → f d s = g d s)

include hfg

theorem isMatch_congr (domain : String) (m : Mechanism) :
    AgreeFrom k (c.isMatch f domain m) (c.isMatch g domain m) := by
  cases m with
  | included spec =>
    exact agreeFrom_counted fun s hk hlimit =>
      recur_congr (fun d => hfg d s hk hlimit) domain spec Check.includeMatch
  | all => unfold Check.isMatch; exact AgreeFrom.refl _
  | ip4 net => unfold Check.isMatch; exact AgreeFrom.refl _
  | ip6 net => unfold Check.isMatch; exact AgreeFrom.refl _
  | address spec lengths => unfold Check.isMatch; exact AgreeFrom.refl _
  | exchange spec lengths => unfold Check.isMatch; exact AgreeFrom.refl _
  | pointer spec => unfold Check.isMatch; exact AgreeFrom.refl _
  | existing spec => unfold Check.isMatch; exact AgreeFrom.refl _

include hg

theorem firstMatch_congr (domain : String) (ds : List Directive) :
    AgreeFrom k (c.firstMatch f domain ds) (c.firstMatch g domain ds) := by
  induction ds with
  | nil => exact AgreeFrom.refl _
  | cons d ds ih =>
    refine AgreeFrom.bind (costs_isMatch Weight.fair_zero hg domain d.mechanism)
      (isMatch_congr hfg domain d.mechanism) fun found => ?_
    cases found with
    | true => exact AgreeFrom.refl _
    | false => exact ih

theorem evaluateRecord_congr (domain : String) (record : Record) :
    AgreeFrom k (c.evaluateRecord f domain record) (c.evaluateRecord g domain record) := by
  refine AgreeFrom.bind (costs_firstMatch Weight.fair_zero hg domain record.directives)
    (firstMatch_congr hg hfg domain record.directives) fun found => ?_
  cases found with
  | some q => exact AgreeFrom.refl _
  | none =>
    cases record.redirect with
    | none => exact AgreeFrom.refl _
    | some spec =>
      exact agreeFrom_counted fun s hk hlimit =>
        recur_congr (fun d => hfg d s hk hlimit) domain spec
          fun o => pure (Check.redirectOutcome o)

/-- **The evaluation of a domain enters another one only behind a counted term**, so it does not
depend on what that does where no more terms are counted, or more than the limit. -/
theorem unfolding_congr (domain : String) :
    AgreeFrom k (c.unfolding f domain) (c.unfolding g domain) := by
  apply AgreeFrom.outcome
  have hget : Counts c (get : Eval State) := Spends.refl
  refine AgreeFrom.bind hget (AgreeFrom.refl _) fun s => ?_
  by_cases hchain : s.chain.contains domain = true
  · rw [if_pos hchain, if_pos hchain]
    intro s hs
    have hthrow : (throw .permError : Eval PUnit) s = (.error .permError, s) := rfl
    rw [bind_of_error hthrow, bind_of_error hthrow]
  · rw [if_neg hchain, if_neg hchain]
    refine AgreeFrom.bind (costs_policyText domain) (AgreeFrom.refl _) fun text => ?_
    cases text with
    | none => exact AgreeFrom.refl _
    | some text =>
      cases hrecord : Record.ofText text with
      | error fault =>
        simp only [hrecord]
        exact AgreeFrom.refl _
      | ok record =>
        simp only [hrecord]
        intro s hs
        rw [lift_apply, lift_apply,
          (evaluateRecord_congr hg hfg domain record).outcome.within domain s hs]

end Congr

/-! ## Where the recursion ends -/

/-- As long as the depth exceeds what the limit leaves, it does not matter what is put in the place
of a deeper evaluation. -/
theorem iterate_unfolding_apply (base : String → StateM State Outcome) (depth : Nat)
    (domain : String) (s : State) (hlimit : s.counted ≤ c.limit)
    (hdepth : c.limit < s.counted + depth) :
    (c.unfolding^[depth] base) domain s = c.evaluate depth domain s := by
  induction depth generalizing domain s with
  | zero => exact absurd hdepth (Nat.not_lt_of_le hlimit)
  | succ depth ih =>
    rw [Function.iterate_succ_apply']
    refine unfolding_congr (costs_evaluate Weight.fair_zero depth) (fun d s' hk hle => ?_) domain s
      (Nat.le_refl s.counted)
    exact ih d s' hle (by omega)

/-- **The recursion is left after as many steps as the limit allows and one more**, wherever it
begins. -/
theorem iterate_unfolding (c : Check) (base : String → StateM State Outcome) :
    c.unfolding^[c.limit + 1] base = c.evaluate (c.limit + 1) := by
  funext domain s
  rw [Function.iterate_succ_apply']
  refine unfolding_congr (costs_evaluate Weight.fair_zero c.limit) (fun d s' hk hle => ?_) domain s
    (Nat.zero_le s.counted)
  exact iterate_unfolding_apply base c.limit d s' hle (by omega)

/-! ## Terms beyond the limit -/

/-- Whether a mechanism may cause lookups. -/
def Mechanism.isCounted : Mechanism → Bool
  | .all => false
  | .ip4 _ => false
  | .ip6 _ => false
  | _ => true

theorem counted_of_limit_le {s : State} (hs : c.limit ≤ s.counted) (x : Eval α) :
    (c.count >>= fun _ => x) s = (.error .permError, { s with counted := s.counted + 1 }) := by
  rw [bind_of_error (count_of_limit_le hs)]

/-- **A mechanism beyond the limit ends the evaluation**, and changes nothing but the count. -/
theorem isMatch_of_limit_le (recur : String → StateM State Outcome) (domain : String)
    {m : Mechanism} (hm : m.isCounted = true) {s : State} (hs : c.limit ≤ s.counted) :
    c.isMatch recur domain m s = (.error .permError, { s with counted := s.counted + 1 }) := by
  cases m with
  | all => cases hm
  | ip4 net => cases hm
  | ip6 net => cases hm
  | included spec => exact counted_of_limit_le hs _
  | address spec lengths => exact counted_of_limit_le hs _
  | exchange spec lengths => exact counted_of_limit_le hs _
  | pointer spec => exact counted_of_limit_le hs _
  | existing spec => exact counted_of_limit_le hs _

/-- **A redirect beyond the limit** does so too. -/
theorem evaluateRecord_of_limit_le (recur : String → StateM State Outcome) (domain : String)
    {record : Record} {spec : String} (hredirect : record.redirect = some spec) {s s' : State}
    (hfirst : c.firstMatch recur domain record.directives s = (.ok none, s'))
    (hs : c.limit ≤ s'.counted) :
    c.evaluateRecord recur domain record s =
      (.error .permError, { s' with counted := s'.counted + 1 }) := by
  unfold Check.evaluateRecord
  rw [bind_of_ok hfirst]
  simp only [hredirect]
  exact counted_of_limit_le hs _

/-! ## A whole check -/

/-- What a check starts, by weight. -/
theorem total_run_le (c : Check) (domain : String) (session : Dns.Session) :
    ∃ started, (c.run domain session).2.history = started ++ session.history ∧
      ∀ (w : Weight) (price : Nat), w.Fair price → w.total started ≤ w.txt + price * c.limit := by
  obtain ⟨started, hstarted⟩ :=
    (costs_evaluate Weight.fair_zero (c.limit + 1) domain ⟨session, 0, []⟩).grows
  refine ⟨started, hstarted.symm, fun w price hw => ?_⟩
  have hpays := (costs_evaluate (c := c) hw (c.limit + 1) domain ⟨session, 0, []⟩).pays
  rw [← hstarted, Weight.total_append] at hpays
  have hcharged := Nat.mul_le_mul_left price (Nat.min_le_right
    (c.evaluate (c.limit + 1) domain ⟨session, 0, []⟩).2.counted c.limit)
  have hzero : c.charged ⟨session, 0, []⟩ = 0 := Nat.zero_min _
  rw [hzero] at hpays
  unfold Check.charged at hpays
  simp only at hpays
  omega

/-- Whether a lookup is for texts. -/
def isText : Dns.Query → Bool
  | .txt _ => true
  | _ => false

/-- Whether a lookup is for hosts that take mail. -/
def isExchange : Dns.Query → Bool
  | .mx _ => true
  | _ => false

/-- Whether a lookup is for addresses. -/
def isAddress : Dns.Query → Bool
  | .ip _ => true
  | _ => false

theorem Weight.total_eq_countP {w : Weight} {p : Dns.Query → Bool}
    (h : ∀ q, w.of q = if p q then 1 else 0) (queries : List Dns.Query) :
    w.total queries = queries.countP p := by
  induction queries with
  | nil => rfl
  | cons q queries ih => rw [total, List.countP_cons, ih, h q, Nat.add_comm]

/-- The check that `check` makes. -/
def Check.ofArguments (r : Dns.Resolver) (ctx : Dns.Context) (limit : Nat) (client : Ip.Address)
    (domain sender helo : String) : Check :=
  let parts := senderParts sender (DomainName.normalize domain)
  ⟨r, ctx, limit, client.canonical, parts.1, parts.2, DomainName.normalize helo⟩

theorem check_eq (r : Dns.Resolver) (ctx : Dns.Context) (limit : Nat) (client : Ip.Address)
    (domain sender helo : String) : check r ctx limit client domain sender helo =
      (Check.ofArguments r ctx limit client domain sender helo).run
        (DomainName.normalize domain) := rfl

/-- A check that evaluates by some other means. -/
def runBy (evaluate : String → StateM State Outcome) (domain : String) :
    StateM Dns.Session Outcome := fun session =>
  let (o, s) := evaluate domain ⟨session, 0, []⟩
  (o, s.session)

theorem runBy_iterate (c : Check) (base : String → StateM State Outcome) (domain : String) :
    runBy (c.unfolding^[c.limit + 1] base) domain = c.run domain :=
  congrArg (fun evaluate => runBy evaluate domain) (iterate_unfolding c base)

/-- **A check is bounded**, whatever is published. It ends: the recursion is gone when it is
unfolded once more than the limit says, and what would come after that is never reached. The lookups
that it starts are bounded by kind and in all. And a term beyond the limit starts no lookup. -/
theorem check_bounded (r : Dns.Resolver) (ctx : Dns.Context) (n : Nat) (client : Ip.Address)
    (domain sender helo : String) (session : Dns.Session) :
    (∀ base, runBy ((Check.ofArguments r ctx n client domain sender helo).unfolding^[n + 1] base)
        (DomainName.normalize domain) session = check r ctx n client domain sender helo session) ∧
    (∃ started,
      (check r ctx n client domain sender helo session).2.history = started ++ session.history ∧
      started.countP isText ≤ 1 + n ∧ started.countP isExchange ≤ n ∧
      started.countP isAddress ≤ 10 * n ∧ started.length ≤ 1 + 11 * n) ∧
    (∀ (c : Check) (recur : String → StateM State Outcome) (d : String) (m : Mechanism) (s : State),
      m.isCounted = true → c.limit ≤ s.counted →
        c.isMatch recur d m s = (.error .permError, { s with counted := s.counted + 1 })) ∧
    (∀ (c : Check) (recur : String → StateM State Outcome) (d : String) (record : Record)
      (spec : String) (s s' : State), record.redirect = some spec →
      c.firstMatch recur d record.directives s = (.ok none, s') → c.limit ≤ s'.counted →
        c.evaluateRecord recur d record s =
          (.error .permError, { s' with counted := s'.counted + 1 })) := by
  rw [check_eq]
  refine ⟨fun base => ?_, ?_, fun c recur d m s hm hs => isMatch_of_limit_le recur d hm hs,
    fun c recur d record spec s s' hredirect hfirst hs =>
      evaluateRecord_of_limit_le recur d hredirect hfirst hs⟩
  · exact congrFun (runBy_iterate (Check.ofArguments r ctx n client domain sender helo) base
      (DomainName.normalize domain)) session
  · obtain ⟨started, hstarted, hle⟩ := total_run_le
      (Check.ofArguments r ctx n client domain sender helo) (DomainName.normalize domain) session
    refine ⟨started, hstarted, ?_, ?_, ?_, ?_⟩
    · rw [← Weight.total_eq_countP (w := ⟨1, 0, 0⟩) fun q => by cases q <;> rfl]
      have h := hle ⟨1, 0, 0⟩ 1 ⟨by decide, by decide, by decide⟩
      rwa [Nat.one_mul] at h
    · rw [← Weight.total_eq_countP (w := ⟨0, 1, 0⟩) fun q => by cases q <;> rfl]
      have h := hle ⟨0, 1, 0⟩ 1 ⟨by decide, by decide, by decide⟩
      rwa [Nat.one_mul, Nat.zero_add] at h
    · rw [← Weight.total_eq_countP (w := ⟨0, 0, 1⟩) fun q => by cases q <;> rfl]
      have h := hle ⟨0, 0, 1⟩ 10 ⟨by decide, by decide, by decide⟩
      rwa [Nat.zero_add] at h
    · have h := hle ⟨1, 1, 1⟩ 11 ⟨by decide, by decide, by decide⟩
      rwa [Weight.total_eq_countP (p := fun _ => true) (fun q => by cases q <;> rfl),
        List.countP_true] at h

end MailScreen.Spf
