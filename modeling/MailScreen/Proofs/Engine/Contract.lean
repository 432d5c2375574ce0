import MailScreen.Dns.Zone
import MailScreen.Proofs.Engine.Run
import Mathlib.Data.List.Induction

/-!
# The contract of a check

Contributors are asked in order, and the first one that comes to a decision ends the check. What a
check comes to is made of the answers up to that one, or of all of them if there is none.

* `answers` asks all contributors, each of them once and in order, whatever the earlier ones
  decided; each of them sees what those before it have told and left in the stores.
* `run_of_ended` and `run_of_unended`: a run hears the answers up to the first decision, or all of
  them.
* `AuthSummary.ofSignals` is the summary of some signals: of each method the last one counts.
* `Comprises` says what a verdict and the state after the check are made of.
* `check_contract` is the contract of a whole check.
-/

namespace MailScreen

/-! ## Signals -/

namespace Signal

/-- What a signal says of the sender: the outcome and the domain. -/
def spf? : Signal → Option (Spf.Outcome × Option String)
  | spf outcome domain => some (outcome, domain)
  | _ => none

/-- What a signal says of the signatures. -/
def dkim? : Signal → Option Dkim.Outcome
  | dkim outcome => some outcome
  | _ => none

/-- What a signal says of the policy of the author: the outcome and the author's domain. -/
def dmarc? : Signal → Option (Dmarc.Outcome × String)
  | dmarc outcome author => some (outcome, author)
  | _ => none

/-- What the last of those signals says that say something of a method. -/
def last? {α : Type} (part : Signal → Option α) (signals : List Signal) : Option α :=
  (signals.filterMap part).getLast?

theorem last?_append {α : Type} (part : Signal → Option α) (signals : List Signal) (s : Signal) :
    last? part (signals ++ [s]) = (part s).or (last? part signals) := by
  rw [last?, last?, List.filterMap_append]
  cases h : part s <;> simp [h]

end Signal

/-- **The summary of some signals**: of each method the last signal counts, and without one there is
nothing to tell of the method. -/
def AuthSummary.ofSignals (signals : List Signal) : AuthSummary where
  spf := (Signal.last? Signal.spf? signals).elim "none" (·.1.name)
  spfDomain := (Signal.last? Signal.spf? signals).bind (·.2)
  dkim := (Signal.last? Signal.dkim? signals).elim "none" (·.result.name)
  dkimDomain := (Signal.last? Signal.dkim? signals).bind (·.domain)
  dmarc := (Signal.last? Signal.dmarc? signals).elim "none" (·.1.result.name)
  fromDomain := (Signal.last? Signal.dmarc? signals).map (·.2)

/-- What is taken down of some signals is summed up by the last one of each method. -/
theorem Findings.summary_foldl_record (signals : List Signal) :
    (signals.foldl record nothing).summary = .ofSignals signals := by
  induction signals using List.reverseRecOn with
  | nil => rfl
  | append_singleton signals s ih =>
    rw [List.foldl_append, AuthSummary.ofSignals]
    simp only [Signal.last?_append]
    cases s with
    | spf outcome domain => exact congrArg ({ · with spf := outcome.name, spfDomain := domain }) ih
    | dkim outcome =>
      exact congrArg ({ · with dkim := outcome.result.name, dkimDomain := outcome.domain }) ih
    | dmarc outcome author =>
      exact congrArg ({ · with dmarc := outcome.result.name, fromDomain := some author }) ih
    | suspiciousHelo => exact ih

/-! ## Answers -/

/-- What one contributor answered, and the stores as it left them. -/
structure Answer where
  name : String
  contribution : Contribution
  stores : Stores

namespace Answer

/-- The decision to end the check, if there is one. -/
def decision (a : Answer) : Option Decision := a.contribution.decision

/-- Whether what was to be checked could not be. -/
def isDegraded (a : Answer) : Bool := a.contribution.signal.any (·.isDegraded)

/-- The findings after the answer. -/
def addTo (a : Answer) (f : Findings) : Findings := a.contribution.signal.elim f f.record

end Answer

/-- Asks a contributor. -/
def Contributor.answer (c : Contributor) (task : Task) (f : Findings) (s : Stores) : Answer :=
  ⟨c.name, (c.evaluate task f s).1, (c.evaluate task f s).2⟩

namespace Engine

/-- What contributors answer, asked one after the other. -/
def answers (task : Task) : List Contributor → Findings → Stores → List Answer
  | [], _, _ => []
  | c :: cs, f, s =>
    let a := c.answer task f s
    a :: answers task cs (a.addTo f) a.stores

variable {task : Task}

theorem answers_cons (c : Contributor) (cs : List Contributor) (f : Findings) (s : Stores) :
    answers task (c :: cs) f s = c.answer task f s ::
      answers task cs ((c.answer task f s).addTo f) (c.answer task f s).stores := rfl

/-- Each contributor is asked once, in order. -/
theorem names_answers (cs : List Contributor) (f : Findings) (s : Stores) :
    (answers task cs f s).map (·.name) = cs.map (·.name) := by
  induction cs generalizing f s with
  | nil => rfl
  | cons c cs ih =>
    rw [answers_cons, List.map_cons, List.map_cons, ih]
    rfl

/-- What a contributor answers does not depend on the later ones. -/
theorem answers_take (n : Nat) (cs later : List Contributor) (f : Findings) (s : Stores) :
    (answers task cs f s).take n <+: answers task (cs.take n ++ later) f s := by
  induction n generalizing cs f s with
  | zero => exact List.nil_prefix
  | succ n ih =>
    cases cs with
    | nil => exact List.nil_prefix
    | cons c cs => exact List.prefix_cons_inj _ |>.mpr (ih cs _ _)

/-! ## Runs -/

/-- How far a check has come after one more answer. -/
def Progress.hear (p : Progress) (a : Answer) : Progress where
  stores := a.stores
  metrics := if a.isDegraded then p.metrics.recordError a.name else p.metrics
  findings := a.addTo p.findings
  score := if a.decision.isSome then a.contribution.points
    else saturated (p.score + a.contribution.points)
  reasons := p.reasons ++ a.contribution.reason.toList
  decision := a.decision

theorem advance_eq (p : Progress) (c : Contributor) :
    p.advance task c = p.hear (c.answer task p.findings p.stores) := rfl

variable {cs : List Contributor} {p : Progress}

/-- **A run ends with the first decision**, and hears nothing after it. -/
theorem run_of_ended {before after : List Answer} {k : Answer}
    (hgiven : answers task cs p.findings p.stores = before ++ k :: after)
    (hbefore : ∀ a ∈ before, a.decision = none) (hk : k.decision.isSome) :
    run task cs p = (before ++ [k]).foldl Progress.hear p := by
  induction before generalizing cs p with
  | nil =>
    cases cs with
    | nil => cases hgiven
    | cons c cs =>
      obtain ⟨rfl, -⟩ := List.cons.inj hgiven
      exact (run_of_decided hk).trans (advance_eq p c)
  | cons b before ih =>
    cases cs with
    | nil => cases hgiven
    | cons c cs =>
      obtain ⟨hb, hundecided⟩ := List.forall_mem_cons.mp hbefore
      obtain ⟨rfl, hrest⟩ := List.cons.inj hgiven
      rw [run_of_undecided hb, advance_eq]
      exact ih hrest hundecided

/-- **A run without a decision** hears all contributors. -/
theorem run_of_unended (h : ∀ a ∈ answers task cs p.findings p.stores, a.decision = none) :
    run task cs p = (answers task cs p.findings p.stores).foldl Progress.hear p := by
  induction cs generalizing p with
  | nil => rfl
  | cons c cs ih =>
    rw [answers_cons] at h ⊢
    obtain ⟨hc, hcs⟩ := List.forall_mem_cons.mp h
    rw [run_of_undecided hc, advance_eq]
    exact ih hcs

/-! ## What answers add up to -/

variable {as : List Answer}

theorem stores_hear (as : List Answer) (p : Progress) :
    (as.foldl Progress.hear p).stores = (as.getLast?.map (·.stores)).getD p.stores := by
  rcases List.eq_nil_or_concat as with rfl | ⟨as, a, rfl⟩
  · rfl
  · rw [List.concat_eq_append, List.foldl_append, List.getLast?_concat]
    rfl

theorem findings_hear (as : List Answer) (p : Progress) :
    (as.foldl Progress.hear p).findings =
      (as.filterMap (·.contribution.signal)).foldl Findings.record p.findings := by
  induction as generalizing p with
  | nil => rfl
  | cons a as ih =>
    rw [List.foldl_cons, ih, List.filterMap_cons]
    show List.foldl _ (a.contribution.signal.elim p.findings p.findings.record) _ = _
    cases a.contribution.signal <;> rfl

theorem reasons_hear (as : List Answer) (p : Progress) :
    (as.foldl Progress.hear p).reasons = p.reasons ++ as.filterMap (·.contribution.reason) := by
  induction as generalizing p with
  | nil => exact (List.append_nil _).symm
  | cons a as ih =>
    rw [List.foldl_cons, ih, List.filterMap_cons]
    show (p.reasons ++ a.contribution.reason.toList) ++ _ = _
    rw [List.append_assoc]
    cases a.contribution.reason <;> rfl

theorem metrics_hear (as : List Answer) (p : Progress) :
    (as.foldl Progress.hear p).metrics =
      (as.filter (·.isDegraded)).foldl (fun m a => m.recordError a.name) p.metrics := by
  induction as generalizing p with
  | nil => rfl
  | cons a as ih =>
    rw [List.foldl_cons, ih, List.filter_cons]
    show List.foldl _ (if a.isDegraded then p.metrics.recordError a.name else p.metrics) _ = _
    cases a.isDegraded <;> rfl

/-- The sum of the points from some score on, which at no time leaves the range of 32 bits. -/
def total (start : Int) (as : List Answer) : Int :=
  as.foldl (fun n a => saturated (n + a.contribution.points)) start

theorem unended_hear (h : ∀ a ∈ as, a.decision = none) (hp : p.decision = none) :
    (as.foldl Progress.hear p).decision = none ∧
      (as.foldl Progress.hear p).score = total p.score as := by
  induction as generalizing p with
  | nil => exact ⟨hp, rfl⟩
  | cons a as ih =>
    obtain ⟨ha, has⟩ := List.forall_mem_cons.mp h
    have hscore : (p.hear a).score = saturated (p.score + a.contribution.points) := by
      unfold Progress.hear
      simp [ha]
    rw [List.foldl_cons, total, List.foldl_cons, ← hscore]
    exact ih has ha

/-! ## Checks -/

/-- **What a check comes to is made of the answers that it heard**: the reasons in order, the
summary of the signals, of which the last of each method counts, the stores as the last of the
answers left them, and the count of those that could not check what they were to check. -/
structure Comprises (heard : List Answer) (s : State) (v : Verdict) (s' : State) : Prop where
  reasons : v.reasons = heard.filterMap (·.contribution.reason)
  auth : v.auth = .ofSignals (heard.filterMap (·.contribution.signal))
  stores : s'.stores = (heard.getLast?.map (·.stores)).getD s.stores
  failures : s'.metrics.failures =
    (heard.filter (·.isDegraded)).foldl (fun n a => n.increment a.name) s.metrics.failures

theorem failures_foldl (as : List Answer) (m : Metrics) :
    (as.foldl (fun m a => m.recordError a.name) m).failures =
      as.foldl (fun n a => n.increment a.name) m.failures := by
  induction as generalizing m with
  | nil => rfl
  | cons a as ih => exact ih (m.recordError a.name)

/-- What a check makes of its run. -/
def ending (e : Engine) (id : String) (s : State) (p : Progress) : Verdict × State :=
  (e.verdict id p, ⟨p.stores, p.metrics.recordDecision (e.verdict id p).decision
    (Time.elapsed s.stores.session.now p.stores.session.now)⟩)

variable {e : Engine} {mode : Mode} {ctx : Dns.Context} {q : Request} {timeOfDay : Int} {s : State}

theorem check_eq (e : Engine) (id : String) (mode : Mode) (ctx : Dns.Context) (q : Request)
    (timeOfDay : Int) (s : State) : e.check id mode ctx q timeOfDay s =
      e.ending id s (run (e.task mode ctx q timeOfDay) e.contributors
        (.start s.stores s.metrics)) := rfl

theorem comprises_ending (heard : List Answer) (id : String) :
    Comprises heard s (e.ending id s (heard.foldl Progress.hear (.start s.stores s.metrics))).1
      (e.ending id s (heard.foldl Progress.hear (.start s.stores s.metrics))).2 where
  reasons := reasons_hear heard _
  auth := (congrArg Findings.summary (findings_hear heard _)).trans
    (Findings.summary_foldl_record _)
  stores := stores_hear heard _
  failures := by
    show (heard.foldl Progress.hear (.start s.stores s.metrics)).metrics.failures = _
    rw [metrics_hear, failures_foldl]
    rfl

section Ended

variable {before after : List Answer} {k : Answer} {d : Decision}
  (hgiven : answers (e.task mode ctx q timeOfDay) e.contributors .nothing s.stores =
    before ++ k :: after)
  (hbefore : ∀ a ∈ before, a.decision = none) (hk : k.decision = some d) (id : String)

include hgiven hbefore hk

/-- A check that a contributor ends has its decision and its points. -/
theorem check_of_ended :
    (e.check id mode ctx q timeOfDay s).1.decision = d ∧
      (e.check id mode ctx q timeOfDay s).1.score = clampScore k.contribution.points ∧
      Comprises (before ++ [k]) s (e.check id mode ctx q timeOfDay s).1
        (e.check id mode ctx q timeOfDay s).2 := by
  have hended : k.decision.isSome := by rw [hk]; rfl
  rw [check_eq, run_of_ended hgiven hbefore hended]
  refine ⟨?_, ?_, comprises_ending (before ++ [k]) id⟩
  · show ((before ++ [k]).foldl Progress.hear _).decision.getD _ = d
    rw [List.foldl_append]
    show k.decision.getD _ = d
    rw [hk]
    rfl
  · show clampScore ((before ++ [k]).foldl Progress.hear _).score = _
    rw [List.foldl_append]
    show clampScore (if k.decision.isSome then _ else _) = _
    rw [if_pos hended]

/-- Whom an engine would ask after the one that ends a check makes no difference. -/
theorem check_of_later (later : List Contributor) :
    { e with contributors := e.contributors.take (before.length + 1) ++ later }.check id mode ctx q
      timeOfDay s = e.check id mode ctx q timeOfDay s := by
  have hended : k.decision.isSome := by rw [hk]; rfl
  let asked := e.contributors.take (before.length + 1) ++ later
  have hasked : (answers (e.task mode ctx q timeOfDay) e.contributors .nothing s.stores).take
      (before.length + 1) <+: answers (e.task mode ctx q timeOfDay) asked .nothing s.stores :=
    answers_take _ _ _ _ _
  rw [hgiven, List.take_length_add_append] at hasked
  obtain ⟨rest, hrest⟩ := hasked
  rw [List.append_assoc] at hrest
  have hrun : run (e.task mode ctx q timeOfDay) asked (.start s.stores s.metrics) =
      run (e.task mode ctx q timeOfDay) e.contributors (.start s.stores s.metrics) :=
    (run_of_ended hrest.symm hbefore hended).trans (run_of_ended hgiven hbefore hended).symm
  show e.ending id s (run (e.task mode ctx q timeOfDay) asked (.start s.stores s.metrics)) = _
  rw [check_eq, hrun]

end Ended

/-- A check that no contributor ends is decided by its score. -/
theorem check_of_unended
    (h : ∀ a ∈ answers (e.task mode ctx q timeOfDay) e.contributors .nothing s.stores,
      a.decision = none) (id : String) :
    let given := answers (e.task mode ctx q timeOfDay) e.contributors .nothing s.stores
    (e.check id mode ctx q timeOfDay s).1.decision = decide e.scoring (total 0 given) ∧
      (e.check id mode ctx q timeOfDay s).1.score = clampScore (total 0 given) ∧
      Comprises given s (e.check id mode ctx q timeOfDay s).1
        (e.check id mode ctx q timeOfDay s).2 := by
  intro given
  have hrun : run (e.task mode ctx q timeOfDay) e.contributors (.start s.stores s.metrics) =
      given.foldl Progress.hear (.start s.stores s.metrics) := run_of_unended h
  obtain ⟨hdecision, hscore⟩ := unended_hear (p := .start s.stores s.metrics) h rfl
  rw [check_eq, hrun]
  refine ⟨?_, congrArg clampScore hscore, comprises_ending given id⟩
  show (given.foldl Progress.hear _).decision.getD (decide e.scoring _) = _
  rw [hdecision, hscore]
  rfl

/-- The decision for a score is told by the thresholds alone. -/
theorem decide_iff (scoring : Config.Scoring) (score : Int) :
    let shown : Int := (clampScore score).val
    (decide scoring score = .reject ↔ scoring.rejectAt ≤ shown) ∧
      (decide scoring score = .quarantine ↔
        shown < scoring.rejectAt ∧ scoring.quarantineAt ≤ shown) ∧
      (decide scoring score = .accept ↔
        shown < scoring.rejectAt ∧ shown < scoring.quarantineAt) := by
  intro shown
  have hdecide : decide scoring score = if scoring.rejectAt ≤ shown then .reject
    else if scoring.quarantineAt ≤ shown then .quarantine else .accept := rfl
  rw [hdecide]
  rw [← Int.not_le, ← Int.not_le]
  by_cases hreject : scoring.rejectAt ≤ shown
  · simp [hreject]
  · by_cases hquarantine : scoring.quarantineAt ≤ shown
    · simp [hreject, hquarantine]
    · simp [hreject, hquarantine]

/-- The gates come first: the first of them leaves the greylist alone, and both leave the session
alone, so nothing is looked up before they have been asked. -/
theorem stores_of_gates {scheme : Dkim.Scheme} {reg : Registry} {r : Dns.Resolver} {c : Config}
    {extra : List Contributor} {f : Findings} {stores : Stores} {before after : List Answer}
    {k : Answer}
    (hgiven : answers task (standardContributors scheme reg r c ++ extra) f stores =
      before ++ k :: after) :
    (before = [] → k.stores.greylist = stores.greylist) ∧
      (before.length ≤ 1 → k.stores.session = stores.session) := by
  cases before with
  | nil =>
    obtain ⟨rfl, -⟩ := List.cons.inj hgiven
    exact ⟨fun _ => rfl, fun _ => rfl⟩
  | cons b before =>
    refine ⟨nofun, fun hlength => ?_⟩
    obtain ⟨rfl, hrest⟩ := List.cons.inj hgiven
    obtain rfl := List.eq_nil_of_length_eq_zero (Nat.le_zero.mp (Nat.le_of_succ_le_succ hlength))
    obtain ⟨rfl, -⟩ := List.cons.inj hrest
    rfl

/-- **The contract of a check.** Let the contributors of an engine that was built answer in order:
the two gates, the four checks and those that were added, each of them once. If there is a first one
that comes to a decision, the verdict has this decision and its points as the score; it is made of
the answers up to that one, and whoever would come later makes no difference. A rejection by the
first gate leaves the greylist alone, and if one of the gates ends the check nothing is looked up.
If no one comes to a decision, the verdict is made of all the answers, and the score that it tells
decides by the thresholds. -/
theorem check_contract {scheme : Dkim.Scheme} {reg : Registry} {r : Dns.Resolver}
    {keyText : String → Except String String} {extra : List Contributor} {c : Config} {e : Engine}
    (hbuild : build scheme reg r keyText extra c = .ok e) (id : String) (mode : Mode)
    (ctx : Dns.Context) (q : Request) (timeOfDay : Int) (s : State) :
    let given := answers (e.task mode ctx q timeOfDay)
      (standardContributors scheme reg r c ++ extra) .nothing s.stores
    let v := (e.check id mode ctx q timeOfDay s).1
    let s' := (e.check id mode ctx q timeOfDay s).2
    let shown : Int := v.score.val
    given.map (·.name) =
      ["rate_limit", "greylist", "spf", "dkim", "dmarc", "helo"] ++ extra.map (·.name) ∧
    (∀ before k after d, given = before ++ k :: after → (∀ a ∈ before, a.decision = none) →
      k.decision = some d →
        v.decision = d ∧ v.score = clampScore k.contribution.points ∧
        Comprises (before ++ [k]) s v s' ∧
        (∀ later, { e with
          contributors := e.contributors.take (before.length + 1) ++ later }.check id mode ctx q
            timeOfDay s = (v, s')) ∧
        (before = [] → s'.stores.greylist = s.stores.greylist) ∧
        (before.length ≤ 1 → s'.stores.session = s.stores.session)) ∧
    ((∀ a ∈ given, a.decision = none) →
      Comprises given s v s' ∧
      v.score = clampScore (total 0 given) ∧
      (v.decision = .reject ↔ c.scoring.rejectAt ≤ shown) ∧
      (v.decision = .quarantine ↔
        shown < c.scoring.rejectAt ∧ c.scoring.quarantineAt ≤ shown) ∧
      (v.decision = .accept ↔
        shown < c.scoring.rejectAt ∧ shown < c.scoring.quarantineAt)) := by
  intro given v s' shown
  have hcontributors := contributors_of_build hbuild
  have hgiven : answers (e.task mode ctx q timeOfDay) e.contributors .nothing s.stores = given := by
    rw [hcontributors]
  refine ⟨(names_answers _ _ _).trans (List.map_append ..), ?_, fun hunended => ?_⟩
  · intro before k after d hsplit hbefore hk
    have hended := hgiven.trans hsplit
    obtain ⟨hdecision, hscore, hmade⟩ := check_of_ended hended hbefore hk id
    obtain ⟨hgreylist, hsession⟩ := stores_of_gates hsplit
    have hstores : s'.stores = k.stores := by
      rw [hmade.stores, List.getLast?_concat]
      rfl
    rw [hstores]
    exact ⟨hdecision, hscore, hmade, check_of_later hended hbefore hk id, hgreylist, hsession⟩
  · rw [← hgiven] at hunended ⊢
    obtain ⟨hdecision, hscore, hmade⟩ := check_of_unended hunended id
    have hshown : shown = (clampScore (total 0 given)).val := by rw [← hgiven, ← hscore]
    refine ⟨hmade, hscore, ?_⟩
    rw [hdecision, hshown, hgiven, ← scoring_of_build hbuild]
    exact decide_iff e.scoring (total 0 given)

theorem check_contract_scanners :
    let c : Config := { greylist := { enabled := false } }
    let scheme : Dkim.Scheme := ⟨fun _ => [], fun _ _ => none⟩
    let reg : Registry := .ofRules []
    let r := Dns.Zone.empty.resolver
    let scanner (name : String) (k : Contribution) : Contributor := ⟨name, fun _ _ s => (k, s)⟩
    let bulk := scanner "bulk" ((Contribution.score 15 "bulk").telling (.spf .pass (some "b.c")))
    let virus := scanner "virus" (.hard .reject 250 "virus found")
    let links := scanner "links" ((Contribution.score 30 "links").telling (.spf .fail none))
    let q : Request := ⟨.v4 0xCB007105, "mx.b.c", some ⟨"u", "a.com"⟩, ⟨"u", "d.e"⟩, none,
      ⟨⟨[⟨"From", "u@a.com"⟩]⟩, []⟩⟩
    let ctx : Dns.Context := ⟨0, none⟩
    let s := State.fresh c 0
    ∃ e e', build scheme reg r (fun _ => .error "") [bulk, virus, links] c = .ok e ∧
      build scheme reg r (fun _ => .error "") [bulk, links] c = .ok e' ∧
      let v := (e.check "" .standard ctx q 0 s).1
      let v' := (e'.check "" .standard ctx q 0 s).1
      (v.decision = .reject ∧ v.score = 100 ∧ v.reasons = ["bulk", "virus found"] ∧
        v.auth = ⟨"pass", some "b.c", "none", none, "none", some "a.com"⟩ ∧
        ∀ later, { e with contributors := e.contributors.take 8 ++ later }.check "" .standard ctx q
          0 s = e.check "" .standard ctx q 0 s) ∧
      v'.decision = .quarantine ∧ v'.score = 45 ∧ v'.reasons = ["bulk", "links"] ∧
        v'.auth = ⟨"fail", none, "none", none, "none", some "a.com"⟩ := by
  intro c scheme reg r scanner bulk virus links q ctx s
  have hbuild (extra : List Contributor) :
      build scheme reg r (fun _ => .error "") extra c = .ok _ :=
    build_of_fault? (by decide +kernel) rfl
  refine ⟨_, _, hbuild _, hbuild _, ?_⟩
  intro v v'
  refine ⟨?_, ?_⟩
  · obtain ⟨-, hended, -⟩ := check_contract (hbuild [bulk, virus, links]) "" .standard ctx q 0 s
    let given := answers ⟨q, ctx, .standard, c.scoring.weights, 0⟩
      (standardContributors scheme reg r c ++ [bulk, virus, links]) .nothing s.stores
    let k := given.get ⟨7, by decide +kernel⟩
    have hsplit : given = given.take 7 ++ k :: given.drop 8 :=
      (List.take_append_drop 7 given).symm.trans
        (congrArg (given.take 7 ++ ·) (List.drop_eq_getElem_cons (by decide +kernel)))
    obtain ⟨hdecision, hscore, hmade, hlater, -, -⟩ :=
      hended _ _ _ .reject hsplit (by decide +kernel) (by decide +kernel)
    exact ⟨hdecision, hscore.trans (by decide +kernel), hmade.reasons.trans (by decide +kernel),
      hmade.auth.trans (by decide +kernel), hlater⟩
  · obtain ⟨-, -, hunended⟩ := check_contract (hbuild [bulk, links]) "" .standard ctx q 0 s
    obtain ⟨hmade, hscore, -, hquarantine, -⟩ := hunended (by decide +kernel)
    exact ⟨hquarantine.mpr (by decide +kernel), hscore.trans (by decide +kernel),
      hmade.reasons.trans (by decide +kernel), hmade.auth.trans (by decide +kernel)⟩

end Engine

end MailScreen
