import MailScreen.Dns.Zone
import MailScreen.Proofs.Engine.Signals

/-!
# What is counted

An engine counts its verdicts by decision, and it counts the checks of authentication that could not
be done while a check is still going on. What a verdict says of these is put together only at its
end, from the findings. The two agree, however long the engine is in use.

* `Contributor.TellsOfItself`: what a contributor tells is of the method whose name it bears.
* `Progress.Counts` is the agreement during a check, `run_counts` carries it through a run.
* `Service` is an engine in use, with the verdicts that it has given; `Service.after` is what an
  event makes of it.
* `Metrics.AccountsFor` is the agreement between checks, `accountsFor_check` and
  `accountsFor_after` carry it on.
* `counts_of_run` is the result for every run of events.
-/

namespace MailScreen

/-! ## Counters -/

theorem Counter.count_increment (c : Counter) (label l : String) :
    (c.increment label).count l = c.count l + if label = l then 1 else 0 := by
  unfold increment
  rw [count, Table.find?_put]
  by_cases h : l = label
  · rw [if_pos h, if_pos h.symm, h]
    rfl
  · rw [if_neg h, if_neg (Ne.symm h)]
    rfl

theorem Decision.name_injective : Function.Injective Decision.name := by
  intro a b h
  cases a <;> cases b <;> first | rfl | exact absurd h (by decide)

namespace Metrics

theorem decisions_recordDecision (m : Metrics) (d : Decision) (span : Nat) (d' : Decision) :
    (m.recordDecision d span).decisions d' = m.decisions d' + if d = d' then 1 else 0 := by
  have hcount := m.verdicts.count_increment d.name d'.name
  simp only [Decision.name_injective.eq_iff] at hcount
  exact hcount

theorem errors_recordError (m : Metrics) (name n : String) :
    (m.recordError name).errors n = m.errors n + if name = n then 1 else 0 :=
  m.failures.count_increment name n

end Metrics

/-! ## What a summary says of failures -/

/-- The word is one for a method that could not be applied. -/
def isErrorWord (word : String) : Bool :=
  word == "temperror" || word == "permerror"

theorem isErrorWord_spf (outcome : Spf.Outcome) : isErrorWord outcome.name = outcome.isError := by
  cases outcome <;> decide

theorem isErrorWord_dkim (result : Dkim.Result) : isErrorWord result.name = result.isError := by
  cases result <;> decide

theorem isErrorWord_dmarc (result : Dmarc.Result) : isErrorWord result.name = result.isError := by
  cases result with
  | fail policy => cases policy <;> decide
  | pass | none | tempError | permError => decide

/-- Whether a summary says that a method could not be applied. -/
def AuthSummary.hasFailed (a : AuthSummary) (method : String) : Bool :=
  (method == "spf" && isErrorWord a.spf) || (method == "dkim" && isErrorWord a.dkim) ||
    (method == "dmarc" && isErrorWord a.dmarc)

theorem Findings.hasFailed_nothing (method : String) :
    nothing.summary.hasFailed method = false := by
  have hspf : isErrorWord nothing.summary.spf = false := by decide
  have hdkim : isErrorWord nothing.summary.dkim = false := by decide
  have hdmarc : isErrorWord nothing.summary.dmarc = false := by decide
  simp only [AuthSummary.hasFailed, hspf, hdkim, hdmarc, Bool.and_false, Bool.or_false]

/-- The method that a signal is of. -/
def Signal.method : Signal → String
  | spf _ _ => "spf"
  | dkim _ => "dkim"
  | dmarc _ _ => "dmarc"
  | suspiciousHelo => "helo"

/-- A signal says of its own method whether it could be applied, and nothing of the others. -/
theorem Findings.hasFailed_record (f : Findings) (x : Signal) (method : String) :
    (f.record x).summary.hasFailed method =
      if x.method = method then x.isDegraded else f.summary.hasFailed method := by
  by_cases h : x.method = method
  · subst h
    rw [if_pos rfl]
    cases x with
    | spf outcome domain => simp [AuthSummary.hasFailed, Signal.method, Signal.isDegraded, record,
        summary, spfOutcome, isErrorWord_spf]
    | dkim outcome => simp [AuthSummary.hasFailed, Signal.method, Signal.isDegraded, record,
        summary, dkimOutcome, isErrorWord_dkim]
    | dmarc outcome author => simp [AuthSummary.hasFailed, Signal.method, Signal.isDegraded, record,
        summary, isErrorWord_dmarc]
    | suspiciousHelo => rfl
  · rw [if_neg h]
    cases x with
    | spf outcome domain =>
      have hmethod : (method == "spf") = false := beq_eq_false_iff_ne.mpr (Ne.symm h)
      simp [AuthSummary.hasFailed, hmethod, record, summary, dkimOutcome]
    | dkim outcome =>
      have hmethod : (method == "dkim") = false := beq_eq_false_iff_ne.mpr (Ne.symm h)
      simp [AuthSummary.hasFailed, hmethod, record, summary, spfOutcome]
    | dmarc outcome author =>
      have hmethod : (method == "dmarc") = false := beq_eq_false_iff_ne.mpr (Ne.symm h)
      simp [AuthSummary.hasFailed, hmethod, record, summary, spfOutcome, dkimOutcome]
    | suspiciousHelo => rfl

/-- A contributor that tells only of the method whose name it bears. -/
def Contributor.TellsOfItself (c : Contributor) : Prop :=
  ∀ task f s, ∀ x ∈ (c.evaluate task f s).1.signal, x.method = c.name

namespace Engine

theorem tellsOfItself_of_mem_standardContributors {scheme : Dkim.Scheme} {reg : Registry}
    {r : Dns.Resolver} {config : Config} {c : Contributor}
    (hc : c ∈ standardContributors scheme reg r config) :
    c.TellsOfItself := by
  simp only [standardContributors, List.mem_cons, List.not_mem_nil, or_false] at hc
  intro task f s x hx
  obtain rfl | rfl | rfl | rfl | rfl | rfl := hc
  · rw [signal_rateLimitGate] at hx
    cases hx
  · rw [signal_greylistGate] at hx
    cases hx
  · rw [signal_spfCheck] at hx
    cases hx
    rfl
  · rw [signal_dkimCheck] at hx
    cases hx
    rfl
  · cases hdomain : policyDomain? task with
    | none =>
      rw [signal_dmarcCheck_of_none hdomain] at hx
      cases hx
    | some domain =>
      rw [signal_dmarcCheck_of_some hdomain] at hx
      cases hx
      rfl
  · rw [heloCheck_isSilent task f s x hx]
    rfl

/-! ## During a check -/

/-- **What is counted during a check**: nothing but the failures that its findings tell of, each of
them once. -/
structure Progress.Counts (m : Metrics) (p : Progress) : Prop where
  verdicts : p.metrics.verdicts = m.verdicts
  durations : p.metrics.durations = m.durations
  errors (name : String) :
    p.metrics.errors name = m.errors name + (p.findings.summary.hasFailed name).toNat

variable {task : Task} {m : Metrics} {c : Contributor} {p : Progress}

/-- A contributor settles for no other method whether it has failed. -/
theorem Progress.hasFailed_advance (hc : c.TellsOfItself) {method : String}
    (hne : c.name ≠ method) : (p.advance task c).findings.summary.hasFailed method =
      p.findings.summary.hasFailed method := by
  show ((c.evaluate task p.findings p.stores).1.signal.elim p.findings
    p.findings.record).summary.hasFailed method = _
  cases hx : (c.evaluate task p.findings p.stores).1.signal with
  | none => rfl
  | some x =>
    have hmethod : x.method = c.name := hc task p.findings p.stores x hx
    show (p.findings.record x).summary.hasFailed method = _
    rw [Findings.hasFailed_record, if_neg (hmethod ▸ hne)]

/-- A contributor whose method has not failed yet keeps the count. -/
theorem Progress.Counts.advance (h : p.Counts m) (hc : c.TellsOfItself)
    (hfirst : p.findings.summary.hasFailed c.name = false) : (p.advance task c).Counts m := by
  unfold Progress.advance
  cases hx : (c.evaluate task p.findings p.stores).1.signal with
  | none => exact ⟨by simp [hx, h.verdicts], by simp [hx, h.durations], by simp [hx, h.errors]⟩
  | some x =>
    have hmethod : x.method = c.name := hc task p.findings p.stores x hx
    refine ⟨?_, ?_, fun name => ?_⟩
    · simp only [hx, Option.any_some]
      split <;> exact h.verdicts
    · simp only [hx, Option.any_some]
      split <;> exact h.durations
    · simp only [hx, Option.any_some, Option.elim_some, Findings.hasFailed_record, hmethod]
      have herrors := h.errors name
      by_cases hname : c.name = name
      · subst hname
        rw [hfirst] at herrors
        cases x.isDegraded with
        | true => simp [Metrics.errors_recordError, herrors]
        | false => simp [herrors]
      · rw [if_neg hname, ← herrors]
        cases x.isDegraded with
        | true => simp [Metrics.errors_recordError, hname]
        | false => rfl

/-- **A run counts right** if each of its contributors has a name of its own. -/
theorem run_counts {cs : List Contributor} (hcs : ∀ c ∈ cs, c.TellsOfItself)
    (hnames : (cs.map Contributor.name).Nodup) (hp : p.Counts m)
    (hfirst : ∀ c ∈ cs, p.findings.summary.hasFailed c.name = false) :
    (run task cs p).Counts m := by
  induction cs generalizing p with
  | nil => exact hp
  | cons c cs ih =>
    obtain ⟨hc, hcs⟩ := List.forall_mem_cons.mp hcs
    obtain ⟨hfirst, hlater⟩ := List.forall_mem_cons.mp hfirst
    obtain ⟨hother, hnames⟩ := List.nodup_cons.mp hnames
    have hstep : (p.advance task c).Counts m := hp.advance hc hfirst
    refine run_cons hstep (ih hcs hnames hstep fun d hd => ?_)
    have hne : c.name ≠ d.name := fun heq => hother (heq ▸ List.mem_map_of_mem hd)
    rw [Progress.hasFailed_advance hc hne]
    exact hlater d hd

end Engine

/-! ## An engine in use -/

/-- **What is counted agrees with verdicts**, if these are all that there have been. -/
structure Metrics.AccountsFor (m : Metrics) (vs : List Verdict) : Prop where
  decisions (d : Decision) : m.decisions d = vs.countP (·.decision = d)
  durations : m.durations.total = vs.length
  errors (name : String) : m.errors name = vs.countP (·.auth.hasFailed name)

theorem Metrics.accountsFor_fresh : Metrics.fresh.AccountsFor [] :=
  ⟨fun _ => rfl, rfl, fun _ => rfl⟩

namespace Engine

/-- **A check keeps the account**: what is counted then agrees with its verdict too. -/
theorem accountsFor_check {e : Engine} (hcs : ∀ c ∈ e.contributors, c.TellsOfItself)
    (hnames : (e.contributors.map Contributor.name).Nodup) {s : State} {vs : List Verdict}
    (h : s.metrics.AccountsFor vs) (id : String) (mode : Mode) (ctx : Dns.Context) (q : Request)
    (timeOfDay : Int) :
    let checked := e.check id mode ctx q timeOfDay s
    checked.2.metrics.AccountsFor (vs ++ [checked.1]) := by
  intro checked
  let p := run (e.task mode ctx q timeOfDay) e.contributors (.start s.stores s.metrics)
  have hp : p.Counts s.metrics := by
    refine run_counts hcs hnames ⟨rfl, rfl, fun name => ?_⟩ fun c _ =>
      Findings.hasFailed_nothing c.name
    show s.metrics.errors name = _ + (Findings.nothing.summary.hasFailed name).toNat
    rw [Findings.hasFailed_nothing]
    rfl
  have hmetrics : checked.2.metrics = p.metrics.recordDecision checked.1.decision
      (Time.elapsed s.stores.session.now p.stores.session.now) := rfl
  have hauth : checked.1.auth = p.findings.summary := rfl
  refine ⟨fun d => ?_, ?_, fun name => ?_⟩
  · have hbefore : p.metrics.decisions d = s.metrics.decisions d :=
      congrArg (Counter.count · d.name) hp.verdicts
    rw [hmetrics, Metrics.decisions_recordDecision, hbefore, h.decisions, List.countP_append,
      List.countP_singleton]
    simp only [decide_eq_true_eq]
  · rw [hmetrics, List.length_append, List.length_singleton, ← h.durations, ← hp.durations]
    rfl
  · have hbefore : checked.2.metrics.errors name = p.metrics.errors name := rfl
    rw [hbefore, hp.errors, h.errors, List.countP_append, List.countP_singleton, hauth]
    cases p.findings.summary.hasFailed name <;> rfl

/-- What happens to an engine in use. -/
inductive Event where
  | check (id : String) (mode : Mode) (ctx : Dns.Context) (request : Request) (timeOfDay : Int)
  /-- Nothing happens until an instant. -/
  | resume (now : Int)
  | prune
  | sweep (start : Int) (interval : Nat) (before : Int)
  /-- The records that lookups find are replaced. -/
  | publish (r : Dns.Resolver)

/-- Whether a message is judged. -/
def Event.isCheck : Event → Bool
  | check .. => true
  | _ => false

/-- An engine in use, with what it has said so far. -/
structure Service where
  resolver : Dns.Resolver
  state : State
  verdicts : List Verdict

namespace Service

/-- What an event makes of an engine in use; `engineFor` is the engine by the records that its
lookups find. -/
def after (engineFor : Dns.Resolver → Engine) (v : Service) : Event → Service
  | .check id mode ctx q timeOfDay =>
    let (verdict, state) := (engineFor v.resolver).check id mode ctx q timeOfDay v.state
    { v with state, verdicts := v.verdicts ++ [verdict] }
  | .resume now => { v with state := v.state.resumeAt now }
  | .prune => { v with state := v.state.prune.2 }
  | .sweep start interval before => { v with state := v.state.sweep start interval before }
  | .publish r => { v with resolver := r }

/-- One event after the other. -/
def run (engineFor : Dns.Resolver → Engine) (events : List Event) (v : Service) : Service :=
  events.foldl (after engineFor) v

/-- An engine that nobody has used yet. -/
def fresh (c : Config) (r : Dns.Resolver) (now : Int) : Service :=
  ⟨r, .fresh c now, []⟩

end Service

variable {engineFor : Dns.Resolver → Engine}

/-- Whatever happens to an engine in use keeps the account. -/
theorem accountsFor_after (hcs : ∀ r, ∀ c ∈ (engineFor r).contributors, c.TellsOfItself)
    (hnames : ∀ r, ((engineFor r).contributors.map Contributor.name).Nodup) {v : Service}
    (h : v.state.metrics.AccountsFor v.verdicts) (x : Event) :
    (v.after engineFor x).state.metrics.AccountsFor (v.after engineFor x).verdicts := by
  cases x with
  | check id mode ctx q timeOfDay =>
    exact accountsFor_check (hcs v.resolver) (hnames v.resolver) h id mode ctx q timeOfDay
  | resume | prune | sweep | publish => exact h

theorem accountsFor_run (hcs : ∀ r, ∀ c ∈ (engineFor r).contributors, c.TellsOfItself)
    (hnames : ∀ r, ((engineFor r).contributors.map Contributor.name).Nodup) (events : List Event)
    {v : Service} (h : v.state.metrics.AccountsFor v.verdicts) :
    (v.run engineFor events).state.metrics.AccountsFor (v.run engineFor events).verdicts := by
  induction events generalizing v with
  | nil => exact h
  | cons x events ih => exact ih (accountsFor_after hcs hnames h x)

/-- There is a verdict for every check. -/
theorem length_verdicts_run (events : List Event) (v : Service) :
    (v.run engineFor events).verdicts.length =
      v.verdicts.length + events.countP (·.isCheck) := by
  induction events generalizing v with
  | nil => rfl
  | cons x events ih =>
    have hstep : (v.after engineFor x).verdicts.length =
        v.verdicts.length + if x.isCheck then 1 else 0 := by
      cases x with
      | check => exact List.length_append
      | resume | prune | sweep | publish => rfl
    rw [List.countP_cons, Nat.add_comm (events.countP _), ← Nat.add_assoc, ← hstep]
    exact ih _

/-- Every verdict has one of the four decisions. -/
theorem sum_countP_decision (vs : List Verdict) :
    vs.countP (·.decision = .accept) + vs.countP (·.decision = .greylistDefer) +
      vs.countP (·.decision = .quarantine) + vs.countP (·.decision = .reject) = vs.length := by
  induction vs with
  | nil => rfl
  | cons v vs ih =>
    simp only [List.countP_cons, List.length_cons]
    cases v.decision <;> simp <;> omega

/-- **Metrics account for every check.** Take an engine without added contributors that nobody has
used yet, and let anything happen to it: checks in either mode, waiting, both kinds of pruning, and
new records to look up. Then there is a verdict for every check; the four counts of decisions, which
add up to the number of checks, and the number of durations agree with the verdicts; so do, for each
method of authentication, the counted failures with the summaries; and no other failure is
counted. -/
theorem counts_of_run {scheme : Dkim.Scheme} {reg : Registry}
    {keyText : String → Except String String} {c : Config}
    {engineFor : Dns.Resolver → Engine}
    (hbuild : ∀ r, build scheme reg r keyText [] c = .ok (engineFor r)) (events : List Event)
    (r : Dns.Resolver) (now : Int) :
    let service := (Service.fresh c r now).run engineFor events
    let vs := service.verdicts
    let m := service.state.metrics
    vs.length = events.countP (·.isCheck) ∧
      (∀ d, m.decisions d = vs.countP (·.decision = d)) ∧
      m.decisions .accept + m.decisions .greylistDefer + m.decisions .quarantine +
        m.decisions .reject = vs.length ∧
      m.durations.total = vs.length ∧
      m.errors "spf" = vs.countP (fun v => isErrorWord v.auth.spf) ∧
      m.errors "dkim" = vs.countP (fun v => isErrorWord v.auth.dkim) ∧
      m.errors "dmarc" = vs.countP (fun v => isErrorWord v.auth.dmarc) ∧
      ∀ name, name ∉ ["spf", "dkim", "dmarc"] → m.errors name = 0 := by
  intro service vs m
  have hcs (r : Dns.Resolver) : ∀ k ∈ (engineFor r).contributors, k.TellsOfItself := by
    rw [contributors_of_build (hbuild r), List.append_nil]
    exact fun k hk => tellsOfItself_of_mem_standardContributors hk
  have hnames (r : Dns.Resolver) : ((engineFor r).contributors.map Contributor.name).Nodup := by
    rw [contributors_of_build (hbuild r), List.append_nil]
    show ["rate_limit", "greylist", "spf", "dkim", "dmarc", "helo"].Nodup
    decide
  have haccount : m.AccountsFor vs := accountsFor_run hcs hnames events Metrics.accountsFor_fresh
  have hlength : vs.length = events.countP (·.isCheck) := by
    rw [show vs.length = _ from length_verdicts_run events _]
    exact Nat.zero_add _
  refine ⟨hlength, haccount.decisions, ?_, haccount.durations, ?_, ?_, ?_, fun name hname => ?_⟩
  · simp only [haccount.decisions, sum_countP_decision]
  · simp [haccount.errors, AuthSummary.hasFailed]
  · simp [haccount.errors, AuthSummary.hasFailed]
  · simp [haccount.errors, AuthSummary.hasFailed]
  · simp only [List.mem_cons, List.not_mem_nil, or_false, not_or] at hname
    simp [haccount.errors, AuthSummary.hasFailed, hname]

theorem counts_of_run_three :
    let c : Config := {}
    let scheme : Dkim.Scheme := ⟨fun _ => [], fun _ _ => none⟩
    let reg : Registry := .ofRules []
    let engineFor := fun r : Dns.Resolver =>
      (⟨standardContributors scheme reg r c ++ [], c.scoring, Time.milliseconds c.dns.checkTimeout,
        c.server.hostname, none⟩ : Engine)
    let before := (Dns.Zone.empty.addFault "b.com" .timeout).addFault "_dmarc.a.com" .timeout
    let after := Dns.Zone.empty.addText "_dmarc.a.com" "v=DMARC1; p=reject"
    let q : Request := ⟨.v4 0xCB007105, "mx", some ⟨"u", "b.com"⟩, ⟨"u", "d.e"⟩, none,
      ⟨⟨[⟨"From", "U <u@a.com>"⟩]⟩, []⟩⟩
    let ctx : Dns.Context := ⟨Time.seconds 10000, none⟩
    let events : List Event := [.check "1" .standard ctx q 0, .resume (Time.seconds 600),
      .check "2" .minimal ctx q 0, .prune, .publish after.resolver, .check "3" .standard ctx q 0]
    (∀ r, build scheme reg r (fun _ => .error "") [] c = .ok (engineFor r)) ∧
      let service := (Service.fresh c before.resolver 0).run engineFor events
      let vs := service.verdicts
      let m := service.state.metrics
      vs.map (fun v => (v.decision, v.auth.spf, v.auth.dmarc)) =
          [(.greylistDefer, "none", "none"), (.accept, "temperror", "temperror"),
            (.quarantine, "none", "fail")] ∧
        m.decisions .accept = 1 ∧ m.errors "spf" = 1 ∧ m.errors "greylist" = 0 ∧
        m.decisions .accept + m.decisions .greylistDefer + m.decisions .quarantine +
          m.decisions .reject = 3 := by
  intro c scheme reg engineFor before after q ctx events
  have hbuild (r : Dns.Resolver) :
      build scheme reg r (fun _ => .error "") [] c = .ok (engineFor r) :=
    build_of_fault? (by decide +kernel) rfl
  refine ⟨hbuild, ?_⟩
  intro service vs m
  have hverdicts : vs.map (fun v => (v.decision, v.auth.spf, v.auth.dmarc)) =
      [(.greylistDefer, "none", "none"), (.accept, "temperror", "temperror"),
        (.quarantine, "none", "fail")] := by
    decide +kernel
  obtain ⟨hlength, hdecisions, hsum, -, hspf, -, -, hothers⟩ :=
    counts_of_run hbuild events before.resolver 0
  exact ⟨hverdicts, (hdecisions .accept).trans (by decide +kernel), hspf.trans (by decide +kernel),
    hothers "greylist" (by decide), hsum.trans hlength⟩

end Engine

end MailScreen
