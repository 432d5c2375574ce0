import MailScreen.Proofs.Engine.Signals

/-!
# Gates and checks

An engine asks two gates first, either of which may end a check. The four checks after them never
do, so unless contributors are added, the gates decide or the score does.

* `run_append`: a run of some contributors and then of others.
* `gateDecision?` is the decision of a gate, `decision_run_standard` says that there is no other.
-/

namespace MailScreen

/-- A contributor that leaves it to others to end a check. -/
def Contributor.NeverEnds (c : Contributor) : Prop :=
  ∀ task f s, (c.evaluate task f s).1.decision = none

namespace Engine

variable {task : Task} {scheme : Dkim.Scheme} {reg : Registry} {r : Dns.Resolver} {config : Config}
  {cs ds : List Contributor} {p : Progress}

theorem run_append (hp : p.decision = none) : run task (cs ++ ds) p =
    if (run task cs p).decision.isSome then run task cs p else run task ds (run task cs p) := by
  induction cs generalizing p with
  | nil => simp [run, hp]
  | cons c cs ih =>
    rw [List.cons_append]
    cases hc : (p.advance task c).decision with
    | none => rw [run_of_undecided hc, run_of_undecided hc, ih hc]
    | some d =>
      have hended : (p.advance task c).decision.isSome := by rw [hc]; rfl
      rw [run_of_decided hended, run_of_decided hended, if_pos hended]

theorem decision_run_of_neverEnds (h : ∀ c ∈ cs, c.NeverEnds) (hp : p.decision = none) :
    (run task cs p).decision = none := by
  induction cs generalizing p with
  | nil => exact hp
  | cons c cs ih =>
    obtain ⟨hc, hcs⟩ := List.forall_mem_cons.mp h
    have hgoesOn : (p.advance task c).decision = none := hc task p.findings p.stores
    rw [run_of_undecided hgoesOn]
    exact ih hcs hgoesOn

/-- Those that may end a check before anything is looked up. -/
def gates (scheme : Dkim.Scheme) (config : Config) : List Contributor :=
  [rateLimitGate config.scoring.rateLimitScore,
    greylistGate scheme.hash config.scoring.greylistScore]

/-- Those that add points for what they find. -/
def checks (scheme : Dkim.Scheme) (reg : Registry) (r : Dns.Resolver) (config : Config) :
    List Contributor :=
  [spfCheck r config.spf.maxLookups, dkimCheck scheme r, dmarcCheck reg r, heloCheck]

theorem standardContributors_eq :
    standardContributors scheme reg r config =
      gates scheme config ++ checks scheme reg r config := rfl

theorem neverEnds_of_mem_checks {c : Contributor} (hc : c ∈ checks scheme reg r config) :
    c.NeverEnds := by
  intro task f s
  simp only [checks, List.mem_cons, List.not_mem_nil, or_false] at hc
  obtain rfl | rfl | rfl | rfl := hc
  · rfl
  · rfl
  · unfold dmarcCheck Contributor.ofLookups
    cases hdomain : policyDomain? task with
    | none =>
      simp only [hdomain]
      show (withoutAuthor task).decision = none
      unfold withoutAuthor
      cases task.mode <;> rfl
    | some domain =>
      simp only [hdomain]
      rfl
  · unfold heloCheck
    simp only
    split <;> rfl

/-- The decision of the gates, if one of them ends the check. -/
def gateDecision? (e : Engine) (mode : Mode) (ctx : Dns.Context) (q : Request) (timeOfDay : Int)
    (s : State) : Option Decision :=
  (run (e.task mode ctx q timeOfDay) (e.contributors.take 2) (.start s.stores s.metrics)).decision

/-- **Only the gates end a run** of the contributors that every engine has. -/
theorem decision_run_standard (hp : p.decision = none) :
    (run task (standardContributors scheme reg r config) p).decision =
      (run task (gates scheme config) p).decision := by
  rw [standardContributors_eq, run_append hp]
  cases hgates : (run task (gates scheme config) p).decision with
  | some d => rw [Option.isSome_some, if_pos rfl, hgates]
  | none =>
    rw [Option.isSome_none, if_neg Bool.false_ne_true]
    exact decision_run_of_neverEnds (fun c hc => neverEnds_of_mem_checks hc) hgates

variable {keyText : String → Except String String} {extra : List Contributor} {e : Engine}

theorem gateDecision?_of_build (h : build scheme reg r keyText extra config = .ok e) (mode : Mode)
    (ctx : Dns.Context) (q : Request) (timeOfDay : Int) (s : State) :
    e.gateDecision? mode ctx q timeOfDay s = (run (e.task mode ctx q timeOfDay)
      (gates scheme config) (.start s.stores s.metrics)).decision := by
  unfold gateDecision?
  rw [contributors_of_build h]
  rfl

/-- Without added contributors a check ends early just if a gate ends it. -/
theorem gateDecision?_of_standard (h : build scheme reg r keyText [] config = .ok e) (mode : Mode)
    (ctx : Dns.Context) (q : Request) (timeOfDay : Int) (s : State) :
    e.gateDecision? mode ctx q timeOfDay s = (run (e.task mode ctx q timeOfDay) e.contributors
      (.start s.stores s.metrics)).decision := by
  rw [gateDecision?_of_build h, contributors_of_build h, List.append_nil]
  exact (decision_run_standard rfl).symm

end Engine

end MailScreen
