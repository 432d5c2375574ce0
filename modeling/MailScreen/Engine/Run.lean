import MailScreen.Engine.Contribution
import MailScreen.Metrics

/-!
# Running a check

Model of `Engine.run` and `Engine.decide`.

`run` asks contributors in order until one of them ends the check, and adds up their points.

* `Progress` is how far a check has come; `Progress.advance` asks one contributor.
* `run_of_decided` and `run_of_undecided` say when the next contributor is asked.
* `decide` makes a decision of a score.
-/

namespace MailScreen.Engine

/-- How far a check has come. -/
structure Progress where
  stores : Stores
  metrics : Metrics
  findings : Findings
  score : Int
  reasons : List String
  /-- The decision that ended the check, if it has ended. -/
  decision : Option Decision

/-- The beginning of a check. -/
def Progress.start (stores : Stores) (metrics : Metrics) : Progress :=
  ⟨stores, metrics, .nothing, 0, [], none⟩

/-- The 32-bit integer nearest to a sum. -/
def saturated (sum : Int) : Int :=
  max (-2147483648) (min sum 2147483647)

/-- Asks one contributor. -/
def Progress.advance (task : Task) (p : Progress) (c : Contributor) : Progress :=
  let (k, stores) := c.evaluate task p.findings p.stores
  { stores
    metrics := if k.signal.any (·.isDegraded) then p.metrics.recordError c.name else p.metrics
    findings := k.signal.elim p.findings p.findings.record
    score := if k.decision.isSome then k.points else saturated (p.score + k.points)
    reasons := p.reasons ++ k.reason.toList
    decision := k.decision }

/-- Asks contributors in order until one of them ends the check. -/
def run (task : Task) : List Contributor → Progress → Progress
  | [], p => p
  | c :: cs, p =>
    let p := p.advance task c
    if p.decision.isSome then p else run task cs p

theorem run_of_decided {task : Task} {c : Contributor} {cs : List Contributor} {p : Progress}
    (h : (p.advance task c).decision.isSome) : run task (c :: cs) p = p.advance task c := by
  simp [run, h]

theorem run_of_undecided {task : Task} {c : Contributor} {cs : List Contributor} {p : Progress}
    (h : (p.advance task c).decision = none) :
    run task (c :: cs) p = run task cs (p.advance task c) := by
  simp [run, h]

/-- The decision for a score. -/
def decide (scoring : Config.Scoring) (score : Int) : Decision :=
  let score : Int := (clampScore score).val
  if scoring.rejectAt ≤ score then .reject
  else if scoring.quarantineAt ≤ score then .quarantine
  else .accept

end MailScreen.Engine
