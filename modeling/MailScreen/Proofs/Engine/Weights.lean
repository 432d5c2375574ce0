import MailScreen.Dns.Zone
import MailScreen.Proofs.Engine.Gates

/-!
# Raising the points of findings

The points that the settings give to findings make up the score and do nothing else: no contributor
lets them decide what it looks up, what it stores or what it tells. So of two engines that differ in
these points alone, the one with the higher points finds the same and is at least as severe.

* `Config.AtMost` compares settings, `Contribution.AtMost` contributions and `Progress.AtMost` two
  checks on their way.
* `Contributor.IsMonotone` is the law of one contributor, `isMonotone_of_mem_standardContributors`
  says that those of every engine obey it, and `run_atMost` carries the comparison through a run.
* `severity_decide_le`: a higher score is decided at least as severely.
* `check_atMost` is the result for two engines.
-/

namespace MailScreen

/-- No finding weighs more than with other points. -/
structure Config.Weights.AtMost (w w' : Config.Weights) : Prop where
  spfPass : w.spfPass ≤ w'.spfPass
  spfFail : w.spfFail ≤ w'.spfFail
  spfSoftfail : w.spfSoftfail ≤ w'.spfSoftfail
  spfNeutral : w.spfNeutral ≤ w'.spfNeutral
  spfNone : w.spfNone ≤ w'.spfNone
  spfTemperror : w.spfTemperror ≤ w'.spfTemperror
  spfPermerror : w.spfPermerror ≤ w'.spfPermerror
  dkimPass : w.dkimPass ≤ w'.dkimPass
  dkimFail : w.dkimFail ≤ w'.dkimFail
  dkimNone : w.dkimNone ≤ w'.dkimNone
  dkimTemperror : w.dkimTemperror ≤ w'.dkimTemperror
  dkimPermerror : w.dkimPermerror ≤ w'.dkimPermerror
  dmarcPass : w.dmarcPass ≤ w'.dmarcPass
  dmarcFailNone : w.dmarcFailNone ≤ w'.dmarcFailNone
  dmarcFailQuarantine : w.dmarcFailQuarantine ≤ w'.dmarcFailQuarantine
  dmarcFailReject : w.dmarcFailReject ≤ w'.dmarcFailReject
  dmarcTemperror : w.dmarcTemperror ≤ w'.dmarcTemperror
  dmarcPermerror : w.dmarcPermerror ≤ w'.dmarcPermerror
  heloSuspicious : w.heloSuspicious ≤ w'.heloSuspicious
  missingAuthor : w.missingAuthor ≤ w'.missingAuthor

/-- The same settings but for the points of findings, of which none are more than in the others. -/
structure Config.AtMost (c c' : Config) : Prop where
  weights : c.scoring.weights.AtMost c'.scoring.weights
  minimalWeights : c.scoring.minimalWeights.AtMost c'.scoring.minimalWeights
  rest : c' = { c with scoring := { c.scoring with
    weights := c'.scoring.weights, minimalWeights := c'.scoring.minimalWeights } }

/-- The same contribution but for the points and the reason that goes with them; the points are at
most those of the other, and the same if they go with a decision. -/
structure Contribution.AtMost (k k' : Contribution) : Prop where
  decision : k.decision = k'.decision
  signal : k.signal = k'.signal
  points : k.points ≤ k'.points
  ended : k.decision.isSome → k.points = k'.points

namespace Contribution.AtMost

theorem refl (k : Contribution) : k.AtMost k := ⟨rfl, rfl, Int.le_refl _, fun _ => rfl⟩

theorem score {n n' : Int} (h : n ≤ n') (reason : String) :
    (Contribution.score n reason).AtMost (.score n' reason) := ⟨rfl, rfl, h, nofun⟩

theorem telling {k k' : Contribution} (h : k.AtMost k') (x : Signal) :
    (k.telling x).AtMost (k'.telling x) := ⟨h.decision, rfl, h.points, h.ended⟩

end Contribution.AtMost

/-- **A contributor that reads the points of findings for its own points only**, which rise with
them. -/
def Contributor.IsMonotone (c : Contributor) : Prop :=
  ∀ task w f s, Config.Weights.AtMost task.weights w →
    (c.evaluate task f s).1.AtMost (c.evaluate { task with weights := w } f s).1 ∧
      (c.evaluate task f s).2 = (c.evaluate { task with weights := w } f s).2

namespace Engine

/-! ## Contributors -/

section Points

variable {w w' : Config.Weights} (h : w.AtMost w')

include h

theorem spfPoints_le (outcome : Spf.Outcome) : spfPoints w outcome ≤ spfPoints w' outcome := by
  cases outcome with
  | pass => exact h.spfPass
  | fail => exact h.spfFail
  | softFail => exact h.spfSoftfail
  | neutral => exact h.spfNeutral
  | none => exact h.spfNone
  | tempError => exact h.spfTemperror
  | permError => exact h.spfPermerror

theorem dkimPoints_le (result : Dkim.Result) : dkimPoints w result ≤ dkimPoints w' result := by
  cases result with
  | pass => exact h.dkimPass
  | fail => exact h.dkimFail
  | none => exact h.dkimNone
  | tempError => exact h.dkimTemperror
  | permError => exact h.dkimPermerror

theorem dmarcPoints_le (result : Dmarc.Result) : dmarcPoints w result ≤ dmarcPoints w' result := by
  cases result with
  | pass => exact h.dmarcPass
  | none => exact Int.le_refl 0
  | fail policy =>
    cases policy with
    | none => exact h.dmarcFailNone
    | quarantine => exact h.dmarcFailQuarantine
    | reject => exact h.dmarcFailReject
  | tempError => exact h.dmarcTemperror
  | permError => exact h.dmarcPermerror

end Points

theorem isMonotone_spfCheck (r : Dns.Resolver) (limit : Nat) : (spfCheck r limit).IsMonotone :=
  fun _ _ _ _ hw => ⟨(Contribution.AtMost.score (spfPoints_le hw _) _).telling _, rfl⟩

theorem isMonotone_dkimCheck (scheme : Dkim.Scheme) (r : Dns.Resolver) :
    (dkimCheck scheme r).IsMonotone :=
  fun _ _ _ _ hw => ⟨(Contribution.AtMost.score (dkimPoints_le hw _) _).telling _, rfl⟩

theorem isMonotone_dmarcCheck (reg : Registry) (r : Dns.Resolver) :
    (dmarcCheck reg r).IsMonotone := by
  intro task w f s hw
  have hdomain : policyDomain? { task with weights := w } = policyDomain? task := rfl
  unfold dmarcCheck Contributor.ofLookups
  cases h : policyDomain? task with
  | none =>
    simp only [hdomain, h]
    refine ⟨?_, rfl⟩
    show (withoutAuthor task).AtMost (withoutAuthor { task with weights := w })
    unfold withoutAuthor
    cases task.mode with
    | standard => exact .score hw.missingAuthor _
    | minimal => exact .refl _
  | some domain =>
    simp only [hdomain, h]
    exact ⟨(Contribution.AtMost.score (dmarcPoints_le hw _) _).telling _, rfl⟩

theorem isMonotone_heloCheck : heloCheck.IsMonotone := by
  intro task w f s hw
  refine ⟨?_, rfl⟩
  unfold heloCheck
  simp only
  split
  · exact (Contribution.AtMost.score hw.heloSuspicious _).telling _
  · exact .refl _

theorem isMonotone_of_mem_standardContributors {scheme : Dkim.Scheme} {reg : Registry}
    {r : Dns.Resolver} {config : Config} {c : Contributor}
    (hc : c ∈ standardContributors scheme reg r config) :
    c.IsMonotone := by
  simp only [standardContributors, List.mem_cons, List.not_mem_nil, or_false] at hc
  obtain rfl | rfl | rfl | rfl | rfl | rfl := hc
  · exact fun _ _ _ _ _ => ⟨.refl _, rfl⟩
  · exact fun _ _ _ _ _ => ⟨.refl _, rfl⟩
  · exact isMonotone_spfCheck _ _
  · exact isMonotone_dkimCheck _ _
  · exact isMonotone_dmarcCheck _ _
  · exact isMonotone_heloCheck

/-! ## Runs -/

/-- Two checks that have come equally far and found the same; the score of the one is at most that
of the other, and the same if a contributor has ended them. -/
structure Progress.AtMost (p p' : Progress) : Prop where
  stores : p.stores = p'.stores
  findings : p.findings = p'.findings
  decision : p.decision = p'.decision
  score : p.score ≤ p'.score
  ended : p.decision.isSome → p.score = p'.score

theorem saturated_mono {m n : Int} (h : m ≤ n) : saturated m ≤ saturated n := by
  unfold saturated
  omega

variable {task : Task} {w : Config.Weights} {p p' : Progress}

theorem Progress.AtMost.advance (hp : p.AtMost p') (hw : task.weights.AtMost w) {c : Contributor}
    (hc : c.IsMonotone) :
    (p.advance task c).AtMost (p'.advance { task with weights := w } c) := by
  obtain ⟨hk, hstores⟩ := hc task w p.findings p.stores hw
  unfold Progress.advance
  rw [← hp.findings, ← hp.stores]
  refine ⟨hstores, ?_, hk.decision, ?_, fun hended => ?_⟩
  · exact congrArg (Option.elim · p.findings p.findings.record) hk.signal
  · show (if _ then _ else _) ≤ if _ then _ else _
    rw [← hk.decision]
    split
    · exact hk.points
    · exact saturated_mono (Int.add_le_add hp.score hk.points)
  · show (if _ then _ else _) = if _ then _ else _
    rw [← hk.decision, if_pos hended, if_pos hended]
    exact hk.ended hended

/-- **Raising the points changes nothing in a run but the score**, which does not fall. -/
theorem run_atMost {cs : List Contributor} (hcs : ∀ c ∈ cs, c.IsMonotone)
    (hw : task.weights.AtMost w) (hp : p.AtMost p') :
    (run task cs p).AtMost (run { task with weights := w } cs p') := by
  induction cs generalizing p p' with
  | nil => exact hp
  | cons c cs ih =>
    obtain ⟨hc, hcs⟩ := List.forall_mem_cons.mp hcs
    have hstep := hp.advance hw hc
    cases hd : (p.advance task c).decision with
    | none =>
      rw [run_of_undecided hd, run_of_undecided (hstep.decision ▸ hd)]
      exact ih hcs hstep
    | some d =>
      have hended : (p.advance task c).decision.isSome := by rw [hd]; rfl
      rw [run_of_decided hended, run_of_decided (hstep.decision ▸ hended)]
      exact hstep

end Engine

/-! ## Decisions -/

/-- How severe the decision for a score is; a deferral is not for a score. -/
def Decision.severity : Decision → Option Nat
  | accept => some 0
  | quarantine => some 1
  | reject => some 2
  | greylistDefer => none

namespace Engine

theorem clampScore_mono {m n : Int} (h : m ≤ n) : clampScore m ≤ clampScore n := by
  show (min (max m 0) 100).toNat ≤ (min (max n 0) 100).toNat
  omega

/-- **A higher score is decided at least as severely** by the same thresholds. -/
theorem severity_decide_le {scoring scoring' : Config.Scoring}
    (hreject : scoring.rejectAt = scoring'.rejectAt)
    (hquarantine : scoring.quarantineAt = scoring'.quarantineAt) {m n : Int} (h : m ≤ n) :
    ∃ a ∈ (decide scoring m).severity, ∃ b ∈ (decide scoring' n).severity, a ≤ b := by
  have hshown : (clampScore m).val ≤ (clampScore n).val := clampScore_mono h
  unfold decide
  rw [← hreject, ← hquarantine]
  simp only
  split
  · rw [if_pos (by omega)]
    exact ⟨2, rfl, 2, rfl, Nat.le_refl 2⟩
  · split
    · split
      · exact ⟨1, rfl, 2, rfl, by decide⟩
      · rw [if_pos (by omega)]
        exact ⟨1, rfl, 1, rfl, Nat.le_refl 1⟩
    · split
      · exact ⟨0, rfl, 2, rfl, by decide⟩
      · split
        · exact ⟨0, rfl, 1, rfl, by decide⟩
        · exact ⟨0, rfl, 0, rfl, Nat.le_refl 0⟩

/-! ## Engines -/

section Build

variable {scheme : Dkim.Scheme} {reg : Registry} {r : Dns.Resolver}
  {keyText : String → Except String String}
  {c c' : Config} {e e' : Engine} (hc : c.AtMost c')
  (he : build scheme reg r keyText [] c = .ok e) (he' : build scheme reg r keyText [] c' = .ok e')

include hc he he'

theorem weights_atMost (mode : Mode) : (e.weights mode).AtMost (e'.weights mode) := by
  unfold weights
  rw [scoring_of_build he, scoring_of_build he']
  cases mode with
  | standard => exact hc.weights
  | minimal => exact hc.minimalWeights

theorem contributors_eq : e'.contributors = e.contributors := by
  rw [contributors_of_build he, contributors_of_build he', hc.rest]
  rfl

/-- **Raising the points of findings raises the score and makes the decision more severe, if it has
any effect.** Of two engines with the same resolver and without added contributors, let the settings
agree but for the points of findings, of which the first has none that are more than the second's.
From equal stores, their checks of the same message come to equal stores, which list the lookups,
and to the same summary. The score of the first is at most that of the second. If a gate of the one
ends the check, so does that of the other, with the same decision and score; if not, the first
decision is at most as severe as the second. -/
theorem check_atMost (id id' : String) (mode : Mode) (ctx : Dns.Context) (q : Request)
    (timeOfDay : Int) {s s' : State} (hs : s.stores = s'.stores) :
    let v := e.check id mode ctx q timeOfDay s
    let v' := e'.check id' mode ctx q timeOfDay s'
    v.2.stores = v'.2.stores ∧ v.1.auth = v'.1.auth ∧ v.1.score ≤ v'.1.score ∧
      e.gateDecision? mode ctx q timeOfDay s = e'.gateDecision? mode ctx q timeOfDay s' ∧
      (∀ d ∈ e.gateDecision? mode ctx q timeOfDay s,
        v.1.decision = d ∧ v'.1.decision = d ∧ v.1.score = v'.1.score) ∧
      (e.gateDecision? mode ctx q timeOfDay s = none →
        ∃ a ∈ v.1.decision.severity, ∃ b ∈ v'.1.decision.severity, a ≤ b) := by
  intro v v'
  let task := e.task mode ctx q timeOfDay
  let p := run task e.contributors (.start s.stores s.metrics)
  let p' := run { task with weights := e'.weights mode } e'.contributors
    (.start s'.stores s'.metrics)
  have hw : task.weights.AtMost (e'.weights mode) := weights_atMost hc he he' mode
  have hmonotone : ∀ k ∈ e.contributors, k.IsMonotone := by
    rw [contributors_of_build he, List.append_nil]
    exact fun k hk => isMonotone_of_mem_standardContributors hk
  have hp : p.AtMost p' := by
    show p.AtMost (run _ e'.contributors _)
    rw [contributors_eq hc he he']
    exact run_atMost hmonotone hw ⟨hs, rfl, rfl, Int.le_refl 0, nofun⟩
  have hgate : e.gateDecision? mode ctx q timeOfDay s = p.decision :=
    gateDecision?_of_standard he ..
  have hgate' : e'.gateDecision? mode ctx q timeOfDay s' = p'.decision :=
    gateDecision?_of_standard he' ..
  rw [hgate, hgate']
  refine ⟨hp.stores, congrArg Findings.summary hp.findings, clampScore_mono hp.score, hp.decision,
    fun d hd => ?_, fun hunended => ?_⟩
  · have hd' : p'.decision = some d := hp.decision ▸ hd
    refine ⟨?_, ?_, congrArg clampScore (hp.ended (Option.isSome_of_mem hd))⟩
    · show p.decision.getD _ = d
      rw [hd, Option.getD_some]
    · show p'.decision.getD _ = d
      rw [hd', Option.getD_some]
  · have hunended' : p'.decision = none := hp.decision ▸ hunended
    show ∃ a ∈ (p.decision.getD _).severity, ∃ b ∈ (p'.decision.getD _).severity, a ≤ b
    rw [hunended, hunended', Option.getD_none, Option.getD_none]
    refine severity_decide_le ?_ ?_ hp.score
    · rw [scoring_of_build he, scoring_of_build he', hc.rest]
    · rw [scoring_of_build he, scoring_of_build he', hc.rest]

end Build

/-- Two engines that differ in the points of two findings, and a message of which both hold; some of
the points are negative. -/
theorem check_atMost_raised :
    let c : Config := { greylist := { enabled := false } }
    let low : Config := { c with scoring := { c.scoring with
      weights := { spfPass := -10, spfNone := -5, dkimNone := -1, missingAuthor := 30 } } }
    let high : Config := { c with scoring := { c.scoring with
      weights := { spfPass := -10, spfNone := 15, dkimNone := -1, missingAuthor := 40 } } }
    let scheme : Dkim.Scheme := ⟨fun _ => [], fun _ _ => none⟩
    let reg : Registry := .ofRules []
    let r := Dns.Zone.empty.resolver
    let q : Request := ⟨.v4 0xCB007105, "mx.b.c", some ⟨"u", "a.com"⟩, ⟨"u", "d.e"⟩, none,
      ⟨⟨[]⟩, []⟩⟩
    let s := State.fresh c 0
    ∃ e e', build scheme reg r (fun _ => .error "") [] low = .ok e ∧
      build scheme reg r (fun _ => .error "") [] high = .ok e' ∧
      let v := e.check "" .standard ⟨0, none⟩ q 0 s
      let v' := e'.check "" .standard ⟨0, none⟩ q 0 s
      low.AtMost high ∧ v.2.stores = v'.2.stores ∧ v.1.auth = v'.1.auth ∧
        v.1.score = 24 ∧ v'.1.score = 54 ∧ v.1.score ≤ v'.1.score ∧
        e.gateDecision? .standard ⟨0, none⟩ q 0 s = none ∧
        v.1.decision = .accept ∧ v'.1.decision = .quarantine := by
  intro c low high scheme reg r q s
  have hlow : build scheme reg r (fun _ => .error "") [] low = .ok _ :=
    build_of_fault? (by decide +kernel) rfl
  have hhigh : build scheme reg r (fun _ => .error "") [] high = .ok _ :=
    build_of_fault? (by decide +kernel) rfl
  refine ⟨_, _, hlow, hhigh, ?_⟩
  intro v v'
  have hraised : low.AtMost high := by
    constructor
    · constructor <;> decide
    · constructor <;> decide
    · rfl
  obtain ⟨hstores, hauth, hscore, -, -, -⟩ :=
    check_atMost hraised hlow hhigh "" "" .standard ⟨0, none⟩ q 0 (s := s) rfl
  refine ⟨hraised, hstores, hauth, by decide +kernel, by decide +kernel, hscore,
    by decide +kernel, by decide +kernel, by decide +kernel⟩

end Engine

end MailScreen
