import MailScreen.Dns.Zone
import MailScreen.Proofs.Dmarc.Alignment
import MailScreen.Proofs.Engine.Signals

/-!
# What stands behind a reported pass

A verdict that reports a pass by the author's policy also reports the domain that the policy belongs
to, and an identifier that was authenticated and is aligned with that domain. The three come from
different contributors, and the record that decided may have asked for strict or for relaxed
alignment.

* `AuthSummary.Supports` says that a summary reports such an identifier for a domain,
  `AuthSummary.IsSupported` that it does so for the domain that it reports.
* `leads_dmarcCheck` is what the check of the author's policy brings about.
* `isSupported_of_dmarc_pass` is the result for every engine.

What is compared is the normal form of the domain. That makes a difference only for the domain of an
envelope that was not read from text, such as that of `not_supports_unsettled`.
-/

namespace MailScreen

open DomainName

/-- A method is reported to have passed for a domain that is aligned with the author's in the
relaxed sense. -/
def AuthSummary.Supports (a : AuthSummary) (reg : Registry) (author : String) : Prop :=
  (a.spf = "pass" ∧ ∃ d ∈ a.spfDomain, Dmarc.aligned reg .relaxed author d = true) ∨
    (a.dkim = "pass" ∧ ∃ d ∈ a.dkimDomain, Dmarc.aligned reg .relaxed author d = true)

instance (a : AuthSummary) (reg : Registry) (author : String) :
    Decidable (a.Supports reg author) :=
  inferInstanceAs (Decidable (_ ∨ _))

/-- The reported domain is the author's and is supported; or it is that of the envelope, which
counts where few header fields are passed on, and its normal form is supported. -/
def AuthSummary.IsSupported (a : AuthSummary) (reg : Registry) (mode : Mode) (q : Request) :
    Prop :=
  ∃ domain, a.fromDomain = some domain ∧ a.Supports reg (normalize domain) ∧
    (q.message.author? = some domain ∧ a.Supports reg domain ∨
      mode = .minimal ∧ q.message.author? = none ∧ (∃ m ∈ q.sender, m.domain = domain) ∧
        (Dmarc.Settles domain → a.Supports reg domain))

namespace Engine

variable {task : Task} {reg : Registry} {r : Dns.Resolver}

/-- Nothing has been found of the author's policy. -/
def Undecided (f : Findings) : Prop :=
  f.dmarc = none

/-- A pass that a summary reports is supported. -/
def PassIsSupported (reg : Registry) (task : Task) (a : AuthSummary) : Prop :=
  a.dmarc = "pass" → a.IsSupported reg task.mode task.request

theorem passIsSupported_of_undecided {f : Findings} (h : Undecided f) :
    PassIsSupported reg task f.summary := by
  intro hpass
  have hnone : f.summary.dmarc = "none" := by rw [Findings.summary, h]; rfl
  rw [hnone] at hpass
  exact absurd hpass (by decide)

/-! ## The check of the author's policy -/

theorem result_of_name {result : Dmarc.Result} (h : result.name = "pass") : result = .pass := by
  cases result with
  | pass => rfl
  | fail _ | none | tempError | permError => exact absurd h (by simp [Dmarc.Result.name])

/-- An identifier that is aligned as a record asks for supports every name with which all that is
aligned with the author is. -/
theorem supports_of_aligned {f : Findings} {author name : String} {record : Dmarc.Record}
    (hname : ∀ mode d, Dmarc.aligned reg mode author d = true →
      Dmarc.aligned reg .relaxed name d = true)
    (h : Dmarc.spfAligned reg record author f.spfOutcome f.spfDomain = true ∨
      Dmarc.dkimAligned reg record author f.dkimOutcome = true) :
    f.summary.Supports reg name := by
  rcases h with hspf | hdkim
  · obtain ⟨hpass, haligned⟩ := Bool.and_eq_true_iff.mp hspf
    obtain ⟨d, hd, hauthor⟩ := (Option.any_eq_true _ _).mp haligned
    refine Or.inl ⟨?_, d, hd, hname _ d hauthor⟩
    exact congrArg Spf.Outcome.name (eq_of_beq hpass)
  · obtain ⟨hpass, haligned⟩ := Bool.and_eq_true_iff.mp hdkim
    obtain ⟨d, hd, hauthor⟩ := (Option.any_eq_true _ _).mp haligned
    refine Or.inr ⟨?_, d, hd, hname _ d hauthor⟩
    exact congrArg Dkim.Result.name (eq_of_beq hpass)

/-- **The check of the author's policy** reports no pass without support. -/
theorem leads_dmarcCheck :
    (dmarcCheck reg r).Leads task Undecided (fun f => PassIsSupported reg task f.summary) := by
  refine Contributor.leads_of_signal (fun f => passIsSupported_of_undecided) ?_
  intro f s _ x hx hpass
  cases hdomain : policyDomain? task with
  | none =>
    rw [signal_dmarcCheck_of_none hdomain] at hx
    cases hx
  | some domain =>
    rw [signal_dmarcCheck_of_some hdomain] at hx
    obtain rfl := Option.some.inj hx
    obtain ⟨record, haligned⟩ := Dmarc.evaluate_pass (result_of_name hpass)
    refine ⟨domain, rfl, supports_of_aligned (fun _ _ => Dmarc.relaxed_of_aligned) haligned, ?_⟩
    have hsettled (hsettles : Dmarc.Settles domain) : f.summary.Supports reg domain :=
      supports_of_aligned (fun _ _ => Dmarc.relaxed_of_settles hsettles) haligned
    rcases policyDomain?_eq_some hdomain with hauthor | ⟨hmode, hauthor, hsender⟩
    · have hplain := Mail.Message.isPlain_author? hauthor
      exact Or.inl ⟨hauthor, hsettled (Dmarc.settles_of_isPlain hplain)⟩
    · exact Or.inr ⟨hmode, hauthor, hsender, hsettled⟩

/-! ## Whole checks -/

/-- The contributors before the check of the author's policy. -/
def earlierContributors (scheme : Dkim.Scheme) (r : Dns.Resolver) (c : Config) :
    List Contributor :=
  [rateLimitGate c.scoring.rateLimitScore, greylistGate scheme.hash c.scoring.greylistScore,
    spfCheck r c.spf.maxLookups, dkimCheck scheme r]

/-- They tell nothing of the author's policy. -/
theorem leads_of_mem_earlierContributors {scheme : Dkim.Scheme} {c : Config} {b : Contributor}
    (hb : b ∈ earlierContributors scheme r c) : b.Leads task Undecided Undecided := by
  refine Contributor.leads_of_signal (fun _ hf => hf) ?_
  intro f s hf x hx
  simp only [earlierContributors, List.mem_cons, List.not_mem_nil, or_false] at hb
  rcases hb with rfl | rfl | rfl | rfl
  · rw [signal_rateLimitGate] at hx
    cases hx
  · rw [signal_greylistGate] at hx
    cases hx
  · rw [signal_spfCheck] at hx
    obtain rfl := Option.some.inj hx
    exact hf
  · rw [signal_dkimCheck] at hx
    obtain rfl := Option.some.inj hx
    exact hf

/-- **A reported pass is supported**, by every engine whose further contributors tell nothing of
authentication. -/
theorem isSupported_of_dmarc_pass {scheme : Dkim.Scheme} {keyText : String → Except String String}
    {extra : List Contributor} {c : Config} {e : Engine}
    (hbuild : build scheme reg r keyText extra c = .ok e) (hextra : ∀ x ∈ extra, x.IsSilent)
    (id : String) (mode : Mode) (ctx : Dns.Context) (q : Request) (timeOfDay : Int) (s : State)
    (hpass : (e.check id mode ctx q timeOfDay s).1.auth.dmarc = "pass") :
    (e.check id mode ctx q timeOfDay s).1.auth.IsSupported reg mode q := by
  have hlater : ∀ a ∈ heloCheck :: extra, a.IsSilent :=
    List.forall_mem_cons.mpr ⟨heloCheck_isSilent, hextra⟩
  have hcontributors : e.contributors =
      earlierContributors scheme r c ++ dmarcCheck reg r :: heloCheck :: extra :=
    contributors_of_build hbuild
  rw [auth_check, hcontributors] at hpass ⊢
  let t := e.task mode ctx q timeOfDay
  exact run_of_establishes (J := fun f => PassIsSupported reg t f.summary)
    (fun f => passIsSupported_of_undecided) (fun b => leads_of_mem_earlierContributors)
    leads_dmarcCheck (fun a ha => (hlater a ha).leads t (PassIsSupported reg t)) rfl hpass

theorem isSupported_of_dmarc_pass_subdomain :
    let c : Config := { greylist := { enabled := false } }
    let zone := (Dns.Zone.empty.addText "a.com" "v=spf1 +all").addText "_dmarc.a.com"
      "v=DMARC1; p=reject"
    let scheme : Dkim.Scheme := ⟨fun _ => [], fun _ _ => none⟩
    let reg : Registry := .ofRules [.suffix ["com"]]
    let q : Request := ⟨.v4 0xCB007105, "mx.b.c", some ⟨"u", "a.com"⟩, ⟨"u", "d.e"⟩, none,
      ⟨⟨[⟨"From", "U <u@sub.A.com.>"⟩]⟩, []⟩⟩
    ∃ e, build scheme reg zone.resolver (fun _ => .error "") [heloCheck] c = .ok e ∧
      (∀ x ∈ [heloCheck], x.IsSilent) ∧
      let v := (e.check "" .standard (e.newContext 0) q 0 (.fresh c 0)).1
      v.auth = ⟨"pass", some "a.com", "none", none, "pass", some "sub.a.com"⟩ ∧
        v.auth.IsSupported reg .standard q := by
  intro c zone scheme reg q
  have hbuild : build scheme reg zone.resolver (fun _ => .error "") [heloCheck] c = .ok _ :=
    build_of_fault? (by decide +kernel) rfl
  have hsilent : ∀ x ∈ [heloCheck], x.IsSilent := by simpa using heloCheck_isSilent
  refine ⟨_, hbuild, hsilent, ?_⟩
  intro v
  have hauth : v.auth = ⟨"pass", some "a.com", "none", none, "pass", some "sub.a.com"⟩ := by
    decide +kernel
  exact ⟨hauth, isSupported_of_dmarc_pass hbuild hsilent "" .standard _ q 0 _
    (congrArg AuthSummary.dmarc hauth)⟩

/-- A pass that only the normal form of the reported domain supports. The domain ends in dots with
blanks between them, so every time it is brought to normal form another dot goes. -/
theorem not_supports_unsettled :
    let c : Config := { greylist := { enabled := false } }
    let zone := (Dns.Zone.empty.addText "a.com. " "v=spf1 +all").addText "_dmarc.a.com. . "
      "v=DMARC1; p=reject; aspf=s"
    let scheme : Dkim.Scheme := ⟨fun _ => [], fun _ _ => none⟩
    let reg : Registry := .ofRules [.suffix ["com"]]
    let q : Request := ⟨.v4 0xCB007105, "mx.b.c", some ⟨"u", "a.com. . ."⟩, ⟨"u", "d.e"⟩, none,
      ⟨⟨[]⟩, []⟩⟩
    ∃ e, build scheme reg zone.resolver (fun _ => .error "") [] c = .ok e ∧
      let v := (e.check "" .minimal (e.newContext 0) q 0 (.fresh c 0)).1
      v.auth.dmarc = "pass" ∧ v.auth.fromDomain = some "a.com. . ." ∧
        ¬ v.auth.Supports reg "a.com. . ." := by
  intro c zone scheme reg q
  refine ⟨_, build_of_fault? (by decide +kernel) rfl, ?_⟩
  decide +kernel

end Engine

end MailScreen
