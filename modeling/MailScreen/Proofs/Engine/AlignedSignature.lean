import MailScreen.Proofs.Dkim.FirstValid
import MailScreen.Proofs.Dmarc.Governing
import MailScreen.Proofs.Engine.Gates
import MailScreen.Proofs.Mail.Domain

/-!
# Messages that pass by a signature

The check of the author's policy is told of one signature only, the first valid one. So a message
passes by an aligned signature unless a valid signature of another domain stands before it.

* `authenticate` is what the three methods of authentication come to, one after the other;
  `dmarc_run_standard`: this is what the contributors of an engine find, if no gate ends the check.
* `authenticate_pass_iff` says in terms of the zone when a message passes.
* `dmarc_pass_of_aligned` is the result for an aligned signature at any position, and
  `not_dmarc_pass_of_aligned` shows that what stands before it matters.
-/

namespace MailScreen

/-- A contributor that leaves it to the others to say what the author's policy makes of a
message. -/
def Contributor.LeavesPolicy (c : Contributor) : Prop :=
  ∀ task f s outcome author, (c.evaluate task f s).1.signal ≠ some (.dmarc outcome author)

theorem Contributor.IsSilent.leavesPolicy {c : Contributor} (h : c.IsSilent) : c.LeavesPolicy := by
  intro task f s outcome author hsignal
  cases h task f s _ hsignal

namespace Engine

open Dns (Asks Untroubled)

variable {scheme : Dkim.Scheme} {reg : Registry} {r : Dns.Resolver} {z : Dns.Zone}
  {config : Config} {task : Task} {author : String}

/-! ## The three methods -/

/-- The outcome for a message of an author's domain, by all three methods of authentication. -/
def authenticate (scheme : Dkim.Scheme) (reg : Registry) (limit : Nat) (q : Request)
    (timeOfDay : Int) (author : String) (ctx : Dns.Context) (r : Dns.Resolver) :
    StateM Dns.Session Dmarc.Outcome :=
  Spf.verify r ctx limit q.sender q.helo q.client >>= fun spf =>
    Dkim.verify scheme ctx r timeOfDay q.message >>= fun dkim =>
      Dmarc.evaluate reg ctx r author spf.1 spf.2 dkim

/-- What follows the check of the sender. -/
theorem asks_afterSpf (scheme : Dkim.Scheme) (reg : Registry) (q : Request) (timeOfDay : Int)
    (author : String) (spf : Spf.Outcome × Option String) :
    Asks fun ctx r => Dkim.verify scheme ctx r timeOfDay q.message >>= fun dkim =>
      Dmarc.evaluate reg ctx r author spf.1 spf.2 dkim :=
  (Dkim.asks_verify scheme timeOfDay q.message).bind fun dkim =>
    Dmarc.asks_evaluate author spf.1 spf.2 dkim

theorem asks_authenticate (scheme : Dkim.Scheme) (reg : Registry) (limit : Nat) (q : Request)
    (timeOfDay : Int) (author : String) :
    Asks (authenticate scheme reg limit q timeOfDay author) :=
  (Spf.asks_verify limit q.sender q.helo q.client).bind
    (asks_afterSpf scheme reg q timeOfDay author)

/-- **When a message passes**, if no lookup fails for now: the sender is authenticated for an
aligned domain, or the first valid signature is. -/
theorem authenticate_pass_iff {limit : Nat} {q : Request} {timeOfDay : Int} {ctx : Dns.Context}
    {s : Dns.Session} {record : Dmarc.Record} {policy : Dmarc.Policy}
    (hauthor : q.message.author? = some author)
    (hgoverns : Dmarc.Governs reg z author record policy)
    (h : Untroubled (authenticate scheme reg limit q timeOfDay author) ctx z.resolver s) :
    let spf := (Spf.verify z.resolver ctx limit q.sender q.helo q.client s).1
    (authenticate scheme reg limit q timeOfDay author ctx z.resolver s).1.result = .pass ↔
      Dmarc.spfAligned reg record author spf.1 spf.2 = true ∨
        ∃ o, Dkim.FirstValid scheme z timeOfDay q.message
            ((q.message.headers.getAll "dkim-signature").take Dkim.maxSignatures) o ∧
          o.domain.any (Dmarc.aligned reg record.dkimAlignment author) = true := by
  intro spf
  have hplain : DomainName.normalize author = author :=
    DomainName.normalize_of_isPlain (Mail.Message.isPlain_author? hauthor)
  obtain ⟨-, hafterSpf⟩ := h.of_bind (Spf.asks_verify limit q.sender q.helo q.client)
    (asks_afterSpf scheme reg q timeOfDay author)
  obtain ⟨hdkim, hdmarc⟩ := hafterSpf.of_bind (Dkim.asks_verify scheme timeOfDay q.message)
    fun dkim => Dmarc.asks_evaluate author spf.1 spf.2 dkim
  rw [authenticate, Dns.Session.bind_apply, Dns.Session.bind_apply,
    Dmarc.evaluate_of_governs (by rwa [hplain]) hdmarc, hplain, Dmarc.apply_eq_pass_iff]
  refine or_congr_right ?_
  rw [Dmarc.dkimAligned, Bool.and_eq_true_iff]
  constructor
  · rintro ⟨hvalid, haligned⟩
    exact ⟨_, (Dkim.verify_eq_iff hdkim).mp ⟨rfl, hvalid⟩, haligned⟩
  · rintro ⟨o, hfirst, haligned⟩
    obtain ⟨rfl, hvalid⟩ := (Dkim.verify_eq_iff hdkim).mpr hfirst
    exact ⟨hvalid, haligned⟩

/-! ## The contributors -/

/-- The gates look nothing up. -/
theorem session_run_gates (p : Progress) :
    (run task (gates scheme config) p).stores.session = p.stores.session := by
  refine run_of_forall (P := fun p' => p'.stores.session = p.stores.session) ?keeps rfl
  case keeps =>
    intro c hc p' hp'
    simp only [gates, List.mem_cons, List.not_mem_nil, or_false] at hc
    rcases hc with rfl | rfl
    · exact hp'
    · exact hp'

theorem dmarc_advance {c : Contributor} (hc : c.LeavesPolicy) (p : Progress) :
    (p.advance task c).findings.dmarc = p.findings.dmarc := by
  show ((c.evaluate task p.findings p.stores).1.signal.elim p.findings p.findings.record).dmarc = _
  cases hsignal : (c.evaluate task p.findings p.stores).1.signal with
  | none => rfl
  | some x =>
    cases x with
    | dmarc outcome author => exact absurd hsignal (hc task p.findings p.stores outcome author)
    | spf | dkim | suspiciousHelo => rfl

/-- What the check of the author's policy has found stands. -/
theorem dmarc_run {cs : List Contributor} (hcs : ∀ c ∈ cs, c.LeavesPolicy) (p : Progress) :
    (run task cs p).findings.dmarc = p.findings.dmarc := by
  refine run_of_forall (P := fun p' => p'.findings.dmarc = p.findings.dmarc) ?keeps rfl
  exact fun c hc p' hp' => (dmarc_advance (hcs c hc) p').trans hp'

/-- The checks find what the three methods come to. -/
theorem dmarc_run_checks (hauthor : task.request.message.author? = some author) (p : Progress) :
    (run task (checks scheme reg r config) p).findings.dmarc =
      some (authenticate scheme reg config.spf.maxLookups task.request task.timeOfDay author
        task.context r p.stores.session).1 := by
  have hgoesOn {c : Contributor} (hc : c ∈ checks scheme reg r config) (p : Progress) :
      (p.advance task c).decision = none := neverEnds_of_mem_checks hc task p.findings p.stores
  have hdomain : policyDomain? task = some author := by
    unfold policyDomain?
    rw [hauthor]
  have hhelo : ∀ c ∈ [heloCheck], c.LeavesPolicy := by
    simpa using heloCheck_isSilent.leavesPolicy
  let p' := (p.advance task (spfCheck r config.spf.maxLookups)).advance task (dkimCheck scheme r)
  unfold checks at hgoesOn ⊢
  rw [run_of_undecided (hgoesOn (by simp) _), run_of_undecided (hgoesOn (by simp) _),
    run_of_undecided (hgoesOn (by simp) _), dmarc_run hhelo]
  show (((dmarcCheck reg r).evaluate task p'.findings p'.stores).1.signal.elim p'.findings
    p'.findings.record).dmarc = _
  rw [signal_dmarcCheck_of_some hdomain]
  rfl

/-- **The contributors of every engine find what the three methods come to**, if no gate ends the
check. -/
theorem dmarc_run_standard {p : Progress} (hp : p.decision = none)
    (hgates : (run task (gates scheme config) p).decision = none)
    (hauthor : task.request.message.author? = some author) :
    (run task (standardContributors scheme reg r config) p).findings.dmarc =
      some (authenticate scheme reg config.spf.maxLookups task.request task.timeOfDay author
        task.context r p.stores.session).1 := by
  rw [standardContributors_eq, run_append hp, hgates, if_neg (by simp), dmarc_run_checks hauthor,
    session_run_gates]

/-! ## Engines -/

section Build

variable {keyText : String → Except String String} {extra : List Contributor} {e : Engine}
  {mode : Mode} {ctx : Dns.Context} {q : Request} {timeOfDay : Int} {s : State}

/-- The contributors that come after those of every engine are asked after what these have found. -/
theorem auth_dmarc_check (hbuild : build scheme reg r keyText extra config = .ok e)
    (hextra : ∀ x ∈ extra, x.LeavesPolicy) (hgates : e.gateDecision? mode ctx q timeOfDay s = none)
    (id : String) : (e.check id mode ctx q timeOfDay s).1.auth.dmarc =
      (run (e.task mode ctx q timeOfDay) (standardContributors scheme reg r config)
        (.start s.stores s.metrics)).findings.dmarc.elim "none" (·.result.name) := by
  rw [gateDecision?_of_build hbuild] at hgates
  have hundecided : (run (e.task mode ctx q timeOfDay) (standardContributors scheme reg r config)
      (.start s.stores s.metrics)).decision = none := (decision_run_standard rfl).trans hgates
  rw [auth_check, contributors_of_build hbuild, run_append rfl, hundecided, if_neg (by simp)]
  exact congrArg (Option.elim · "none" (·.result.name)) (dmarc_run hextra _)

/-- **An aligned signature lets a message pass** if no valid signature of a domain that is not
aligned stands before it, or if the sender is authenticated for an aligned domain anyway. Let no
gate end the check, let no lookup fail for now, and let a record govern the author's domain. Of the
signatures that are checked let one be found valid, for a domain that is aligned as the record asks
for. Then the contributors of the engine find that the message passes by the policy of its author;
and the verdict says so, unless an added contributor has something else to say of it. -/
theorem dmarc_pass_of_aligned (hbuild : build scheme reg z.resolver keyText extra config = .ok e)
    (hgates : e.gateDecision? mode ctx q timeOfDay s = none)
    (hauthor : q.message.author? = some author) {record : Dmarc.Record} {policy : Dmarc.Policy}
    (hgoverns : Dmarc.Governs reg z author record policy)
    (huntroubled : Untroubled (authenticate scheme reg config.spf.maxLookups q timeOfDay author) ctx
      z.resolver s.stores.session)
    {before after : List String} {text : String} {o : Dkim.Outcome}
    (hfields : q.message.headers.getAll "dkim-signature" = before ++ text :: after)
    (hposition : before.length < Dkim.maxSignatures)
    (hvalid : Dkim.IsFoundValid scheme z timeOfDay q.message text o)
    (haligned : o.domain.any (Dmarc.aligned reg record.dkimAlignment author) = true)
    (hbefore : let spf := (Spf.verify z.resolver ctx config.spf.maxLookups q.sender q.helo q.client
        s.stores.session).1
      Dmarc.spfAligned reg record author spf.1 spf.2 = true ∨
        ∀ t ∈ before, ∀ o', Dkim.IsFoundValid scheme z timeOfDay q.message t o' →
          o'.domain.any (Dmarc.aligned reg record.dkimAlignment author) = true) :
    (∃ outcome, (run (e.task mode ctx q timeOfDay)
        (standardContributors scheme reg z.resolver config)
        (.start s.stores s.metrics)).findings.dmarc = some outcome ∧ outcome.result = .pass) ∧
      ((∀ x ∈ extra, x.LeavesPolicy) →
        ∀ id, (e.check id mode ctx q timeOfDay s).1.auth.dmarc = "pass") := by
  have hundecided : (run (e.task mode ctx q timeOfDay) (gates scheme config)
      (.start s.stores s.metrics)).decision = none :=
    (gateDecision?_of_build hbuild mode ctx q timeOfDay s).symm.trans hgates
  have hfound : (run (e.task mode ctx q timeOfDay)
      (standardContributors scheme reg z.resolver config)
      (.start s.stores s.metrics)).findings.dmarc = some _ :=
    dmarc_run_standard rfl hundecided hauthor
  have hpass : (authenticate scheme reg config.spf.maxLookups q timeOfDay author ctx z.resolver
      s.stores.session).1.result = .pass := by
    refine (authenticate_pass_iff hauthor hgoverns huntroubled).mpr (hbefore.imp_right ?_)
    intro hbefore
    obtain ⟨k, hk⟩ := Nat.exists_eq_add_of_lt hposition
    obtain ⟨o', hfirst, hwhich⟩ := Dkim.exists_firstValid before (after.take k) hvalid
    refine ⟨o', ?_, ?_⟩
    · rwa [hfields, hk, Nat.add_assoc, List.take_length_add_append, List.take_succ_cons]
    · rcases hwhich with ⟨t, ht, hearlier⟩ | rfl
      · exact hbefore t ht o' hearlier
      · exact haligned
  refine ⟨⟨_, hfound, hpass⟩, fun hextra id => ?_⟩
  rw [auth_dmarc_check hbuild hextra hgates, hfound]
  exact congrArg Dmarc.Result.name hpass

end Build

/-- A signature of a domain whose key is not published, and after it an aligned one. -/
theorem dmarc_pass_of_aligned_second :
    let c : Config := { greylist := { enabled := false } }
    let reg : Registry := .ofRules [.suffix ["com"]]
    let zone := (Dns.Zone.empty.addText "s._domainkey.a.com" "k=ed25519; p=AQ==").addText
      "_dmarc.a.com" "v=DMARC1; p=reject"
    let other := "v=1; a=ed25519-sha256; d=b.com; s=s; h=from; bh=Ag==; b=WQ=="
    let own := "v=1; a=ed25519-sha256; d=a.com; s=s; h=from; bh=Ag==; b=WQ=="
    let q : Request := ⟨.v4 0xCB007105, "mx.b.c", none, ⟨"u", "d.e"⟩, none, ⟨⟨[
      ⟨"DKIM-Signature", other⟩, ⟨"DKIM-Signature", own⟩, ⟨"From", "<u@a.com>"⟩]⟩, []⟩⟩
    let s := State.fresh c 0
    ∃ e, build .counting reg zone.resolver (fun _ => .error "") [heloCheck] c = .ok e ∧
      let ctx := e.newContext 0
      e.gateDecision? .standard ctx q 0 s = none ∧ q.message.author? = some "a.com" ∧
        Dmarc.Governs reg zone "a.com" (.ofPolicy .reject) .reject ∧
        Untroubled (authenticate .counting reg 10 q 0 "a.com") ctx zone.resolver s.stores.session ∧
        q.message.headers.getAll "dkim-signature" = [other, own] ∧
        Dkim.IsFoundValid .counting zone 0 q.message own ⟨.pass, some "a.com", some "s"⟩ ∧
        (∀ o', ¬ Dkim.IsFoundValid .counting zone 0 q.message other o') ∧
        (e.check "" .standard ctx q 0 s).1.auth.dmarc = "pass" := by
  intro c reg zone other own q s
  have hbuild : build .counting reg zone.resolver (fun _ => .error "") [heloCheck] c = .ok _ :=
    build_of_fault? (by decide +kernel) rfl
  have hprompt : zone.IsPrompt := ⟨rfl, rfl⟩
  refine ⟨_, hbuild, ?_⟩
  intro ctx
  have hauthor : q.message.author? = some "a.com" := by decide +kernel
  have hgoverns : Dmarc.Governs reg zone "a.com" (.ofPolicy .reject) .reject :=
    .own ⟨"v=DMARC1; p=reject", by decide +kernel, by decide +kernel⟩
  have huntroubled : Untroubled (authenticate .counting reg 10 q 0 "a.com") ctx zone.resolver
      s.stores.session := (asks_authenticate ..).untroubled hprompt rfl
  have hfields : q.message.headers.getAll "dkim-signature" = [other] ++ own :: [] := by
    decide +kernel
  have hvalid : Dkim.IsFoundValid .counting zone 0 q.message own ⟨.pass, some "a.com", some "s"⟩ :=
    ⟨rfl, ctx, s.stores.session, by decide +kernel⟩
  have hother (o' : Dkim.Outcome) : ¬ Dkim.IsFoundValid .counting zone 0 q.message other o' := by
    intro hfound
    have hquiet : Untroubled (fun ctx r => Dkim.verifyOne .counting ctx r 0 q.message other) ctx
        zone.resolver s.stores.session := (Dkim.asks_verifyOne other).untroubled hprompt rfl
    have hinvalid : (Dkim.verifyOne .counting ctx zone.resolver 0 q.message other
      s.stores.session).1.isValid = false := by decide +kernel
    rw [Dkim.verifyOne_of_untroubled hfound hquiet, hfound.1] at hinvalid
    cases hinvalid
  refine ⟨?gates, hauthor, hgoverns, huntroubled, hfields, hvalid, hother,
    (dmarc_pass_of_aligned hbuild ?gates hauthor hgoverns huntroubled hfields (by decide) hvalid
      (by decide +kernel) (Or.inr ?before)).2 ?extra ""⟩
  case gates => decide +kernel
  case before => exact fun t ht o' hfound => absurd hfound (List.mem_singleton.mp ht ▸ hother o')
  case extra => simpa using heloCheck_isSilent.leavesPolicy

/-- Two valid signatures, of which the second is aligned. The message fails by the policy of its
author; with the signatures in the other order it passes. -/
theorem not_dmarc_pass_of_aligned :
    let c : Config := { greylist := { enabled := false } }
    let reg : Registry := .ofRules [.suffix ["com"]]
    let zone := ((Dns.Zone.empty.addText "s._domainkey.a.com" "k=ed25519; p=AQ==").addText
      "s._domainkey.b.com" "k=ed25519; p=AQ==").addText "_dmarc.a.com" "v=DMARC1; p=reject"
    let other := "v=1; a=ed25519-sha256; d=b.com; s=s; h=from; bh=Ag==; b=WQ=="
    let own := "v=1; a=ed25519-sha256; d=a.com; s=s; h=from; bh=Ag==; b=WQ=="
    let q (signatures : List String) : Request := ⟨.v4 0xCB007105, "mx.b.c", none, ⟨"u", "d.e"⟩,
      none, ⟨⟨signatures.map (⟨"DKIM-Signature", ·⟩) ++ [⟨"From", "<u@a.com>"⟩]⟩, []⟩⟩
    let s := State.fresh c 0
    ∃ e, build .counting reg zone.resolver (fun _ => .error "") [] c = .ok e ∧
      let ctx := e.newContext 0
      let q₁ := q [other, own]
      e.gateDecision? .standard ctx q₁ 0 s = none ∧ q₁.message.author? = some "a.com" ∧
        Dmarc.Governs reg zone "a.com" (.ofPolicy .reject) .reject ∧
        Untroubled (authenticate .counting reg 10 q₁ 0 "a.com") ctx zone.resolver s.stores.session ∧
        q₁.message.headers.getAll "dkim-signature" = [other, own] ∧
        Dkim.IsFoundValid .counting zone 0 q₁.message own ⟨.pass, some "a.com", some "s"⟩ ∧
        Dmarc.aligned reg (Dmarc.Record.ofPolicy .reject).dkimAlignment "a.com" "a.com" = true ∧
        (e.check "" .standard ctx q₁ 0 s).1.auth.dmarc = "fail" ∧
        (e.check "" .standard ctx (q [own, other]) 0 s).1.auth.dmarc = "pass" := by
  refine ⟨_, build_of_fault? (by decide +kernel) rfl, by decide +kernel, by decide +kernel,
    .own ⟨"v=DMARC1; p=reject", by decide +kernel, by decide +kernel⟩,
    (asks_authenticate ..).untroubled ⟨rfl, rfl⟩ rfl, by decide +kernel,
    ⟨rfl, ⟨0, none⟩, ⟨0, []⟩, by decide +kernel⟩, by decide +kernel, by decide +kernel,
    by decide +kernel⟩

end Engine

end MailScreen
