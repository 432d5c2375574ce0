import MailScreen.Dns.Zone
import MailScreen.Proofs.Dkim.ReportedDomain
import MailScreen.Proofs.Engine.Signals
import MailScreen.Proofs.Mail.Domain
import MailScreen.Proofs.Verdict.ResultsField
import MailScreen.Protocol.CheckLine

/-!
# What a sender can put into the results field

Domains go into the value of `Authentication-Results` as they are, and the sender of a message
chooses them: in the envelope, in the name of the client, in a signature and in the `From` field.
Each of the readers of these texts lets through other characters.

* `Request.IsTidy` is what is left to ask of a request, reader by reader.
* `isTidy_of_mem_standardContributors`: of such a request the checks tell only what stays in its
  part of the value.
* `isToldBy_of_request`: then the value is one line of four parts, which read as the verdict has it.
* `not_isToldBy`: without any one of these conditions a request can add a part or a line.
-/

namespace MailScreen

open MailScreen.Text DomainName

/-- The domains that are told stay in their parts. -/
def Signal.IsTidy : Signal → Prop
  | .spf _ domain => ∀ d ∈ domain, StaysInPart d
  | .dkim outcome => ∀ d ∈ outcome.domain, StaysInPart d
  | .dmarc _ author => StaysInPart author
  | .suspiciousHelo => True

/-- The domains that a contributor tells in a check stay in their parts. -/
def Contributor.IsTidy (c : Contributor) (task : Task) : Prop :=
  ∀ f s, ∀ x ∈ (c.evaluate task f s).1.signal, x.IsTidy

/-- No domain that a request brings along ends a part or a line. What its readers exclude by
themselves is not asked again: blanks in the domains of mailboxes, semicolons in a signature. -/
structure Request.IsTidy (q : Request) : Prop where
  sender : ∀ m ∈ q.sender, ';' ∉ m.domain.toList
  /-- The name of the client stands for the null sender; without a dot it is not reported. -/
  helo : q.sender = none → '.' ∈ (normalize q.helo).toList → StaysInPart (normalize q.helo)
  author : ∀ d ∈ q.message.author?, ';' ∉ d.toList
  signatures : ∀ d, Dkim.IsSigningDomain q.message d → '\r' ∉ d.toList ∧ '\n' ∉ d.toList

theorem staysInPart_normalize {s : String} (h : StaysInPart s) : StaysInPart (normalize s) := by
  intro c hc
  refine ⟨?_, ?_, ?_⟩
  · rintro rfl
    exact (h _ (mem_of_mem_normalize (by decide) hc)).1 rfl
  · rintro rfl
    exact (h _ (mem_of_mem_normalize (by decide) hc)).2.1 rfl
  · rintro rfl
    exact (h _ (mem_of_mem_normalize (by decide) hc)).2.2 rfl

theorem staysInPart_of_isPlain {s : String} (h : IsPlain s) (hsemicolon : ';' ∉ s.toList) :
    StaysInPart s := by
  intro c hc
  have hblank := h.noBlank c hc
  exact ⟨fun he => hsemicolon (he ▸ hc), ne_of_isBlank hblank (by decide),
    ne_of_isBlank hblank (by decide)⟩

/-! ## The summary -/

theorem isWord_spf (outcome : Spf.Outcome) : IsWord outcome.name := by
  cases outcome <;> decide

theorem isWord_dkim (result : Dkim.Result) : IsWord result.name := by
  cases result <;> decide

theorem isWord_dmarc (result : Dmarc.Result) : IsWord result.name := by
  cases result with
  | fail policy => exact (by decide : IsWord "fail")
  | pass | none | tempError | permError => decide

theorem isTidy_nothing : Findings.nothing.summary.IsTidy where
  spf := isWord_spf .none
  spfDomain := nofun
  dkim := isWord_dkim .none
  dkimDomain := nofun
  dmarc := by decide
  fromDomain := nofun

/-- What stays in its part may be taken down. -/
theorem isTidy_record {f : Findings} {x : Signal} (hf : f.summary.IsTidy) (hx : x.IsTidy) :
    (f.record x).summary.IsTidy := by
  cases x with
  | spf outcome domain => exact { hf with spf := isWord_spf _, spfDomain := hx }
  | dkim outcome => exact { hf with dkim := isWord_dkim _, dkimDomain := hx }
  | dmarc outcome author =>
    refine { hf with dmarc := isWord_dmarc _, fromDomain := ?_ }
    rintro d hd
    obtain rfl := Option.some.inj hd
    exact hx
  | suspiciousHelo => exact hf

/-- **A tidy contributor** keeps the summary tidy. -/
theorem Contributor.IsTidy.leads {c : Contributor} {task : Task} (h : c.IsTidy task) :
    c.Leads task (fun f => f.summary.IsTidy) (fun f => f.summary.IsTidy) :=
  leads_of_signal (fun _ hf => hf) fun f s hf x hx => isTidy_record hf (h f s x hx)

/-- A contributor that tells nothing tells nothing untidy. -/
theorem Contributor.isTidy_of_signal {c : Contributor} {task : Task}
    (h : ∀ f s, (c.evaluate task f s).1.signal = none) : c.IsTidy task := by
  intro f s x hx
  rw [h f s] at hx
  cases hx

theorem Contributor.IsSilent.isTidy {c : Contributor} (h : c.IsSilent) (task : Task) :
    c.IsTidy task := by
  intro f s x hx
  obtain rfl := h task f s x hx
  trivial

namespace Engine

/-! ## The contributors of every check -/

/-- The domain that is reported of the envelope. -/
theorem domain_verify_spf {r : Dns.Resolver} {ctx : Dns.Context} {limit : Nat}
    {sender : Option Mail.Mailbox} {helo : String} {client : Ip.Address} {s : Dns.Session}
    {domain : String} (h : (Spf.verify r ctx limit sender helo client s).1.2 = some domain) :
    domain = (Spf.identity sender helo).2 ∧ '.' ∈ domain.toList := by
  unfold Spf.verify at h
  simp only at h
  split at h
  · cases h
  · rename_i hdot
    obtain rfl := Option.some.inj h
    refine ⟨rfl, ?_⟩
    simpa using (not_or.mp (mt Bool.or_eq_true_iff.mpr hdot)).2

/-- The request of a check is tidy, and the sender of its envelope was read as a mailbox. -/
structure TaskIsTidy (task : Task) : Prop where
  request : task.request.IsTidy
  plain : ∀ m ∈ task.request.sender, IsPlain m.domain

variable {task : Task} {reg : Registry} {r : Dns.Resolver}

theorem TaskIsTidy.sender (h : TaskIsTidy task) {m : Mail.Mailbox} (hm : m ∈ task.request.sender) :
    StaysInPart m.domain :=
  staysInPart_of_isPlain (h.plain m hm) (h.request.sender m hm)

theorem isTidy_spfCheck (h : TaskIsTidy task) (limit : Nat) : (spfCheck r limit).IsTidy task := by
  intro f s x hx
  rw [signal_spfCheck] at hx
  obtain rfl := Option.some.inj hx
  intro d hd
  obtain ⟨hidentity, hdot⟩ := domain_verify_spf hd
  rw [hidentity] at hdot ⊢
  cases hsender : task.request.sender with
  | none =>
    rw [hsender] at hdot
    exact h.request.helo hsender hdot
  | some m => exact staysInPart_normalize (h.sender hsender)

theorem isTidy_dkimCheck (h : TaskIsTidy task) (scheme : Dkim.Scheme) :
    (dkimCheck scheme r).IsTidy task := by
  intro f s x hx
  rw [signal_dkimCheck] at hx
  obtain rfl := Option.some.inj hx
  intro d hd
  obtain ⟨value, hvalue, rfl⟩ := Dkim.domain_verify _ hd
  obtain ⟨hcr, hlf⟩ := h.request.signatures value hvalue
  refine staysInPart_normalize fun c hc => ⟨?_, ?_, ?_⟩
  · exact fun he => hvalue.noSemicolon (he ▸ hc)
  · exact fun he => hcr (he ▸ hc)
  · exact fun he => hlf (he ▸ hc)

theorem isTidy_dmarcCheck (h : TaskIsTidy task) : (dmarcCheck reg r).IsTidy task := by
  intro f s x hx
  cases hdomain : policyDomain? task with
  | none =>
    rw [signal_dmarcCheck_of_none hdomain] at hx
    cases hx
  | some domain =>
    rw [signal_dmarcCheck_of_some hdomain] at hx
    obtain rfl := Option.some.inj hx
    rcases policyDomain?_eq_some hdomain with hauthor | ⟨-, -, m, hm, rfl⟩
    · exact staysInPart_of_isPlain (Mail.Message.isPlain_author? hauthor)
        (h.request.author domain hauthor)
    · exact h.sender hm

/-- **The checks of a tidy request** tell only what stays in its part. -/
theorem isTidy_of_mem_standardContributors (h : TaskIsTidy task) {scheme : Dkim.Scheme}
    {c : Config} {b : Contributor} (hb : b ∈ standardContributors scheme reg r c) :
    b.IsTidy task := by
  simp only [standardContributors, List.mem_cons, List.not_mem_nil, or_false] at hb
  rcases hb with rfl | rfl | rfl | rfl | rfl | rfl
  · exact Contributor.isTidy_of_signal fun _ _ => signal_rateLimitGate _
  · exact Contributor.isTidy_of_signal fun _ _ => signal_greylistGate _ _
  · exact isTidy_spfCheck h _
  · exact isTidy_dkimCheck h scheme
  · exact isTidy_dmarcCheck h
  · exact heloCheck_isSilent.isTidy task

/-! ## Whole checks -/

/-- The sender on a line is read as a mailbox. -/
theorem isPlain_of_request {l : Protocol.CheckLine} {q : Request} (h : l.request = .ok q) :
    ∀ m ∈ q.sender, IsPlain m.domain := by
  intro m hm
  unfold Protocol.CheckLine.request at h
  cases hsender : Protocol.CheckLine.sender? l.sender with
  | error e => rw [hsender] at h; cases h
  | ok sender =>
    cases hrecipient : Protocol.CheckLine.recipient? l.recipient with
    | error e => rw [hsender, hrecipient] at h; cases h
    | ok recipient =>
      rw [hsender, hrecipient] at h
      obtain rfl := Except.ok.inj h
      obtain rfl : sender = some m := hm
      unfold Protocol.CheckLine.sender? at hsender
      simp only at hsender
      split at hsender
      · cases hsender
      · split at hsender
        · rename_i mailbox hmailbox
          obtain rfl := Option.some.inj (Except.ok.inj hsender)
          exact Mail.Mailbox.isPlain_of_ofChars? hmailbox
        · cases hsender

/-- **The results field of a tidy request** is one line of four parts, which read as the verdict has
it: those of the host and of the three methods, each with its own result. The engine may have
further contributors, as long as these are tidy too. -/
theorem isToldBy_of_request {scheme : Dkim.Scheme} {reg : Registry} {r : Dns.Resolver}
    {keyText : String → Except String String} {extra : List Contributor} {c : Config} {e : Engine}
    (hbuild : build scheme reg r keyText extra c = .ok e)
    (hextra : ∀ x ∈ extra, ∀ task, x.IsTidy task) (hhost : StaysInPart e.hostname)
    {l : Protocol.CheckLine} {q : Request} (hrequest : l.request = .ok q) (htidy : q.IsTidy)
    (id : String) (mode : Mode) (ctx : Dns.Context) (timeOfDay : Int) (s : State) :
    let v := (e.check id mode ctx q timeOfDay s).1
    v.auth.IsToldBy e.hostname (v.authenticationResults e.hostname) := by
  intro v
  have hcontributors : ∀ b ∈ e.contributors, b.IsTidy (e.task mode ctx q timeOfDay) := by
    rw [contributors_of_build hbuild]
    intro b hb
    rcases List.mem_append.mp hb with hb | hb
    · exact isTidy_of_mem_standardContributors ⟨htidy, isPlain_of_request hrequest⟩ hb
    · exact hextra b hb _
  have hauth : v.auth.IsTidy := by
    rw [auth_check]
    exact run_of_leads (I := fun f => f.summary.IsTidy) (fun b hb => (hcontributors b hb).leads)
      isTidy_nothing
  exact Verdict.isToldBy_authenticationResults hhost hauth

theorem isToldBy_of_request_signed :
    let c : Config := { greylist := { enabled := false } }
    let zone := (Dns.Zone.empty.addText "a.com" "v=spf1 +all").addText "_dmarc.a.com"
      "v=DMARC1; p=reject"
    let scheme : Dkim.Scheme := ⟨fun _ => [], fun _ _ => none⟩
    let reg : Registry := .ofRules [.suffix ["com"]]
    let l : Protocol.CheckLine := ⟨.v4 0xCB007105, "mx;\r\n", "<u@A.com>", "u@d.e", none,
      "From: U; V <u@a.com>\r\nDKIM-Signature: v=1;\r\n d=a.com\r\n ; s=s\r\n\r\n", false⟩
    ∃ e q, build scheme reg zone.resolver (fun _ => .error "") [] c = .ok e ∧
      StaysInPart e.hostname ∧ l.request = .ok q ∧ q.IsTidy ∧
      let v := (e.check "" .standard (e.newContext 0) q 0 (.fresh c 0)).1
      v.authenticationResults e.hostname = "localhost; spf=pass smtp.mailfrom=a.com; " ++
        "dkim=permerror header.d=a.com; dmarc=pass header.from=a.com" ∧
      v.auth.IsToldBy e.hostname (v.authenticationResults e.hostname) := by
  intro c zone scheme reg l
  let q : Request := ⟨.v4 0xCB007105, "mx;\r\n", some ⟨"u", "a.com"⟩, ⟨"u", "d.e"⟩, none,
    ⟨⟨[⟨"From", "U; V <u@a.com>"⟩, ⟨"DKIM-Signature", "v=1;\r\n d=a.com\r\n ; s=s"⟩]⟩, []⟩⟩
  have hbuild : build scheme reg zone.resolver (fun _ => .error "") [] c = .ok _ :=
    build_of_fault? (by decide +kernel) rfl
  have hhost : StaysInPart c.server.hostname := by decide
  have hrequest : l.request = .ok q := by decide +kernel
  have htidy : q.IsTidy := by
    constructor
    · decide
    · exact nofun
    · decide +kernel
    · rintro d ⟨text, htext, t, ht, hd⟩
      have htexts : (q.message.headers.getAll "dkim-signature").take Dkim.maxSignatures =
          ["v=1;\r\n d=a.com\r\n ; s=s"] := by decide +kernel
      rw [htexts] at htext
      obtain rfl := List.mem_singleton.mp htext
      have htags : Dkim.Tags.ofText "v=1;\r\n d=a.com\r\n ; s=s" =
          .ok [("v", "1"), ("d", "a.com"), ("s", "s")] := by decide +kernel
      obtain rfl := Except.ok.inj (htags.symm.trans ht)
      obtain rfl : "a.com" = d := Option.some.inj hd
      decide
  refine ⟨_, q, hbuild, hhost, hrequest, htidy, ?_,
    isToldBy_of_request hbuild (List.forall_mem_nil _) hhost hrequest htidy "" .standard _ 0 _⟩
  decide +kernel

/-- None of the conditions can be left out: a part can be added by the name of the client, by the
envelope, by the `From` field and by a further contributor, a line by the name of the client and by
a folded signature. -/
theorem not_isToldBy :
    let c : Config := { greylist := { enabled := false } }
    let scheme : Dkim.Scheme := ⟨fun _ => [], fun _ _ => none⟩
    let reg : Registry := .ofRules [.suffix ["com"]]
    let misleads (extra : List Contributor) (helo sender message : String) : Prop :=
      let l : Protocol.CheckLine := ⟨.v4 0xCB007105, helo, sender, "u@d.e", none, message, false⟩
      ∃ e q, build scheme reg Dns.Zone.empty.resolver (fun _ => .error "") extra c = .ok e ∧
        StaysInPart e.hostname ∧ l.request = .ok q ∧
        let v := (e.check "" .standard (e.newContext 0) q 0 (.fresh c 0)).1
        ¬ v.auth.IsToldBy e.hostname (v.authenticationResults e.hostname)
    let teller : Contributor :=
      ⟨"teller", fun _ _ s => (Contribution.none.telling (.spf .pass (some "a.b;dkim=pass")), s)⟩
    misleads [] "a.b;dmarc=pass" "" "" ∧ misleads [] "a.b\r\nX: y" "" "" ∧
      misleads [] "" "u@a.b;dkim=pass" "" ∧ misleads [] "" "" "From: u@a.b;spf=pass\r\n\r\n" ∧
      misleads [] "" "" "DKIM-Signature: d=a.b\r\n X: y\r\n\r\n" ∧ misleads [teller] "" "" "" := by
  intro c scheme reg misleads teller
  have hbuild (extra : List Contributor) :
      build scheme reg Dns.Zone.empty.resolver (fun _ => .error "") extra c = .ok _ :=
    build_of_fault? (by decide +kernel) rfl
  have hhost : StaysInPart c.server.hostname := by decide
  let q (helo : String) (sender : Option Mail.Mailbox) (fields : List Mail.Field) : Request :=
    ⟨.v4 0xCB007105, helo, sender, ⟨"u", "d.e"⟩, none, ⟨⟨fields⟩, []⟩⟩
  refine ⟨?_, ?_, ?_, ?_, ?_, ?_⟩
  · exact ⟨_, q "a.b;dmarc=pass" none [], hbuild [], hhost, by decide +kernel,
      fun h => absurd h.length_pieces (by decide +kernel)⟩
  · exact ⟨_, q "a.b\r\nX: y" none [], hbuild [], hhost, by decide +kernel,
      fun h => absurd h.noLineFeed (by decide +kernel)⟩
  · exact ⟨_, q "" (some ⟨"u", "a.b;dkim=pass"⟩) [], hbuild [], hhost, by decide +kernel,
      fun h => absurd h.length_pieces (by decide +kernel)⟩
  · exact ⟨_, q "" none [⟨"From", "u@a.b;spf=pass"⟩], hbuild [], hhost, by decide +kernel,
      fun h => absurd h.length_pieces (by decide +kernel)⟩
  · exact ⟨_, q "" none [⟨"DKIM-Signature", "d=a.b\r\n X: y"⟩], hbuild [], hhost,
      by decide +kernel, fun h => absurd h.noLineFeed (by decide +kernel)⟩
  · exact ⟨_, q "" none [], hbuild [teller], hhost, by decide +kernel,
      fun h => absurd h.length_pieces (by decide +kernel)⟩

end Engine

end MailScreen
