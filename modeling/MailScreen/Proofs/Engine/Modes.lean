import MailScreen.Dns.Zone
import MailScreen.Proofs.Engine.Run

/-!
# The two modes

A check is made in one of two modes. The mode chooses the points of findings, and it decides what
becomes of a message without an author; nothing else depends on it.

* `Contributor.IgnoresMode` is the law of one contributor for a request;
  `ignoresMode_of_mem_standardContributors`: those of every engine obey it if the message has an
  author.
* `run_ignoresMode` carries the law through a run.
* `check_minimal_eq` is the result for whole checks.
-/

namespace MailScreen

/-- **A contributor that does the same in either mode** to a request, as long as the points of
findings are the same. -/
def Contributor.IgnoresMode (c : Contributor) (q : Request) : Prop :=
  ∀ task mode f s, task.request = q →
    c.evaluate { task with mode } f s = c.evaluate task f s

namespace Engine

variable {q : Request} {author : String}

/-! ## Contributors -/

/-- The author's policy applies, whatever the mode. -/
theorem policyDomain?_of_author {task : Task} (h : task.request.message.author? = some author) :
    policyDomain? task = some author := by
  unfold policyDomain?
  rw [h]

theorem ignoresMode_dmarcCheck (reg : Registry) (r : Dns.Resolver)
    (hauthor : q.message.author? = some author) : (dmarcCheck reg r).IgnoresMode q := by
  rintro task mode f s rfl
  have hdomain : policyDomain? task = some author := policyDomain?_of_author hauthor
  have hdomain' : policyDomain? { task with mode } = some author := policyDomain?_of_author hauthor
  unfold dmarcCheck Contributor.ofLookups
  simp only [hdomain, hdomain']

/-- **No contributor of an engine minds the mode** if the message has an author. -/
theorem ignoresMode_of_mem_standardContributors {scheme : Dkim.Scheme} {reg : Registry}
    {r : Dns.Resolver} {config : Config} (hauthor : q.message.author? = some author)
    {c : Contributor} (hc : c ∈ standardContributors scheme reg r config) : c.IgnoresMode q := by
  simp only [standardContributors, List.mem_cons, List.not_mem_nil, or_false] at hc
  obtain rfl | rfl | rfl | rfl | rfl | rfl := hc
  · exact fun _ _ _ _ _ => rfl
  · exact fun _ _ _ _ _ => rfl
  · exact fun _ _ _ _ _ => rfl
  · exact fun _ _ _ _ _ => rfl
  · exact ignoresMode_dmarcCheck reg r hauthor
  · exact fun _ _ _ _ _ => rfl

/-! ## Runs -/

variable {task : Task}

theorem Progress.advance_ignoresMode {c : Contributor} (hc : c.IgnoresMode task.request)
    (mode : Mode) (p : Progress) : p.advance { task with mode } c = p.advance task c := by
  unfold Progress.advance
  rw [hc task mode p.findings p.stores rfl]

/-- **A run takes the same course in either mode** if none of its contributors minds. -/
theorem run_ignoresMode {cs : List Contributor} (hcs : ∀ c ∈ cs, c.IgnoresMode task.request)
    (mode : Mode) (p : Progress) : run { task with mode } cs p = run task cs p := by
  induction cs generalizing p with
  | nil => rfl
  | cons c cs ih =>
    obtain ⟨hc, hcs⟩ := List.forall_mem_cons.mp hcs
    have hstep := Progress.advance_ignoresMode hc mode p
    cases hd : (p.advance task c).decision with
    | none => rw [run_of_undecided (hstep ▸ hd), run_of_undecided hd, hstep, ih hcs]
    | some d =>
      have hended : (p.advance task c).decision.isSome := by rw [hd]; rfl
      rw [run_of_decided (hstep ▸ hended), run_of_decided hended, hstep]

/-! ## Checks -/

/-- **The two modes agree on a message with an author.** Let an engine without added contributors
give the same points in both modes. From the same memory, its checks of a request in the two modes
then come to verdicts that differ in nothing but their names, and leave the same behind: the clock
and the list of lookups, both stores and all that is counted. -/
theorem check_minimal_eq {scheme : Dkim.Scheme} {reg : Registry} {r : Dns.Resolver}
    {keyText : String → Except String String} {c : Config} {e : Engine}
    (hbuild : build scheme reg r keyText [] c = .ok e)
    (hweights : e.weights .minimal = e.weights .standard)
    (hauthor : q.message.author? = some author) (id id' : String) (ctx : Dns.Context)
    (timeOfDay : Int) (s : State) :
    let standard := e.check id .standard ctx q timeOfDay s
    let minimal := e.check id' .minimal ctx q timeOfDay s
    minimal.1 = { standard.1 with id := id' } ∧ minimal.2 = standard.2 := by
  intro standard minimal
  have hcontributors : ∀ k ∈ e.contributors, k.IgnoresMode q := by
    rw [contributors_of_build hbuild, List.append_nil]
    exact fun k hk => ignoresMode_of_mem_standardContributors hauthor hk
  have htask : e.task .minimal ctx q timeOfDay =
      { e.task .standard ctx q timeOfDay with mode := .minimal } := by
    unfold task
    rw [hweights]
  have hrun : run (e.task .minimal ctx q timeOfDay) e.contributors (.start s.stores s.metrics) =
      run (e.task .standard ctx q timeOfDay) e.contributors (.start s.stores s.metrics) := by
    rw [htask]
    exact run_ignoresMode hcontributors .minimal _
  unfold minimal standard check
  rw [hrun]
  exact ⟨rfl, rfl⟩

theorem check_minimal_eq_rejected :
    let c : Config := { greylist := { enabled := false }, scoring := { minimalWeights := {} } }
    let zone := (Dns.Zone.empty.addText "b.com" "v=spf1 include:c.com -all").addText "_dmarc.a.com"
      "v=DMARC1; p=reject"
    let scheme : Dkim.Scheme := ⟨fun _ => [], fun _ _ => none⟩
    let reg : Registry := .ofRules []
    let q : Request := ⟨.v4 0xCB007105, "mx", some ⟨"u", "b.com"⟩, ⟨"u", "d.e"⟩, some "u",
      ⟨⟨[⟨"From", "U <u@sub.A.com>"⟩]⟩, []⟩⟩
    let ctx : Dns.Context := ⟨Time.milliseconds 100, none⟩
    let s := State.fresh c 0
    ∃ e, build scheme reg zone.resolver (fun _ => .error "") [] c = .ok e ∧
      e.weights .minimal = e.weights .standard ∧ q.message.author? = some "sub.a.com" ∧
      let standard := e.check "1" .standard ctx q 0 s
      let minimal := e.check "2" .minimal ctx q 0 s
      minimal.1.decision = .quarantine ∧ minimal.1.score = 60 ∧
        minimal.2.stores.session.queries = [.txt "b.com", .txt "c.com", .txt "_dmarc.sub.a.com",
          .txt "_dmarc.a.com"] ∧
        minimal.1 = { standard.1 with id := "2" } ∧ minimal.2 = standard.2 := by
  intro c zone scheme reg q ctx s
  have hbuild : build scheme reg zone.resolver (fun _ => .error "") [] c = .ok _ :=
    build_of_fault? (by decide +kernel) rfl
  have hauthor : q.message.author? = some "sub.a.com" := by decide +kernel
  refine ⟨_, hbuild, rfl, hauthor, ?_⟩
  intro standard minimal
  have hminimal : minimal.1.decision = .quarantine ∧ minimal.1.score = 60 ∧
      minimal.2.stores.session.queries = [.txt "b.com", .txt "c.com", .txt "_dmarc.sub.a.com",
        .txt "_dmarc.a.com"] := by
    decide +kernel
  exact ⟨hminimal.1, hminimal.2.1, hminimal.2.2,
    check_minimal_eq hbuild rfl hauthor "1" "2" ctx 0 s⟩

end Engine

end MailScreen
