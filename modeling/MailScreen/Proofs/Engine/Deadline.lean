import MailScreen.Dns.Zone
import MailScreen.Proofs.Dns.Asking
import MailScreen.Proofs.Engine.Run

/-!
# The time that a check takes

How many lookups a check makes depends on what is published. But each of them goes through the
context of the check, and nothing else in it takes time.

* `Contributor.StaysOnCourse` says that a contributor does nothing to the session but lookups in the
  context of its task; `staysOnCourse_of_mem_standardContributors`: all contributors of an engine do
  so.
* `check_in_time`: a check ends by the deadline and by the cancellation, or at once, and it starts
  no lookup once it is cancelled.
-/

namespace MailScreen

open Dns (Course StaysOnCourse staysOnCourse_pure)

variable {reg : Registry} {r : Dns.Resolver}

/-! ## Contributors -/

/-- The contributor does nothing to the session but lookups in the context of its task. -/
def Contributor.StaysOnCourse (c : Contributor) (r : Dns.Resolver) : Prop :=
  ∀ task f s, ∃ started,
    Course task.context r s.session started (c.evaluate task f s).2.session

theorem Contributor.staysOnCourse_ofLookups {name : String}
    {evaluate : Task → Findings → StateM Dns.Session Contribution}
    (h : ∀ task f, Dns.StaysOnCourse task.context r (evaluate task f)) :
    (Contributor.ofLookups name evaluate).StaysOnCourse r :=
  fun task f s => h task f s.session

/-- A contributor that leaves the session alone. -/
theorem Contributor.staysOnCourse_of_session_eq {c : Contributor}
    (h : ∀ task f s, (c.evaluate task f s).2.session = s.session) : c.StaysOnCourse r :=
  fun task f s => ⟨[], by rw [h]; exact .done _⟩

namespace Engine

theorem staysOnCourse_of_mem_standardContributors {scheme : Dkim.Scheme} {config : Config}
    {c : Contributor} (hc : c ∈ standardContributors scheme reg r config) : c.StaysOnCourse r := by
  simp only [standardContributors, List.mem_cons, List.not_mem_nil, or_false] at hc
  rcases hc with rfl | rfl | rfl | rfl | rfl | rfl
  · exact Contributor.staysOnCourse_of_session_eq fun _ _ _ => rfl
  · exact Contributor.staysOnCourse_of_session_eq fun _ _ _ => rfl
  · exact Contributor.staysOnCourse_ofLookups fun task f =>
      ((Spf.asks_verify _ _ _ _).staysOnCourse _ r).bind fun _ => staysOnCourse_pure _
  · exact Contributor.staysOnCourse_ofLookups fun task f =>
      ((Dkim.asks_verify _ _ _).staysOnCourse _ r).bind fun _ => staysOnCourse_pure _
  · refine Contributor.staysOnCourse_ofLookups fun task f => ?_
    split
    · exact staysOnCourse_pure _
    · exact ((Dmarc.asks_evaluate _ _ _ _).staysOnCourse _ r).bind fun _ => staysOnCourse_pure _
  · exact Contributor.staysOnCourse_of_session_eq fun _ _ _ => rfl

/-- **A run does nothing to the session but lookups** if its contributors do not. -/
theorem course_run (task : Task) {cs : List Contributor} (h : ∀ c ∈ cs, c.StaysOnCourse r)
    (p : Progress) : ∃ started,
      Course task.context r p.stores.session started (run task cs p).stores.session := by
  induction cs generalizing p with
  | nil => exact ⟨[], .done _⟩
  | cons c cs ih =>
    obtain ⟨first, hfirst⟩ := h c List.mem_cons_self task p.findings p.stores
    have hended : Course task.context r p.stores.session first
        (p.advance task c).stores.session := hfirst
    obtain ⟨later, hlater⟩ := ih (fun d hd => h d (List.mem_cons_of_mem c hd)) (p.advance task c)
    exact run_cons (P := fun p' => ∃ started,
        Course task.context r p.stores.session started p'.stores.session)
      ⟨first, hended⟩ ⟨first ++ later, hended.trans hlater⟩

/-- **No check runs past its deadline, and none goes on looking up once it is cancelled.** An engine
without further contributors ends a check by the deadline and by the cancellation, or at the instant
at which it was asked for if that is later. All that has happened to the session are the lookups
that it started, one after the other, and when one was started the check was not cancelled. -/
theorem check_in_time {scheme : Dkim.Scheme} {keyText : String → Except String String}
    {c : Config} {e : Engine} (hbuild : build scheme reg r keyText [] c = .ok e) (id : String)
    (mode : Mode) (ctx : Dns.Context) (q : Request) (timeOfDay : Int) (s : State) :
    let before := s.stores.session
    let after := (e.check id mode ctx q timeOfDay s).2.stores.session
    after.now ≤ max before.now ctx.deadline ∧
      (∀ t ∈ ctx.cancelAt, after.now ≤ max before.now t) ∧
      ∃ started, after.queries = before.queries ++ started ∧ Course ctx r before started after := by
  intro before after
  have hcontributors : e.contributors = standardContributors scheme reg r c :=
    (contributors_of_build hbuild).trans (List.append_nil _)
  have hstays : ∀ x ∈ e.contributors, x.StaysOnCourse r := fun x hx =>
    staysOnCourse_of_mem_standardContributors (hcontributors ▸ hx)
  obtain ⟨started, hcourse⟩ : ∃ started, Course ctx r before started after :=
    course_run (e.task mode ctx q timeOfDay) hstays (.start s.stores s.metrics)
  exact ⟨hcourse.now_le_deadline, fun t ht => hcourse.now_le_cancel ht, started,
    hcourse.queries_eq, hcourse⟩

theorem check_in_time_cancelled :
    let c : Config := { greylist := { enabled := false } }
    let records := (Dns.Zone.empty.addText "a.com" "v=spf1 a mx -all").addText "_dmarc.a.com"
      "v=DMARC1; p=reject"
    let zone := { records with delay := Time.milliseconds 30 }
    let scheme : Dkim.Scheme := ⟨fun _ => [], fun _ _ => none⟩
    let reg : Registry := .ofRules []
    let q : Request := ⟨.v4 0xCB007105, "mx.b.c", some ⟨"u", "a.com"⟩, ⟨"u", "d.e"⟩, none,
      ⟨⟨[⟨"From", "u@a.com"⟩]⟩, []⟩⟩
    let ctx : Dns.Context := ⟨Time.milliseconds 100, some (Time.milliseconds 40)⟩
    ∃ e, build scheme reg zone.resolver (fun _ => .error "") [] c = .ok e ∧
      let after := (e.check "" .standard ctx q 0 (.fresh c 0)).2.stores.session
      after.now = Time.milliseconds 40 ∧ after.queries = [.txt "a.com", .ip "a.com"] ∧
        after.now ≤ max 0 ctx.deadline ∧ (∀ t ∈ ctx.cancelAt, after.now ≤ max 0 t) ∧
        ∃ started, after.queries = started ∧ Course ctx zone.resolver ⟨0, []⟩ started after := by
  intro c records zone scheme reg q ctx
  have hbuild : build scheme reg zone.resolver (fun _ => .error "") [] c = .ok _ :=
    build_of_fault? (by decide +kernel) rfl
  refine ⟨_, hbuild, ?_⟩
  intro after
  have hafter : after.now = Time.milliseconds 40 ∧ after.queries = [.txt "a.com", .ip "a.com"] := by
    decide +kernel
  exact ⟨hafter.1, hafter.2, check_in_time hbuild "" .standard ctx q 0 (.fresh c 0)⟩

end Engine

end MailScreen
