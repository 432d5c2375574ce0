import MailScreen.Engine

/-!
# What holds of the findings throughout a check

Contributors are asked one after the other until one of them ends the check, and each of them may
add to the findings. Here a property of the findings is carried through such a run.

* `Contributor.Leads` says what holds of the findings once a contributor has been asked.
* `run_of_forall`, `run_of_leads`: a property that every contributor keeps holds at the end of a
  run.
* `run_of_establishes`: so does a property that one contributor brings about, if those before it
  keep what it needs and those after it keep what it gives.
* `contributors_of_build` and `auth_check` apply this to engines: whom an engine asks, and which
  findings its verdict sums up. `build_of_fault?` is the engine of plain settings.
-/

namespace MailScreen

/-- The findings once a contributor has been asked. -/
def Contributor.findings (c : Contributor) (task : Task) (f : Findings) (s : Stores) : Findings :=
  (c.evaluate task f s).1.signal.elim f f.record

/-- If `I` holds of the findings before a contributor is asked, `J` holds of them after. -/
def Contributor.Leads (c : Contributor) (task : Task) (I J : Findings → Prop) : Prop :=
  ∀ f s, I f → J (c.findings task f s)

/-- Only what a contributor tells changes the findings. -/
theorem Contributor.leads_of_signal {c : Contributor} {task : Task} {I J : Findings → Prop}
    (hIJ : ∀ f, I f → J f)
    (h : ∀ f s, I f → ∀ x ∈ (c.evaluate task f s).1.signal, J (f.record x)) : c.Leads task I J := by
  intro f s hI
  unfold findings
  cases hx : (c.evaluate task f s).1.signal with
  | none => exact hIJ f hI
  | some x => exact h f s hI x hx

namespace Engine

variable {task : Task} {I J : Findings → Prop}

/-- A run ends with its first contributor, or else with the others. -/
theorem run_cons {P : Progress → Prop} {c : Contributor} {cs : List Contributor} {p : Progress}
    (hended : P (p.advance task c)) (hgoesOn : P (run task cs (p.advance task c))) :
    P (run task (c :: cs) p) := by
  cases hd : (p.advance task c).decision with
  | none => rwa [run_of_undecided hd]
  | some d => rwa [run_of_decided (by rw [hd]; rfl)]

/-- **What every contributor keeps** holds at the end of a run. -/
theorem run_of_forall {P : Progress → Prop} {cs : List Contributor}
    (h : ∀ c ∈ cs, ∀ p, P p → P (p.advance task c)) {p : Progress} (hp : P p) :
    P (run task cs p) := by
  induction cs generalizing p with
  | nil => exact hp
  | cons c cs ih =>
    obtain ⟨hc, hcs⟩ := List.forall_mem_cons.mp h
    exact run_cons (hc p hp) (ih hcs (hc p hp))

/-- A property of the findings that every contributor keeps holds at the end of a run. -/
theorem run_of_leads {cs : List Contributor} (h : ∀ c ∈ cs, c.Leads task I I) {p : Progress}
    (hp : I p.findings) : I (run task cs p).findings :=
  run_of_forall (P := fun p => I p.findings) (fun c hc p => h c hc p.findings p.stores) hp

/-- **A property that one contributor establishes** holds at the end of a run, also of a run that
ends before that contributor is asked. -/
theorem run_of_establishes {before after : List Contributor} {c : Contributor}
    (hIJ : ∀ f, I f → J f) (hbefore : ∀ b ∈ before, b.Leads task I I) (hc : c.Leads task I J)
    (hafter : ∀ a ∈ after, a.Leads task J J) {p : Progress} (hp : I p.findings) :
    J (run task (before ++ c :: after) p).findings := by
  induction before generalizing p with
  | nil =>
    have hstep : J (p.advance task c).findings := hc p.findings p.stores hp
    exact run_cons (P := fun p => J p.findings) hstep (run_of_leads hafter hstep)
  | cons b before ih =>
    have hstep : I (p.advance task b).findings :=
      hbefore b List.mem_cons_self p.findings p.stores hp
    exact run_cons (P := fun p => J p.findings) (hIJ _ hstep)
      (ih (fun d hd => hbefore d (List.mem_cons_of_mem b hd)) hstep)

/-! ## Engines -/

/-- What an engine that was built consists of. -/
theorem eq_of_build {scheme : Dkim.Scheme} {reg : Registry} {r : Dns.Resolver}
    {keyText : String → Except String String} {extra : List Contributor} {c : Config} {e : Engine}
    (h : build scheme reg r keyText extra c = .ok e) :
    ∃ signer, e = ⟨standardContributors scheme reg r c ++ extra, c.scoring,
      Time.milliseconds c.dns.checkTimeout, c.server.hostname, signer⟩ := by
  unfold build at h
  cases hcheck : c.check with
  | error fault => rw [hcheck] at h; cases h
  | ok u =>
    cases hsigner : signer? keyText c.signing with
    | error fault => rw [hcheck, hsigner] at h; cases h
    | ok signer =>
      rw [hcheck, hsigner] at h
      exact ⟨signer, (Except.ok.inj h).symm⟩

/-- The settings of an engine that was built can be used. -/
theorem check_of_build {scheme : Dkim.Scheme} {reg : Registry} {r : Dns.Resolver}
    {keyText : String → Except String String} {extra : List Contributor} {c : Config} {e : Engine}
    (h : build scheme reg r keyText extra c = .ok e) : c.check = .ok () := by
  unfold build at h
  cases hcheck : c.check with
  | error fault => rw [hcheck] at h; cases h
  | ok u => rfl

/-- The contributors of an engine that was built. -/
theorem contributors_of_build {scheme : Dkim.Scheme} {reg : Registry} {r : Dns.Resolver}
    {keyText : String → Except String String} {extra : List Contributor} {c : Config} {e : Engine}
    (h : build scheme reg r keyText extra c = .ok e) :
    e.contributors = standardContributors scheme reg r c ++ extra := by
  obtain ⟨signer, rfl⟩ := eq_of_build h
  rfl

/-- The scoring of an engine that was built. -/
theorem scoring_of_build {scheme : Dkim.Scheme} {reg : Registry} {r : Dns.Resolver}
    {keyText : String → Except String String} {extra : List Contributor} {c : Config} {e : Engine}
    (h : build scheme reg r keyText extra c = .ok e) : e.scoring = c.scoring := by
  obtain ⟨signer, rfl⟩ := eq_of_build h
  rfl

/-- Settings that can be used and ask for no signatures make an engine. -/
theorem build_of_fault? {scheme : Dkim.Scheme} {reg : Registry} {r : Dns.Resolver}
    {keyText : String → Except String String} {extra : List Contributor} {c : Config}
    (hfault : c.fault? = none) (hsigning : c.signing = none) :
    build scheme reg r keyText extra c =
      .ok ⟨standardContributors scheme reg r c ++ extra, c.scoring,
        Time.milliseconds c.dns.checkTimeout, c.server.hostname, none⟩ := by
  rw [build, Config.check, hfault, hsigning]
  rfl

/-- The summary in a verdict is that of the findings at the end of the run. -/
theorem auth_check (e : Engine) (id : String) (mode : Mode) (ctx : Dns.Context) (q : Request)
    (timeOfDay : Int) (s : State) :
    (e.check id mode ctx q timeOfDay s).1.auth =
      (run (e.task mode ctx q timeOfDay) e.contributors
        (.start s.stores s.metrics)).findings.summary := rfl

end Engine

end MailScreen
