import MailScreen.Proofs.Engine.Run

/-!
# What the contributors tell

The gates tell nothing. The three checks of authentication tell what they find, and the check of the
author's policy reads what the two before it have told. The check of the client's name tells nothing
of authentication (`heloCheck_isSilent`).
-/

namespace MailScreen

/-- A contributor that tells nothing of authentication. -/
def Contributor.IsSilent (c : Contributor) : Prop :=
  ∀ task f s, ∀ x ∈ (c.evaluate task f s).1.signal, x = .suspiciousHelo

/-- A silent contributor leaves the summary as it is. -/
theorem Contributor.IsSilent.leads {c : Contributor} (h : c.IsSilent) (task : Task)
    (P : AuthSummary → Prop) : c.Leads task (fun f => P f.summary) (fun f => P f.summary) := by
  refine leads_of_signal (fun _ hf => hf) ?_
  intro f s hf x hx
  obtain rfl := h task f s x hx
  exact hf

namespace Engine

variable {task : Task} {f : Findings} {s : Stores}

theorem signal_rateLimitGate (score : Int) :
    ((rateLimitGate score).evaluate task f s).1.signal = none := by
  unfold rateLimitGate
  simp only
  split <;> rfl

theorem signal_greylistGate (hash : List UInt8 → List UInt8) (score : Int) :
    ((greylistGate hash score).evaluate task f s).1.signal = none := by
  unfold greylistGate
  simp only
  split <;> rfl

theorem signal_spfCheck (r : Dns.Resolver) (limit : Nat) :
    ((spfCheck r limit).evaluate task f s).1.signal =
      let found := (Spf.verify r task.context limit task.request.sender task.request.helo
        task.request.client s.session).1
      some (.spf found.1 found.2) := rfl

theorem signal_dkimCheck (scheme : Dkim.Scheme) (r : Dns.Resolver) :
    ((dkimCheck scheme r).evaluate task f s).1.signal =
      some (.dkim (Dkim.verify scheme task.context r task.timeOfDay task.request.message
        s.session).1) := rfl

/-- Without a domain there is no policy to ask for. -/
theorem signal_dmarcCheck_of_none {reg : Registry} {r : Dns.Resolver}
    (h : policyDomain? task = none) : ((dmarcCheck reg r).evaluate task f s).1.signal = none := by
  unfold dmarcCheck Contributor.ofLookups
  simp only [h]
  show (withoutAuthor task).signal = none
  unfold withoutAuthor
  cases task.mode <;> rfl

theorem signal_dmarcCheck_of_some {reg : Registry} {r : Dns.Resolver} {domain : String}
    (h : policyDomain? task = some domain) : ((dmarcCheck reg r).evaluate task f s).1.signal =
      some (.dmarc (Dmarc.evaluate reg task.context r domain f.spfOutcome f.spfDomain f.dkimOutcome
        s.session).1 domain) := by
  unfold dmarcCheck Contributor.ofLookups
  simp only [h]
  rfl

theorem heloCheck_isSilent : heloCheck.IsSilent := by
  intro task f s x hx
  unfold heloCheck at hx
  simp only at hx
  split at hx
  · exact (Option.some.inj hx).symm
  · cases hx

/-- The domain whose policy applies is the author's, or in its absence the envelope's. -/
theorem policyDomain?_eq_some {domain : String} (h : policyDomain? task = some domain) :
    task.request.message.author? = some domain ∨
      task.mode = .minimal ∧ task.request.message.author? = none ∧
        ∃ m ∈ task.request.sender, m.domain = domain := by
  unfold policyDomain? at h
  split at h
  · rename_i d _ hauthor
    obtain rfl := Option.some.inj h
    exact Or.inl hauthor
  · rename_i hauthor hmode
    obtain ⟨m, hm, hdomain⟩ := Option.map_eq_some_iff.mp h
    exact Or.inr ⟨hmode, hauthor, m, hm, hdomain⟩
  · cases h

end Engine

end MailScreen
