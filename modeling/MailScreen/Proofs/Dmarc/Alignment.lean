import MailScreen.Dmarc.Evaluate
import MailScreen.Proofs.Mail.Domain

/-!
# What a pass says

A record asks for strict or for relaxed alignment, and names are brought to normal form once more
before they are compared. Whatever the record asks for, a message that passes has an identifier that
is aligned in the relaxed sense.

* `IsAligned` says what alignment is (`aligned_iff`); `relaxed_of_aligned`: strict alignment is
  relaxed alignment.
* `Settles` says that the normal form of the normal form stays as it is. `relaxed_of_settles` takes
  alignment with the normal form of such a name back to the name itself; `settles_of_isPlain`: the
  domain of a mailbox that was read is one.
* `evaluate_pass`: a message passes only by one of the two tests of alignment. No failure of the
  lookup is taken for a pass.
-/

namespace MailScreen.Dmarc

open DomainName Dns.Session

variable {reg : Registry}

/-! ## Alignment -/

/-- **When a domain is aligned with the author's**: the normal forms are the same, or in the relaxed
sense the organizational domains of these. -/
def IsAligned (reg : Registry) (mode : Alignment) (author domain : String) : Prop :=
  match mode with
  | .strict => normalize author = normalize domain
  | .relaxed => reg.organizational (normalize author) = reg.organizational (normalize domain)

theorem aligned_iff {mode : Alignment} {author domain : String} :
    aligned reg mode author domain = true ↔ IsAligned reg mode author domain := by
  cases mode with
  | strict => exact beq_iff_eq
  | relaxed => exact beq_iff_eq

theorem organizational_congr {s t : String} (h : normalize s = normalize t) :
    reg.organizational s = reg.organizational t := by
  rw [Registry.organizational, Registry.organizational, h]

/-- **Strict alignment is relaxed alignment.** -/
theorem relaxed_of_aligned {mode : Alignment} {author domain : String}
    (h : aligned reg mode author domain = true) : aligned reg .relaxed author domain = true := by
  cases mode with
  | strict =>
    have heq : normalize author = normalize domain := eq_of_beq h
    exact beq_iff_eq.mpr (congrArg reg.organizational heq)
  | relaxed => exact h

/-- The normal form of the normal form of a name stays as it is. For a name with blanks inside it
need not: when a dot at the end goes, a blank may come there. -/
def Settles (s : String) : Prop :=
  normalize (normalize (normalize s)) = normalize (normalize s)

instance (s : String) : Decidable (Settles s) :=
  inferInstanceAs (Decidable (_ = _))

theorem settles_of_isPlain {s : String} (h : IsPlain s) : Settles s := by
  rw [Settles, normalize_of_isPlain h, normalize_of_isPlain h, normalize_of_isPlain h]

/-- **What is aligned with the normal form** of a name that settles is aligned with the name. -/
theorem relaxed_of_settles {mode : Alignment} {author domain : String} (hauthor : Settles author)
    (h : aligned reg mode (normalize author) domain = true) :
    aligned reg .relaxed author domain = true := by
  have hrelaxed : reg.organizational (normalize (normalize author)) =
      reg.organizational (normalize domain) := eq_of_beq (relaxed_of_aligned h)
  have hsame : reg.organizational (normalize (normalize author)) =
      reg.organizational (normalize author) := organizational_congr hauthor
  exact beq_iff_eq.mpr (hsame.symm.trans hrelaxed)

/-! ## Evaluation -/

variable {ctx : Dns.Context} {r : Dns.Resolver}

theorem policyIn_ne_pass (texts : List String) : policyIn texts ≠ .error .pass := by
  unfold policyIn
  repeat' split
  all_goals exact nofun

theorem lookup_ne_pass (domain : String) (s : Dns.Session) :
    (lookup ctx r domain s).1 ≠ .error .pass := by
  unfold lookup
  rw [bind_apply]
  cases (ctx.txt r ("_dmarc." ++ domain) s).1 with
  | ok texts => exact policyIn_ne_pass texts
  | error e => cases e <;> exact nofun

theorem discover_ne_pass (domain : String) (s : Dns.Session) :
    (discover reg ctx r domain s).1 ≠ .error .pass := by
  have hlookup : ∀ domain s, (lookup ctx r domain s).1 ≠ .error .pass := lookup_ne_pass
  unfold discover
  rw [bind_apply]
  cases hfirst : (lookup ctx r domain s).1 with
  | error e =>
    have hne := hlookup domain s
    rw [hfirst] at hne
    exact fun h => hne (congrArg Except.error (Except.error.inj h))
  | ok found =>
    cases found with
    | some record => exact nofun
    | none =>
      simp only
      split
      · exact nofun
      · generalize (lookup ctx r domain s).2 = s'
        rw [bind_apply]
        cases hsecond : (lookup ctx r (reg.organizational domain) s').1 with
        | error e =>
          have hne := hlookup (reg.organizational domain) s'
          rw [hsecond] at hne
          exact fun h => hne (congrArg Except.error (Except.error.inj h))
        | ok found => cases found <;> exact nofun

/-- **A message passes** only if the sender policy or a signature has authenticated a domain that is
aligned with the author's, in the sense that the author's record asks for. -/
theorem evaluate_pass {author : String} {spf : Spf.Outcome} {spfDomain : Option String}
    {dkim : Dkim.Outcome} {s : Dns.Session}
    (h : (evaluate reg ctx r author spf spfDomain dkim s).1.result = .pass) :
    ∃ record, spfAligned reg record (normalize author) spf spfDomain = true ∨
      dkimAligned reg record (normalize author) dkim = true := by
  unfold evaluate at h
  rw [bind_apply] at h
  have hne : (discover reg ctx r (normalize author) s).1 ≠ .error .pass := discover_ne_pass _ _
  cases hfound : (discover reg ctx r (normalize author) s).1 with
  | error e =>
    rw [hfound] at h hne
    exact absurd (congrArg Except.error h) hne
  | ok found =>
    rw [hfound] at h
    cases found with
    | none => cases h
    | some found =>
      refine ⟨found.1, ?_⟩
      have hresult : (if spfAligned reg found.1 (normalize author) spf spfDomain ||
          dkimAligned reg found.1 (normalize author) dkim then Result.pass else .fail found.2) =
          .pass := h
      split at hresult
      · rename_i haligned
        exact Bool.or_eq_true_iff.mp haligned
      · cases hresult

end MailScreen.Dmarc
