import MailScreen.Proofs.Dkim.Evidence
import MailScreen.Proofs.Dns.Asking

/-!
# The first valid signature

Of the signatures of a message the first valid one is reported, and the later ones are not looked
at. Which one that is does not depend on the context of the check, as long as no lookup fails for
now: what makes a signature valid is in the zone.

* `IsFoundValid` says that a signature is found valid in some context; `verifyOne_of_untroubled`:
  then it is so in every context in which the lookup of its key does not fail for now.
* `FirstValid` is the outcome for the first valid one of some signatures.
* `verifyAll_eq_iff`, `verify_eq_iff`: that outcome is what is reported.
-/

namespace MailScreen.Dkim

open Dns (Asks Untroubled asks_pure asks_look)

variable {scheme : Scheme} {ctx : Dns.Context} {r : Dns.Resolver} {z : Dns.Zone} {now : Int}
  {m : Mail.Message} {text : String} {o : Outcome} {s : Dns.Session}

/-! ## One signature -/

/-- The lookup of a key is one of those that the check of its signature makes. -/
theorem key_not_transient {t : Tags} {sig : Signature} (ht : Tags.ofText text = .ok t)
    (hsig : Signature.ofTags now t = .ok sig)
    (h : Untroubled (fun ctx r => verifyOne scheme ctx r now m text) ctx r s) :
    Dns.isTransientError (ctx.txt r (keyName sig.selector sig.domain) s).1 = false := by
  unfold verifyOne at h
  simp only [ht, verifyTags_eq hsig, fetchKey_eq] at h
  have hkey : Asks fun ctx r => ctx.txt r (keyName sig.selector sig.domain) >>= fun answer =>
      pure (keyOfAnswer scheme sig.algorithm answer) :=
    (asks_look (.txt _)).bind fun _ => asks_pure _
  have htags := (h.of_bind (hkey.bind fun _ => asks_pure _) fun _ => asks_pure _).1
  have hfetch := (htags.of_bind hkey fun _ => asks_pure _).1
  exact Untroubled.not_transient (hfetch.of_bind (asks_look (.txt _)) fun _ => asks_pure _).1

/-- A signature is found valid in some context, with an outcome. -/
def IsFoundValid (scheme : Scheme) (z : Dns.Zone) (now : Int) (m : Mail.Message) (text : String)
    (o : Outcome) : Prop :=
  o.isValid = true ∧ ∃ ctx s, (verifyOne scheme ctx z.resolver now m text s).1 = o

/-- **A signature that is found valid in one context** is found valid in every other in which no
lookup fails for now. -/
theorem verifyOne_of_untroubled (hvalid : IsFoundValid scheme z now m text o)
    (h : Untroubled (fun ctx r => verifyOne scheme ctx r now m text) ctx z.resolver s) :
    (verifyOne scheme ctx z.resolver now m text s).1 = o := by
  obtain ⟨hvalid, ctx', s', rfl⟩ := hvalid
  obtain ⟨sig, hevidence⟩ := verifyOne_isValid_iff.mp hvalid
  obtain ⟨t, ht, hread⟩ := hevidence.read
  -- the key was found there, so it is in the zone, and so it is found here
  have hsame : (ctx.txt z.resolver (keyName sig.selector sig.domain) s).1 =
      (ctx'.txt z.resolver (keyName sig.selector sig.domain) s').1 := by
    obtain ⟨texts, _, _, hfound, -⟩ := hevidence.fits
    have hanswer : z.answer z.texts (keyName sig.selector sig.domain) = .ok texts :=
      Dns.Context.answer_of_look_eq_ok (q := .txt _) hfound
    rw [hfound, ← hanswer]
    exact Dns.Context.look_of_not_transient (q := .txt _)
      (key_not_transient ht (ofTags_eq_ok_iff.mpr hread) h)
  rw [hevidence.verifyOne_eq]
  rw [← hsame] at hevidence
  exact hevidence.verifyOne_eq

/-! ## Some signatures -/

/-- Of some signatures, the outcome for the first that is found valid. -/
inductive FirstValid (scheme : Scheme) (z : Dns.Zone) (now : Int) (m : Mail.Message) :
    List String → Outcome → Prop
  | here {text : String} {o : Outcome} (h : IsFoundValid scheme z now m text o)
      (later : List String) : FirstValid scheme z now m (text :: later) o
  | later {text : String} {rest : List String} {o : Outcome}
      (hnot : ∀ o', ¬ IsFoundValid scheme z now m text o')
      (h : FirstValid scheme z now m rest o) : FirstValid scheme z now m (text :: rest) o

/-- If a signature is found valid, the first that is so stands before it or is the signature
itself. -/
theorem exists_firstValid (before after : List String)
    (h : IsFoundValid scheme z now m text o) :
    ∃ o', FirstValid scheme z now m (before ++ text :: after) o' ∧
      ((∃ t ∈ before, IsFoundValid scheme z now m t o') ∨ o' = o) := by
  induction before with
  | nil => exact ⟨o, .here h after, Or.inr rfl⟩
  | cons t before ih =>
    by_cases ht : ∃ o', IsFoundValid scheme z now m t o'
    · obtain ⟨o', ho'⟩ := ht
      exact ⟨o', .here ho' _, Or.inl ⟨t, List.mem_cons_self, ho'⟩⟩
    · obtain ⟨o', hfirst, hwhich⟩ := ih
      refine ⟨o', .later (not_exists.mp ht) hfirst, hwhich.imp_left ?_⟩
      exact fun ⟨u, hu, hvalid⟩ => ⟨u, List.mem_cons_of_mem t hu, hvalid⟩

/-- **The first valid signature is what is reported**, and nothing else is reported as valid. -/
theorem verifyAll_eq_iff {best : Option Outcome} {texts : List String}
    (hbest : ∀ b ∈ best, b.isValid = false) (h : Untroubled
      (fun ctx r => verifyAll (verifyOne scheme ctx r now m) best texts) ctx z.resolver s) :
    (verifyAll (verifyOne scheme ctx z.resolver now m) best texts s).1 = o ∧ o.isValid = true ↔
      FirstValid scheme z now m texts o := by
  induction texts generalizing best s with
  | nil =>
    refine iff_of_false ?_ nofun
    rintro ⟨rfl, hvalid⟩
    cases best with
    | none => cases hvalid
    | some b => exact Bool.false_ne_true ((hbest b rfl).symm.trans hvalid)
  | cons text texts ih =>
    obtain ⟨hone, hrest⟩ := h.of_bind (asks_verifyOne text) fun o => by
      cases o.isValid with
      | true => exact asks_pure o
      | false => exact asks_verifyAll _ texts
    rw [verifyAll, Dns.Session.bind_apply]
    cases hvalid : (verifyOne scheme ctx z.resolver now m text s).1.isValid with
    | true =>
      have hfound : IsFoundValid scheme z now m text _ := ⟨hvalid, ctx, s, rfl⟩
      rw [if_pos rfl]
      constructor
      · rintro ⟨rfl, -⟩
        exact .here hfound texts
      · rintro (⟨hfirst, -⟩ | ⟨hnot, -⟩)
        · exact ⟨verifyOne_of_untroubled hfirst hone, hfirst.1⟩
        · exact absurd hfound (hnot _)
    | false =>
      have hnot (o' : Outcome) : ¬ IsFoundValid scheme z now m text o' := by
        intro hfound
        rw [verifyOne_of_untroubled hfound hone, hfound.1] at hvalid
        cases hvalid
      simp only [hvalid] at hrest
      rw [if_neg Bool.false_ne_true, ih (fun b hb => ?_) hrest]
      · constructor
        · exact .later hnot
        · rintro (⟨hfirst, -⟩ | ⟨-, hfirst⟩)
          · exact absurd hfirst (hnot o)
          · exact hfirst
      · obtain rfl := Option.some.inj hb
        rcases moreTelling_eq best (verifyOne scheme ctx z.resolver now m text s).1 with hb | hb
        · exact hbest _ hb
        · rw [hb, hvalid]

/-- **A message is found valid by the first valid one of its signatures**, and by nothing else. -/
theorem verify_eq_iff (h : Untroubled (fun ctx r => verify scheme ctx r now m) ctx z.resolver s) :
    (verify scheme ctx z.resolver now m s).1 = o ∧ o.isValid = true ↔ FirstValid scheme z now m
      ((m.headers.getAll "dkim-signature").take maxSignatures) o :=
  verifyAll_eq_iff nofun h

end MailScreen.Dkim
