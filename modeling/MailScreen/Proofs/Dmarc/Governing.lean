import MailScreen.Proofs.Dns.Asking
import MailScreen.Proofs.Text.Ascii

/-!
# The record that governs a domain

The policy of an author's domain is looked up at that domain, and if it has none or several, at its
organizational domain. Here it is said without the lookups which record of a zone applies to a
domain; and that this is the one that is found, as long as no lookup fails for now.

* `claimsPolicy` says which texts claim to be policies, `HoldsRecord` when there is one among the
  texts at a name; `policyIn_eq_some_iff`, `policyIn_eq_none_iff`.
* `Governs` is the record for a domain with the policy that it states for it.
* `discover_eq_some_iff`: just this record is found. `evaluate_of_governs` says what it makes of a
  message.
-/

namespace MailScreen

/-- The texts that a zone has at a name; none if a lookup of it fails. -/
def Dns.Zone.textsAt (z : Zone) (name : String) : List String :=
  match z.answer z.texts name with
  | .ok texts => texts
  | .error _ => []

theorem Dns.Zone.length_textsAt_le (z : Zone) (name : String) :
    (z.textsAt name).length ≤ z.texts.length := by
  have hvalues : (valuesAt z.texts (key name)).length ≤ z.texts.length := by
    unfold valuesAt
    rw [List.length_map]
    exact List.length_filter_le _ _
  unfold textsAt
  cases hanswer : z.answer z.texts name with
  | error e => exact Nat.zero_le _
  | ok texts =>
    unfold answer at hanswer
    split at hanswer
    · cases hanswer
    · cases hanswer
    · cases hanswer
      exact hvalues

namespace Dmarc

open Text
open Dns (Untroubled asks_look asks_pure)

/-! ## Texts at one name -/

/-- Whether a text claims to be a policy: but for white space it begins with `v=DMARC1`, in any
letter case. -/
def claimsPolicy (text : String) : Bool :=
  "v=dmarc1".toList.isPrefixOf (lowerAscii (text.toList.dropWhile isBlank))

theorem isCandidate_eq : isCandidate = claimsPolicy := by
  funext text
  have hversion : lowerAscii "v=DMARC1".toList = "v=dmarc1".toList := by decide
  rw [Bool.eq_iff_iff, isCandidate, claimsPolicy, eqIgnoreCase_iff, hversion,
    List.isPrefixOf_iff_prefix, List.prefix_iff_eq_take, lowerAscii, lowerAscii, List.map_take]
  exact eq_comm

/-- Of some texts just one claims to be a policy, and it can be read. -/
def HoldsRecord (texts : List String) (record : Record) : Prop :=
  ∃ text, texts.filter claimsPolicy = [text] ∧ Record.ofText text = .ok record

theorem policyIn_eq_some_iff {texts : List String} {record : Record} :
    policyIn texts = .ok (some record) ↔ HoldsRecord texts record := by
  unfold policyIn HoldsRecord
  rw [isCandidate_eq]
  rcases texts.filter claimsPolicy with _ | ⟨text, _ | ⟨text', rest⟩⟩
  · simp
  · cases h : Record.ofText text with
    | error fault => simp [h]
    | ok found => simp [h]
  · simp

/-- No text or several that claim to be policies count as none. -/
theorem policyIn_eq_none_iff {texts : List String} :
    policyIn texts = .ok none ↔ (texts.filter claimsPolicy).length ≠ 1 := by
  unfold policyIn
  rw [isCandidate_eq]
  rcases texts.filter claimsPolicy with _ | ⟨text, _ | ⟨text', rest⟩⟩
  · simp
  · cases h : Record.ofText text with
    | error fault => simp [h]
    | ok found => simp [h]
  · simp

/-! ## A domain -/

/-- **The record that applies to a domain**, and the policy that it states for it: that at the
domain itself; or if there is none or are several, that at its organizational domain, of which the
policy for subdomains applies. -/
inductive Governs (reg : Registry) (z : Dns.Zone) (domain : String) : Record → Policy → Prop
  | own {record : Record} (h : HoldsRecord (z.textsAt ("_dmarc." ++ domain)) record) :
      Governs reg z domain record record.policy
  | organizational {record : Record}
      (hown : ((z.textsAt ("_dmarc." ++ domain)).filter claimsPolicy).length ≠ 1)
      (h : HoldsRecord (z.textsAt ("_dmarc." ++ reg.organizational domain)) record) :
      Governs reg z domain record (record.subdomainPolicy.getD record.policy)

variable {reg : Registry} {ctx : Dns.Context} {z : Dns.Zone} {s : Dns.Session} {domain : String}
  {record : Record} {policy : Policy}

theorem lookup_of_untroubled
    (h : Untroubled (fun ctx r => lookup ctx r domain) ctx z.resolver s) :
    (lookup ctx z.resolver domain s).1 = policyIn (z.textsAt ("_dmarc." ++ domain)) := by
  simp only [lookup_eq] at h
  have hlook : Dns.isTransientError (ctx.txt z.resolver ("_dmarc." ++ domain) s).1 = false :=
    Untroubled.not_transient (h.of_bind (asks_look (.txt _)) fun _ => asks_pure _).1
  have hanswer : (ctx.txt z.resolver ("_dmarc." ++ domain) s).1 =
      z.answer z.texts ("_dmarc." ++ domain) :=
    Dns.Context.look_of_not_transient (q := .txt _) hlook
  rw [lookup_eq, Dns.Session.bind_apply]
  unfold Dns.Zone.textsAt
  rw [← hanswer]
  show policyOfAnswer (ctx.txt z.resolver ("_dmarc." ++ domain) s).1 = _
  cases hfound : (ctx.txt z.resolver ("_dmarc." ++ domain) s).1 with
  | ok texts => rfl
  | error e =>
    rw [hfound] at hlook
    cases e with
    | notFound => rfl
    | _ => cases hlook

theorem governs_iff : Governs reg z domain record policy ↔
    let own := policyIn (z.textsAt ("_dmarc." ++ domain))
    own = .ok (some record) ∧ policy = record.policy ∨
      own = .ok none ∧
        policyIn (z.textsAt ("_dmarc." ++ reg.organizational domain)) =
          .ok (some record) ∧
        policy = record.subdomainPolicy.getD record.policy := by
  simp only [policyIn_eq_some_iff, policyIn_eq_none_iff]
  constructor
  · rintro (h | ⟨hown, h⟩)
    · exact Or.inl ⟨h, rfl⟩
    · exact Or.inr ⟨hown, h, rfl⟩
  · rintro (⟨h, rfl⟩ | ⟨hown, h, rfl⟩)
    · exact .own h
    · exact .organizational hown h

/-- **Just the record that governs a domain is found**, if no lookup fails for now. -/
theorem discover_eq_some_iff
    (h : Untroubled (fun ctx r => discover reg ctx r domain) ctx z.resolver s) :
    (discover reg ctx z.resolver domain s).1 = .ok (some (record, policy)) ↔
      Governs reg z domain record policy := by
  simp only [discover_eq] at h
  obtain ⟨hfirst, hsecond⟩ := h.of_bind (asks_lookup domain) (asks_discoverFrom domain)
  rw [discover_eq, Dns.Session.bind_apply, governs_iff]
  rw [lookup_of_untroubled hfirst] at hsecond ⊢
  generalize (lookup ctx z.resolver domain s).2 = s' at hsecond ⊢
  rcases hown : policyIn (z.textsAt ("_dmarc." ++ domain)) with e | _ | found
  · exact iff_of_false nofun (by simp)
  · rw [hown] at hsecond
    unfold discoverFrom at hsecond ⊢
    by_cases horganization : reg.organizational domain = domain
    · -- nothing is looked up at the same name again, and nothing would be found there
      rw [if_pos horganization, horganization, hown]
      exact iff_of_false nofun (by simp)
    · simp only [if_neg horganization] at hsecond ⊢
      have hlookup := lookup_of_untroubled (hsecond.of_bind (asks_lookup _) fun _ => asks_pure _).1
      rw [Dns.Session.bind_apply, hlookup]
      rcases policyIn (z.textsAt ("_dmarc." ++ reg.organizational domain)) with
        e | _ | found
      · exact iff_of_false nofun (by simp)
      · exact iff_of_false nofun (by simp)
      · constructor
        · intro hfound
          obtain ⟨rfl, rfl⟩ := Prod.mk.inj (Option.some.inj (Except.ok.inj hfound))
          exact Or.inr ⟨trivial, rfl, rfl⟩
        · rintro (⟨hfound, -⟩ | ⟨-, hfound, rfl⟩)
          · cases hfound
          · obtain rfl := Option.some.inj (Except.ok.inj hfound)
            rfl
  · constructor
    · intro hfound
      obtain ⟨rfl, rfl⟩ := Prod.mk.inj (Option.some.inj (Except.ok.inj hfound))
      exact Or.inl ⟨rfl, rfl⟩
    · rintro (⟨hfound, rfl⟩ | ⟨hnone, -⟩)
      · obtain rfl := Option.some.inj (Except.ok.inj hfound)
        rfl
      · cases hnone

/-- **The record that governs the author's domain decides**, if no lookup fails for now. -/
theorem evaluate_of_governs {author : String} {spf : Spf.Outcome} {spfDomain : Option String}
    {dkim : Dkim.Outcome}
    (hgoverns : Governs reg z (DomainName.normalize author) record policy)
    (h : Untroubled (fun ctx r => evaluate reg ctx r author spf spfDomain dkim) ctx z.resolver s) :
    (evaluate reg ctx z.resolver author spf spfDomain dkim s).1 =
      apply reg record policy (DomainName.normalize author) spf spfDomain dkim := by
  simp only [evaluate_eq] at h
  have hfound := (discover_eq_some_iff (h.of_bind (asks_discover _) fun _ => asks_pure _).1).mpr
    hgoverns
  rw [evaluate_eq, Dns.Session.bind_apply, hfound]
  rfl

/-- A policy lets a message pass by either of the two tests of alignment. -/
theorem apply_eq_pass_iff {author : String} {spf : Spf.Outcome} {spfDomain : Option String}
    {dkim : Dkim.Outcome} : (apply reg record policy author spf spfDomain dkim).result = .pass ↔
      spfAligned reg record author spf spfDomain = true ∨
        dkimAligned reg record author dkim = true := by
  rw [← Bool.or_eq_true_iff]
  unfold apply
  by_cases h : (spfAligned reg record author spf spfDomain ||
    dkimAligned reg record author dkim) = true
  · simp [h]
  · simp [h]

end Dmarc

end MailScreen
