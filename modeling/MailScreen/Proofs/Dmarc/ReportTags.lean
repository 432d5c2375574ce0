import MailScreen.Proofs.Dmarc.Governing
import MailScreen.Proofs.Spf.Exchange

/-!
# Tags that do not bear on a verdict

Of the tags of a policy, `pct`, `rua`, `ruf`, `fo`, `rf` and `ri` say how it is to be rolled out and
reported on. They have to be well-formed, or the policy is not; what they say makes no difference to
any verdict.

* `Record.terms` is what bears on a verdict; `terms_eq_of_agree`: it depends on the other tags
  alone.
* `Retagged` is for texts of policies that differ only in these tags, `Dns.Resolver.Retagged` for
  resolvers that answer with such texts.
* `policyOfAnswer_retagged`: the terms of the policies that are found are then the same.
-/

namespace MailScreen

namespace Dmarc

open Spf (Paired)

/-! ## Records -/

/-- The record with what does not bear on a verdict left out. -/
def Record.terms (r : Record) : Record :=
  { Record.ofPolicy r.policy with
    subdomainPolicy := r.subdomainPolicy
    dkimAlignment := r.dkimAlignment
    spfAlignment := r.spfAlignment }

/-- The tags that do not bear on a verdict. -/
def reportTags : List String := ["pct", "rua", "ruf", "fo", "rf", "ri"]

/-- The tags have the same values, but for those that do not bear on a verdict. -/
def Tags.Agree (t t' : Tags) : Prop :=
  ∀ name, name ∉ reportTags → t.get? name = t'.get? name

/-- Tags of these names may be added. -/
theorem agree_append {t extra : Tags} (h : ∀ tag ∈ extra, tag.1 ∈ reportTags) :
    t.Agree (t ++ extra) := by
  intro name hname
  unfold Tags.get?
  have hextra : extra.reverse.lookup name = none := by
    refine List.lookup_eq_none_iff.mpr fun tag htag => ?_
    refine bne_iff_ne.mpr fun heq => hname ?_
    exact heq ▸ h tag (List.mem_reverse.mp htag)
  rw [List.reverse_append, List.lookup_append, hextra, Option.none_or]

theorem terms_ofTags {t : Tags} {record : Record} (h : Record.ofTags t = .ok record) :
    requiredPolicy t = .ok record.policy ∧
      readOr t "sp" none (fun value => (readPolicy value).map some) = .ok record.subdomainPolicy ∧
      readOr t "adkim" .relaxed readAlignment = .ok record.dkimAlignment ∧
      readOr t "aspf" .relaxed readAlignment = .ok record.spfAlignment := by
  unfold Record.ofTags at h
  simp only at h
  split at h
  · cases h
  · obtain ⟨policy, hpolicy, h⟩ := Dkim.bind_ok h
    obtain ⟨subdomainPolicy, hsubdomain, h⟩ := Dkim.bind_ok h
    obtain ⟨percentage, -, h⟩ := Dkim.bind_ok h
    obtain ⟨dkimAlignment, hdkim, h⟩ := Dkim.bind_ok h
    obtain ⟨spfAlignment, hspf, h⟩ := Dkim.bind_ok h
    obtain ⟨interval, -, h⟩ := Dkim.bind_ok h
    obtain rfl := Except.ok.inj h
    exact ⟨hpolicy, hsubdomain, hdkim, hspf⟩

/-- **The terms of a record depend on the other tags alone.** -/
theorem terms_eq_of_agree {t t' : Tags} {record record' : Record} (hagree : t.Agree t')
    (h : Record.ofTags t = .ok record) (h' : Record.ofTags t' = .ok record') :
    record.terms = record'.terms := by
  obtain ⟨hpolicy, hsubdomain, hdkim, hspf⟩ := terms_ofTags h
  obtain ⟨hpolicy', hsubdomain', hdkim', hspf'⟩ := terms_ofTags h'
  unfold requiredPolicy readOr at *
  rw [hagree "p" (by decide)] at hpolicy
  rw [hagree "sp" (by decide)] at hsubdomain
  rw [hagree "adkim" (by decide)] at hdkim
  rw [hagree "aspf" (by decide)] at hspf
  have hp := Except.ok.inj (hpolicy.symm.trans hpolicy')
  have hsp := Except.ok.inj (hsubdomain.symm.trans hsubdomain')
  have hadkim := Except.ok.inj (hdkim.symm.trans hdkim')
  have haspf := Except.ok.inj (hspf.symm.trans hspf')
  unfold Record.terms
  rw [hp, hsp, hadkim, haspf]

/-! ## Texts -/

/-- The text states a policy, in these tags. -/
structure States (text : String) (t : Tags) (record : Record) : Prop where
  claims : claimsPolicy text = true
  tags : Tags.ofText text = .ok t
  record : Record.ofTags t = .ok record

/-- Both texts state policies, in tags that agree but for those that do not bear on a verdict. -/
def Retagged (text text' : String) : Prop :=
  ∃ t t' record record', States text t record ∧ States text' t' record' ∧ t.Agree t'

/-- The same texts in the same order, but for policies that are retagged. -/
def TextsRetagged : List String → List String → Prop :=
  List.Forall₂ fun text text' => text = text' ∨ Retagged text text'

theorem States.ofText {text : String} {t : Tags} {record : Record} (h : States text t record) :
    Record.ofText text = .ok record := by
  unfold Record.ofText
  rw [h.tags]
  exact h.record

theorem claimsPolicy_retagged {text text' : String} (h : text = text' ∨ Retagged text text') :
    claimsPolicy text = claimsPolicy text' := by
  rcases h with rfl | ⟨t, t', record, record', h, h', -⟩
  · rfl
  · rw [h.claims, h'.claims]

/-! ## What is found -/

/-- What is found of a policy, with what does not bear on a verdict left out. -/
def foundTerms (found : Except Result (Option Record)) : Except Result (Option Record) :=
  found.map (·.map Record.terms)

theorem policyIn_retagged {texts texts' : List String} (h : TextsRetagged texts texts') :
    foundTerms (policyIn texts) = foundTerms (policyIn texts') := by
  have hcandidates : TextsRetagged (texts.filter claimsPolicy) (texts'.filter claimsPolicy) :=
    List.rel_filter (fun _ _ h => by simp only [claimsPolicy_retagged h]) h
  unfold policyIn
  rw [isCandidate_eq]
  revert hcandidates
  generalize texts.filter claimsPolicy = candidates
  generalize texts'.filter claimsPolicy = candidates'
  intro hcandidates
  cases hcandidates with
  | nil => rfl
  | cons htext hrest =>
    cases hrest with
    | cons => rfl
    | nil =>
      rcases htext with rfl | ⟨t, t', record, record', h, h', hagree⟩
      · rfl
      · simp only [h.ofText, h'.ofText]
        have hterms := terms_eq_of_agree hagree h.record h'.record
        exact congrArg (Except.ok ∘ some) hterms

/-- **Retagged policies have the same terms**, and nothing else is found in their place. -/
theorem policyOfAnswer_retagged {answer answer' : Except Dns.LookupError (List String)}
    (h : Paired Eq TextsRetagged answer answer') :
    foundTerms (policyOfAnswer answer) = foundTerms (policyOfAnswer answer') := by
  cases h with
  | ok htexts => exact policyIn_retagged htexts
  | error he => rw [he]

end Dmarc

/-! ## Resolvers -/

/-- The two resolvers answer lookups of texts in the same time, with the same texts but for policies
that are retagged, or with the same error. -/
structure Dns.Resolver.Retagged (r r' : Resolver) : Prop where
  delay : ∀ earlier name, (r.txt earlier name).delay = (r'.txt earlier name).delay
  answer : ∀ earlier name, Spf.Paired Eq Dmarc.TextsRetagged (r.txt earlier name).answer
    (r'.txt earlier name).answer

/-- Zones with retagged policies. -/
theorem Dns.Zone.resolver_retagged {z z' : Zone}
    (htexts : List.Forall₂ (fun a b => a.1 = b.1 ∧ (a.2 = b.2 ∨ Dmarc.Retagged a.2 b.2)) z.texts
      z'.texts) (hfaults : z.faults = z'.faults) (hdelay : z.delay = z'.delay) :
    z.resolver.Retagged z'.resolver where
  delay _ _ := hdelay
  answer _ name := answer_related (fun _ => .error rfl) (fun _ _ => .ok) hfaults htexts name

end MailScreen
