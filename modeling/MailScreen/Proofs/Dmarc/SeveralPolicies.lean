import MailScreen.Proofs.Dmarc.Verdict

/-!
# Several policies at one name

Of several texts at one name that claim to be policies none counts. At the author's own domain that
does not end the search: as if nothing were published there, it goes on at the organizational
domain, and what is published there applies.

* `policyOfAnswer_eq_ok_none_iff`: from which lookups the search goes on.
* `evaluate_of_several`: what comes of several policies at the author's domain; just when that is no
  policy, and else what the organizational domain says.
* `result_ne_none_of_several`: so several policies do not mean that there is none to apply.
-/

namespace MailScreen.Dmarc

open Dns (Resolver)

variable {reg : Registry} {domain : String} {spf : Spf.Outcome} {spfDomain : Option String}
  {dkim : Dkim.Outcome} {ctx : Dns.Context} {r : Resolver} {s : Dns.Session}

/-- A lookup finds no policy, and is no reason to stop, if it does not fail and yields no candidate
or several. -/
theorem policyOfAnswer_eq_ok_none_iff {l : TextLookup} :
    policyOfAnswer l.answer = .ok none ↔ l.hasFailed = false ∧ l.candidates.length ≠ 1 := by
  obtain ⟨name, e | texts⟩ := l
  · cases e with
    | notFound => exact iff_of_true rfl ⟨rfl, Nat.zero_ne_one⟩
    | _ => exact iff_of_false nofun fun h => nomatch h.1
  · exact policyIn_eq_none_iff.trans (iff_and_self.mpr fun _ => rfl)

theorem hasFailed_eq_false_of_mem {l : TextLookup} {text : String} (h : text ∈ l.candidates) :
    l.hasFailed = false := by
  obtain ⟨name, e | texts⟩ := l
  · cases h
  · rfl

/-- What is judged by a lookup without a policy, or without one that can be told, is no policy. -/
theorem judge_eq_of_none {l : TextLookup} (h : policyOfAnswer l.answer = .ok none) :
    judge reg domain spf spfDomain dkim l = .withoutPolicy .none := by
  unfold judge
  rw [h]
  rfl

theorem result_judge_eq_none_iff {l : TextLookup} :
    (judge reg domain spf spfDomain dkim l).result = .none ↔
      l.hasFailed = false ∧ l.candidates.length ≠ 1 := by
  rw [← policyOfAnswer_eq_ok_none_iff]
  refine ⟨fun h => ?_, fun h => by rw [judge_eq_of_none h]; rfl⟩
  by_cases hmany : l.candidates.length ≤ 1
  · exact (policyOfAnswer_eq_none_iff hmany).mpr
      ((isVerdict_judge hmany).none.mp h l (List.mem_singleton_self l))
  · have hsome : l.candidates ≠ [] := fun hnil => hmany (hnil ▸ Nat.zero_le 1)
    obtain ⟨text, htext⟩ := List.exists_mem_of_ne_nil _ hsome
    exact policyOfAnswer_eq_ok_none_iff.mpr
      ⟨hasFailed_eq_false_of_mem htext, fun hone => hmany (Nat.le_of_eq hone)⟩

/-- **Several policies at the author's domain count as none, and the search goes on.** There is no
policy to apply if and only if there is no other domain to go on to, or that has none or several as
well. The lookup there is then the last one, and with at most one candidate it alone gives the
verdict. -/
theorem evaluate_of_several {author : String}
    (h : 2 ≤ (lookAt ctx r (policyName (DomainName.normalize author)) s).1.candidates.length) :
    let domain := DomainName.normalize author
    let organization := reg.organizational domain
    let own := lookAt ctx r (policyName domain) s
    let other := lookAt ctx r (policyName organization) own.2
    let evaluated := evaluate reg ctx r author spf spfDomain dkim s
    (evaluated.1.result = .none ↔
      organization = domain ∨ other.1.hasFailed = false ∧ other.1.candidates.length ≠ 1) ∧
    evaluated.2 = (if organization = domain then own.2 else other.2) ∧
    (organization ≠ domain → other.1.candidates.length ≤ 1 →
      IsVerdict reg domain spf spfDomain dkim [other.1] evaluated.1) := by
  intro domain organization own other evaluated
  have hsome : own.1.candidates ≠ [] := fun hnil => by simp [own, domain, hnil] at h
  obtain ⟨text, htext⟩ := List.exists_mem_of_ne_nil _ hsome
  have hnone : policyOfAnswer own.1.answer = .ok none :=
    policyOfAnswer_eq_ok_none_iff.mpr
      ⟨hasFailed_eq_false_of_mem htext, Nat.ne_of_gt (Nat.lt_of_succ_le h)⟩
  have hevaluated : evaluated =
      (judgingFrom reg domain spf spfDomain dkim own.1).run ctx r own.2 :=
    congrFun (evaluate_eq_judging ctx r author spf spfDomain dkim) s
  unfold judgingFrom at hevaluated
  by_cases horganization : organization = domain
  · rw [if_neg fun hgoesOn => hgoesOn.2 horganization, Dns.Inquiry.run_done,
      judge_eq_of_none hnone] at hevaluated
    rw [hevaluated, if_pos horganization]
    exact ⟨iff_of_true rfl (Or.inl horganization), rfl, fun hother => absurd horganization hother⟩
  · rw [if_pos ⟨hnone, horganization⟩, run_asking, Dns.Inquiry.run_done] at hevaluated
    rw [hevaluated, if_neg horganization]
    exact ⟨result_judge_eq_none_iff.trans (or_iff_right horganization).symm, rfl,
      fun _ hone => isVerdict_judge hone⟩

/-- Two policies for a subdomain, and one for the organizational domain that has no other for
subdomains. -/
theorem evaluate_of_several_subdomain :
    let reg : Registry := .ofRules [.suffix ["com"]]
    let z := ((Dns.Zone.empty.addText "_dmarc.mail.example.com" "v=DMARC1; p=none").addText
      "_dmarc.mail.example.com" "v=DMARC1; p=quarantine").addText "_dmarc.example.com"
      "v=DMARC1; p=reject"
    let own := lookAt ⟨0, none⟩ z.resolver (policyName "mail.example.com") ⟨0, []⟩
    let other := lookAt ⟨0, none⟩ z.resolver (policyName "example.com") own.2
    let evaluated :=
      evaluate reg ⟨0, none⟩ z.resolver "Mail.Example.com" .fail none .unsigned ⟨0, []⟩
    own.1.candidates.length = 2 ∧ evaluated.1.result ≠ .none ∧ evaluated.2 = other.2 ∧
      IsVerdict reg "mail.example.com" .fail none .unsigned [other.1] evaluated.1 := by
  intro reg z own other evaluated
  have hnormalize : DomainName.normalize "Mail.Example.com" = "mail.example.com" := by
    decide +kernel
  have horganization : reg.organizational "mail.example.com" = "example.com" := by
    decide +kernel
  have hown : own.1.candidates.length = 2 := by decide +kernel
  have hother : other.1.candidates.length = 1 := by decide +kernel
  obtain ⟨hnone, hsession, hverdict⟩ := @evaluate_of_several reg .fail none .unsigned
    ⟨0, none⟩ z.resolver ⟨0, []⟩ "Mail.Example.com" (hnormalize ▸ Nat.le_of_eq hown.symm)
  rw [hnormalize, horganization] at hnone hsession hverdict
  refine ⟨hown, ?_, hsession, hverdict (by decide) (Nat.le_of_eq hother)⟩
  rw [ne_eq, hnone]
  rintro (heq | ⟨-, hlength⟩)
  · exact absurd heq (by decide)
  · exact hlength hother

/-- Two policies are published for the author's domain, the lookup of them succeeds, and yet there
is a policy to apply: that of the organizational domain, by which the message fails. -/
theorem result_ne_none_of_several :
    let reg : Registry := .ofRules [.suffix ["com"]]
    let z := ((Dns.Zone.empty.addText "_dmarc.mail.example.com" "v=DMARC1; p=none").addText
      "_dmarc.mail.example.com" "v=DMARC1; p=quarantine").addText "_dmarc.example.com"
      "v=DMARC1; p=reject"
    z.textsAt (policyName "mail.example.com") = ["v=DMARC1; p=none", "v=DMARC1; p=quarantine"] ∧
      (z.textsAt (policyName "mail.example.com")).all claimsPolicy = true ∧
      (evaluate reg ⟨0, none⟩ z.resolver "mail.example.com" .fail none .unsigned ⟨0, []⟩).1.result =
        .fail .reject ∧
      (evaluate reg ⟨0, none⟩ z.resolver "mail.example.com" .fail none .unsigned ⟨0, []⟩).1.result ≠
        .none := by
  decide +kernel

end MailScreen.Dmarc
