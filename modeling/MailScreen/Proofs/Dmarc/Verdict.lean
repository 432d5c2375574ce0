import MailScreen.Dns.Zone
import MailScreen.Proofs.Dmarc.Alignment
import MailScreen.Proofs.Dmarc.ReportTags

/-!
# Discovery and verdict

What an evaluation asks for, and what it makes of the answers, is said here on the lookups that it
has made: at the author's domain, and then perhaps at its organizational domain.

* `TextLookup` is a lookup of texts and how it ended.
* `Lookups` says which lookups are made. `IsVerdict` says what comes of them: each of the results
  that apply no policy by an iff, and `IsApplied` where there is a policy to apply.
* `judging` is the inquiry that an evaluation follows (`evaluate_eq_judging`), and its result is
  read off its last lookup (`judge`). `isVerdict_judge` has all the cases of that lookup.
* `evaluate_verdict` is the whole of it, for resolvers with at most one policy at each name.
-/

namespace MailScreen.Dmarc

open Dns (Inquiry Resolver LookupError isTransientError)

/-! ## Lookups of texts -/

/-- A lookup of the texts at a name, and how it ended. -/
structure TextLookup where
  name : String
  answer : Except LookupError (List String)

namespace TextLookup

/-- Whether the lookup ended in an error, and not because there are no texts. -/
def hasFailed (l : TextLookup) : Bool :=
  isTransientError l.answer

/-- The texts that claim to be policies. -/
def candidates (l : TextLookup) : List String :=
  match l.answer with
  | .ok texts => texts.filter claimsPolicy
  | .error _ => []

/-- The lookup in a transcript. -/
def entry (l : TextLookup) : Σ q : Dns.Query, Except LookupError q.Records :=
  ⟨.txt l.name, l.answer⟩

end TextLookup

/-- Looks up the texts at a name. -/
def lookAt (ctx : Dns.Context) (r : Resolver) (name : String) (s : Dns.Session) :
    TextLookup × Dns.Session :=
  (⟨name, (ctx.look r (.txt name) s).1⟩, (ctx.look r (.txt name) s).2)

/-- The inquiry that looks up the texts at a name and goes on from there. -/
def asking {α : Type} (name : String) (next : TextLookup → Inquiry α) : Inquiry α :=
  .ask (.txt name) fun answer => next ⟨name, answer⟩

theorem run_asking {α : Type} (ctx : Dns.Context) (r : Resolver) (name : String)
    (next : TextLookup → Inquiry α) (s : Dns.Session) :
    (asking name next).run ctx r s =
      (next (lookAt ctx r name s).1).run ctx r (lookAt ctx r name s).2 := rfl

theorem transcript_asking {α : Type} (ctx : Dns.Context) (r : Resolver) (name : String)
    (next : TextLookup → Inquiry α) (s : Dns.Session) :
    (asking name next).transcript ctx r s = (lookAt ctx r name s).1.entry ::
      (next (lookAt ctx r name s).1).transcript ctx r (lookAt ctx r name s).2 := rfl

/-- The name at which the policy of a domain is looked up. -/
def policyName (domain : String) : String := "_dmarc." ++ domain

/-- **Which lookups are made.** The first is at the domain. If it does not fail and yields no
candidate, and the organizational domain is another one, there is a second, at that domain. -/
inductive Lookups (reg : Registry) (domain : String) : List TextLookup → Prop
  | own {l : TextLookup} (hname : l.name = policyName domain)
      (hends : l.hasFailed = true ∨ l.candidates ≠ [] ∨
        reg.organizational domain = domain) : Lookups reg domain [l]
  | organizational {l l' : TextLookup} (hname : l.name = policyName domain)
      (hname' : l'.name = policyName (reg.organizational domain))
      (hfailed : l.hasFailed = false) (hnone : l.candidates = [])
      (hother : reg.organizational domain ≠ domain) : Lookups reg domain [l, l']

/-! ## Verdicts -/

section

variable (reg : Registry) (domain : String) (spf : Spf.Outcome) (spfDomain : Option String)
  (dkim : Dkim.Outcome)

/-- The policy that a record states for a domain, by the lookup that found it: that for subdomains
counts only if the record was not found at the domain itself, and was given. -/
def TextLookup.policyFor (l : TextLookup) (record : Record) : Policy :=
  if l.name = policyName domain then record.policy
  else record.subdomainPolicy.getD record.policy

/-- The outcome under a policy that a record states: the message passes by either of the two
methods, or fails with this policy. -/
structure IsApplied (record : Record) (stated : Policy) (o : Outcome) : Prop where
  policy : o.policy = stated
  spfAligned : o.spfAligned = true ↔ spf = .pass ∧
    ∃ d, spfDomain = some d ∧ IsAligned reg record.spfAlignment domain d
  dkimAligned : o.dkimAligned = true ↔ dkim.result = .pass ∧
    ∃ d, dkim.domain = some d ∧ IsAligned reg record.dkimAlignment domain d
  pass : o.result = .pass ↔ o.spfAligned = true ∨ o.dkimAligned = true
  fail : o.result ≠ .pass → o.result = .fail stated

/-- **What comes of the lookups.** -/
structure IsVerdict (lookups : List TextLookup) (o : Outcome) : Prop where
  tempError : o.result = .tempError ↔ ∃ l ∈ lookups, l.hasFailed = true
  permError : o.result = .permError ↔
    ∃ l ∈ lookups, ∃ text ∈ l.candidates, ∃ fault, Record.ofText text = .error fault
  none : o.result = .none ↔ ∀ l ∈ lookups, l.hasFailed = false ∧ l.candidates = []
  withoutPolicy : o.result = .tempError ∨ o.result = .permError ∨ o.result = .none →
    o.policy = .none ∧ o.spfAligned = false ∧ o.dkimAligned = false
  applied : ∀ l ∈ lookups, ∀ text ∈ l.candidates, ∀ record, Record.ofText text = .ok record →
    IsApplied reg domain spf spfDomain dkim record (l.policyFor domain record) o

end

variable {reg : Registry} {domain : String} {spf : Spf.Outcome} {spfDomain : Option String}
  {dkim : Dkim.Outcome}

theorem isApplied_apply (record : Record) (policy : Policy) :
    IsApplied reg domain spf spfDomain dkim record policy
      (apply reg record policy domain spf spfDomain dkim) where
  policy := rfl
  spfAligned := by
    unfold apply spfAligned
    rw [Bool.and_eq_true, beq_iff_eq, Option.any_eq_true]
    simp only [aligned_iff]
  dkimAligned := by
    unfold apply dkimAligned
    rw [Bool.and_eq_true, Dkim.Outcome.isValid, beq_iff_eq, Option.any_eq_true]
    simp only [aligned_iff]
  pass := apply_eq_pass_iff
  fail h := by
    unfold apply at h ⊢
    exact if_neg fun hpasses => h (if_pos hpasses)

/-! ## The last lookup decides -/

/-- What a lookup of at most one candidate comes to. -/
inductive Reads (l : TextLookup) : Except Result (Option Record) → Prop
  | failed (h : l.hasFailed = true) (hnone : l.candidates = []) : Reads l (.error .tempError)
  | nothing (hfailed : l.hasFailed = false) (hnone : l.candidates = []) : Reads l (.ok none)
  | malformed {text : String} {fault : Fault} (hfailed : l.hasFailed = false)
      (hone : l.candidates = [text]) (hread : Record.ofText text = .error fault) :
      Reads l (.error .permError)
  | found {text : String} {record : Record} (hfailed : l.hasFailed = false)
      (hone : l.candidates = [text]) (hread : Record.ofText text = .ok record) :
      Reads l (.ok (some record))

theorem reads_policyOfAnswer {l : TextLookup} (h : l.candidates.length ≤ 1) :
    Reads l (policyOfAnswer l.answer) := by
  obtain ⟨name, e | texts⟩ := l
  · cases e with
    | notFound => exact .nothing rfl rfl
    | _ => exact .failed rfl rfl
  · show Reads _ (policyIn texts)
    unfold policyIn
    rw [isCandidate_eq]
    rcases hcandidates : texts.filter claimsPolicy with _ | ⟨text, _ | ⟨text', rest⟩⟩
    · exact .nothing rfl hcandidates
    · cases hread : Record.ofText text with
      | error fault =>
        simp only [hread]
        exact .malformed rfl hcandidates hread
      | ok record =>
        simp only [hread]
        exact .found rfl hcandidates hread
    · unfold TextLookup.candidates at h
      simp only [hcandidates, List.length_cons] at h
      omega

/-- What an evaluation makes of its last lookup. -/
def judge (reg : Registry) (domain : String) (spf : Spf.Outcome) (spfDomain : Option String)
    (dkim : Dkim.Outcome) (l : TextLookup) : Outcome :=
  outcomeFor reg domain spf spfDomain dkim
    ((policyOfAnswer l.answer).map (·.map fun record => (record, l.policyFor domain record)))

/-- A lookup before the others that finds nothing makes no difference. -/
theorem IsVerdict.cons {l : TextLookup} {lookups : List TextLookup} {o : Outcome}
    (h : IsVerdict reg domain spf spfDomain dkim lookups o) (hfailed : l.hasFailed = false)
    (hnone : l.candidates = []) : IsVerdict reg domain spf spfDomain dkim (l :: lookups) o where
  tempError := by
    rw [h.tempError, List.exists_mem_cons_iff, hfailed]
    exact (or_iff_right Bool.false_ne_true).symm
  permError := by
    rw [h.permError, List.exists_mem_cons_iff, hnone]
    refine (or_iff_right ?_).symm
    rintro ⟨text, htext, -⟩
    cases htext
  none := by
    rw [h.none, List.forall_mem_cons]
    exact (and_iff_right ⟨hfailed, hnone⟩).symm
  withoutPolicy := h.withoutPolicy
  applied := by
    refine List.forall_mem_cons.mpr ⟨?_, h.applied⟩
    rw [hnone]
    exact nofun

/-- One lookup that finds no policy to apply. -/
theorem isVerdict_withoutPolicy {l : TextLookup} {e : Result}
    (htemp : e = .tempError ↔ l.hasFailed = true)
    (hperm : e = .permError ↔
      ∃ text ∈ l.candidates, ∃ fault, Record.ofText text = .error fault)
    (hnone : e = .none ↔ l.hasFailed = false ∧ l.candidates = [])
    (hunread : ∀ text ∈ l.candidates, ∀ record, Record.ofText text ≠ .ok record) :
    IsVerdict reg domain spf spfDomain dkim [l] (.withoutPolicy e) where
  tempError := htemp.trans (by simp)
  permError := hperm.trans (by simp)
  none := hnone.trans (by simp)
  withoutPolicy _ := ⟨rfl, rfl, rfl⟩
  applied := List.forall_mem_singleton.mpr fun text htext record hread =>
    absurd hread (hunread text htext record)

/-- One lookup that finds a policy. -/
theorem isVerdict_apply {l : TextLookup} {text : String} {record : Record}
    (hfailed : l.hasFailed = false) (hone : l.candidates = [text])
    (hread : Record.ofText text = .ok record) :
    IsVerdict reg domain spf spfDomain dkim [l]
      (apply reg record (l.policyFor domain record) domain spf spfDomain dkim) := by
  have happlied : IsApplied reg domain spf spfDomain dkim record (l.policyFor domain record) _ :=
    isApplied_apply record (l.policyFor domain record)
  generalize apply reg record _ domain spf spfDomain dkim = o at happlied
  have hresult : o.result = .pass ∨ o.result = .fail (l.policyFor domain record) := by
    by_cases h : o.result = .pass
    · exact Or.inl h
    · exact Or.inr (happlied.fail h)
  have hother {e : Result} (hpass : e ≠ .pass) (hfail : ∀ policy, e ≠ .fail policy) :
      o.result ≠ e := by
    rcases hresult with h | h
    · exact h ▸ hpass.symm
    · exact h ▸ (hfail _).symm
  have htemp : o.result ≠ .tempError := hother nofun nofun
  have hperm : o.result ≠ .permError := hother nofun nofun
  have hnone : o.result ≠ .none := hother nofun nofun
  exact {
    tempError := iff_of_false htemp (by simp [hfailed])
    permError := iff_of_false hperm (by simp [hone, hread])
    none := iff_of_false hnone (by simp [hone])
    withoutPolicy := fun h => by simp [htemp, hperm, hnone] at h
    applied := by simp [hone, hread, happlied] }

/-- **The verdict on one lookup**, by what it comes to. -/
theorem isVerdict_judge {l : TextLookup} (h : l.candidates.length ≤ 1) :
    IsVerdict reg domain spf spfDomain dkim [l] (judge reg domain spf spfDomain dkim l) := by
  have hreads := reads_policyOfAnswer h
  unfold judge
  generalize policyOfAnswer l.answer = found at hreads
  cases hreads with
  | failed h hnone =>
    exact isVerdict_withoutPolicy (by simp [h]) (by simp [hnone]) (by simp [h]) (by simp [hnone])
  | nothing hfailed hnone =>
    exact isVerdict_withoutPolicy (by simp [hfailed]) (by simp [hnone]) (by simp [hfailed, hnone])
      (by simp [hnone])
  | malformed hfailed hone hread =>
    exact isVerdict_withoutPolicy (by simp [hfailed]) (by simp [hone, hread]) (by simp [hone])
      (by simp [hone, hread])
  | found hfailed hone hread => exact isVerdict_apply hfailed hone hread

theorem policyName_injective {domain domain' : String}
    (h : policyName domain = policyName domain') : domain = domain' := by
  unfold policyName at h
  simpa using h

theorem judge_own {l : TextLookup} (h : l.name = policyName domain) :
    judge reg domain spf spfDomain dkim l = outcomeFor reg domain spf spfDomain dkim
      ((policyOfAnswer l.answer).map (·.map fun record => (record, record.policy))) := by
  unfold judge TextLookup.policyFor
  simp only [if_pos h]

theorem judge_other {organization : String} {l : TextLookup} (h : l.name = policyName organization)
    (hother : organization ≠ domain) :
    judge reg domain spf spfDomain dkim l = outcomeFor reg domain spf spfDomain dkim
      ((policyOfAnswer l.answer).map (·.map fun record =>
        (record, record.subdomainPolicy.getD record.policy))) := by
  unfold judge TextLookup.policyFor
  simp only [if_neg fun hname => hother (policyName_injective (h.symm.trans hname))]

/-! ## The inquiry -/

section

variable (reg : Registry) (domain : String) (spf : Spf.Outcome) (spfDomain : Option String)
  (dkim : Dkim.Outcome)

/-- What an evaluation does after the lookup at the domain: if there is no policy, it goes on to the
organizational domain, if that is another one. -/
def judgingFrom (l : TextLookup) : Inquiry Outcome :=
  if policyOfAnswer l.answer = .ok none ∧ reg.organizational domain ≠ domain then
    asking (policyName (reg.organizational domain)) fun l' =>
      .done (judge reg domain spf spfDomain dkim l')
  else .done (judge reg domain spf spfDomain dkim l)

/-- What an evaluation asks. -/
def judging : Inquiry Outcome :=
  asking (policyName domain) (judgingFrom reg domain spf spfDomain dkim)

end

theorem run_judgingFrom (ctx : Dns.Context) (r : Resolver) {l : TextLookup}
    (hname : l.name = policyName domain) :
    (judgingFrom reg domain spf spfDomain dkim l).run ctx r =
      discoverFrom reg ctx r domain (policyOfAnswer l.answer) >>= fun found =>
        pure (outcomeFor reg domain spf spfDomain dkim found) := by
  unfold judgingFrom
  rw [judge_own hname]
  rcases policyOfAnswer l.answer with e | _ | record
  · rw [if_neg fun h => nomatch h.1]
    rfl
  · unfold discoverFrom
    by_cases h : reg.organizational domain = domain
    · rw [if_neg fun hgoesOn => hgoesOn.2 h]
      simp only [if_pos h]
      rfl
    · rw [if_pos ⟨rfl, h⟩]
      simp only [if_neg h]
      rw [lookup_eq]
      funext s
      let looked := lookAt ctx r (policyName (reg.organizational domain)) s
      have hjudge : judge reg domain spf spfDomain dkim looked.1 = _ := judge_other rfl h
      exact congrArg (·, looked.2) hjudge
  · rw [if_neg fun h => nomatch h.1]
    rfl

/-- **An evaluation does what this inquiry does.** -/
theorem evaluate_eq_judging (ctx : Dns.Context) (r : Resolver) (author : String)
    (spf : Spf.Outcome) (spfDomain : Option String) (dkim : Dkim.Outcome) :
    evaluate reg ctx r author spf spfDomain dkim =
      (judging reg (DomainName.normalize author) spf spfDomain dkim).run ctx r := by
  rw [evaluate_eq, discover_eq, lookup_eq]
  funext s
  let looked := lookAt ctx r (policyName (DomainName.normalize author)) s
  have hname : looked.1.name = policyName (DomainName.normalize author) := rfl
  exact (congrFun (run_judgingFrom ctx r hname) looked.2).symm

/-! ## At most one policy at each name -/

/-- A resolver never answers a lookup of a policy with several texts that claim to be one. -/
def SinglePolicies (r : Resolver) : Prop :=
  ∀ earlier domain texts, (r.txt earlier (policyName domain)).answer = .ok texts →
    (texts.filter claimsPolicy).length ≤ 1

variable {ctx : Dns.Context} {r r' : Resolver} {s : Dns.Session}

theorem SinglePolicies.length_candidates_le (h : SinglePolicies r) (ctx : Dns.Context)
    (domain : String) (s : Dns.Session) :
    (lookAt ctx r (policyName domain) s).1.candidates.length ≤ 1 := by
  unfold TextLookup.candidates
  rcases hanswer : (lookAt ctx r (policyName domain) s).1.answer with e | texts
  · exact Nat.zero_le 1
  · exact h s.history domain texts (Dns.Context.answer_of_look_eq_ok (q := .txt _) hanswer)

theorem singlePolicies_zone {z : Dns.Zone}
    (h : ∀ domain, ((z.textsAt (policyName domain)).filter claimsPolicy).length ≤ 1) :
    SinglePolicies z.resolver := by
  intro earlier domain texts hanswer
  have hdomain := h domain
  unfold Dns.Zone.textsAt at hdomain
  rw [show z.answer z.texts (policyName domain) = .ok texts from hanswer] at hdomain
  exact hdomain

theorem policyOfAnswer_eq_none_iff {l : TextLookup} (h : l.candidates.length ≤ 1) :
    policyOfAnswer l.answer = .ok none ↔ l.hasFailed = false ∧ l.candidates = [] := by
  have hreads := reads_policyOfAnswer h
  generalize policyOfAnswer l.answer = found at hreads
  cases hreads with
  | failed h hnone => simp [h]
  | nothing hfailed hnone => simp [hfailed, hnone]
  | malformed hfailed hone hread => simp [hone]
  | found hfailed hone hread => simp [hone]

theorem exists_lookups_judging (hr : SinglePolicies r) (ctx : Dns.Context) (s : Dns.Session) :
    ∃ lookups : List TextLookup,
      (judging reg domain spf spfDomain dkim).transcript ctx r s = lookups.map TextLookup.entry ∧
      Lookups reg domain lookups ∧
      IsVerdict reg domain spf spfDomain dkim lookups
        ((judging reg domain spf spfDomain dkim).run ctx r s).1 := by
  unfold judging
  rw [transcript_asking, run_asking]
  have hname : (lookAt ctx r (policyName domain) s).1.name = policyName domain := rfl
  have hl := hr.length_candidates_le ctx domain s
  generalize lookAt ctx r (policyName domain) s = looked at hname hl ⊢
  obtain ⟨l, s⟩ := looked
  unfold judgingFrom
  by_cases hgoesOn : policyOfAnswer l.answer = .ok none ∧
    reg.organizational domain ≠ domain
  · obtain ⟨hfailed, hnone⟩ := (policyOfAnswer_eq_none_iff hl).mp hgoesOn.1
    have hl' := hr.length_candidates_le ctx (reg.organizational domain) s
    rw [if_pos hgoesOn, transcript_asking, run_asking]
    exact ⟨[l, _], rfl, .organizational hname rfl hfailed hnone hgoesOn.2,
      (isVerdict_judge hl').cons hfailed hnone⟩
  · rw [if_neg hgoesOn]
    refine ⟨[l], rfl, .own hname ?_, isVerdict_judge hl⟩
    rw [policyOfAnswer_eq_none_iff hl] at hgoesOn
    by_cases hfailed : l.hasFailed = true
    · exact Or.inl hfailed
    · by_cases hnone : l.candidates = []
      · refine Or.inr (Or.inr ?_)
        by_contra hother
        exact hgoesOn ⟨⟨eq_false_of_ne_true hfailed, hnone⟩, hother⟩
      · exact Or.inr (Or.inl hnone)

/-! ## Retagged policies -/

/-- What is made of a lookup depends on the terms of the policy. -/
theorem judge_eq_foundTerms (l : TextLookup) :
    judge reg domain spf spfDomain dkim l = outcomeFor reg domain spf spfDomain dkim
      ((foundTerms (policyOfAnswer l.answer)).map
        (·.map fun record => (record, l.policyFor domain record))) := by
  unfold judge
  rcases policyOfAnswer l.answer with e | _ | record
  · rfl
  · rfl
  · rfl

theorem foundTerms_eq_none_iff {found : Except Result (Option Record)} :
    foundTerms found = .ok none ↔ found = .ok none := by
  rcases found with e | _ | record
  · exact iff_of_false nofun nofun
  · exact iff_of_true rfl rfl
  · exact iff_of_false nofun nofun

/-- Two lookups at one name, with the same terms of the policies that are found. -/
structure TextLookup.SameTerms (l l' : TextLookup) : Prop where
  name : l.name = l'.name
  found : foundTerms (policyOfAnswer l.answer) = foundTerms (policyOfAnswer l'.answer)

theorem judge_sameTerms {l l' : TextLookup} (h : l.SameTerms l') :
    judge reg domain spf spfDomain dkim l = judge reg domain spf spfDomain dkim l' := by
  rw [judge_eq_foundTerms, judge_eq_foundTerms, h.found]
  unfold TextLookup.policyFor
  rw [h.name]

theorem lookAt_retagged (h : r.Retagged r') (ctx : Dns.Context) (name : String) (s : Dns.Session) :
    (lookAt ctx r name s).1.SameTerms (lookAt ctx r' name s).1 ∧
      (lookAt ctx r name s).2 = (lookAt ctx r' name s).2 := by
  obtain ⟨hanswer, hsession⟩ := ctx.look_related (q := .txt name) (s := s)
    (R := Spf.Paired Eq TextsRetagged) (fun _ => .error rfl) (h.delay _ _) (h.answer _ _)
  exact ⟨⟨rfl, policyOfAnswer_retagged hanswer⟩, hsession⟩

theorem run_asking_retagged {α : Type} (h : r.Retagged r') {name : String}
    {next : TextLookup → Inquiry α}
    (hnext : ∀ l l' s, l.SameTerms l' → (next l).run ctx r s = (next l').run ctx r' s) :
    (asking name next).run ctx r s = (asking name next).run ctx r' s := by
  obtain ⟨hterms, hsession⟩ := lookAt_retagged h ctx name s
  rw [run_asking, run_asking, hnext _ _ _ hterms, hsession]

/-- **With retagged policies an evaluation does the same.** -/
theorem run_judging_retagged (h : r.Retagged r') :
    (judging reg domain spf spfDomain dkim).run ctx r s =
      (judging reg domain spf spfDomain dkim).run ctx r' s := by
  refine run_asking_retagged h fun l l' s hterms => ?_
  have hnone : policyOfAnswer l.answer = .ok none ↔ policyOfAnswer l'.answer = .ok none := by
    rw [← foundTerms_eq_none_iff, hterms.found, foundTerms_eq_none_iff]
  unfold judgingFrom
  simp only [hnone, judge_sameTerms hterms]
  split
  · exact run_asking_retagged h fun l l' s hterms => by
      rw [judge_sameTerms hterms, Inquiry.run_done, Inquiry.run_done]
  · rfl

/-- **Discovery and verdict.** What an evaluation does is one inquiry, and no other one does the
same. With a resolver that has at most one policy at each name, it makes one or two lookups, as
`Lookups` says, and comes to the outcome that `IsVerdict` reads off them. And whatever else the
resolver answers, nothing changes with one that answers in the same time and has other tags that do
not bear on a verdict in its policies. -/
theorem evaluate_verdict (reg : Registry) (author : String) (spf : Spf.Outcome)
    (spfDomain : Option String) (dkim : Dkim.Outcome) :
    ∃ p : Inquiry Outcome,
      (∀ ctx r, evaluate reg ctx r author spf spfDomain dkim = p.run ctx r) ∧
      (∀ p' : Inquiry Outcome,
        (∀ ctx r, evaluate reg ctx r author spf spfDomain dkim = p'.run ctx r) → p' = p) ∧
      ∀ ctx r s,
        (SinglePolicies r → ∃ lookups : List TextLookup,
          p.transcript ctx r s = lookups.map TextLookup.entry ∧
          Lookups reg (DomainName.normalize author) lookups ∧
          IsVerdict reg (DomainName.normalize author) spf spfDomain dkim lookups
            (evaluate reg ctx r author spf spfDomain dkim s).1) ∧
        ∀ r' : Resolver, r.Retagged r' →
          evaluate reg ctx r author spf spfDomain dkim s =
            evaluate reg ctx r' author spf spfDomain dkim s := by
  refine ⟨judging reg (DomainName.normalize author) spf spfDomain dkim,
    fun ctx r => evaluate_eq_judging ctx r author spf spfDomain dkim, fun p' hp' => ?_,
    fun ctx r s => ⟨fun hr => ?_, fun r' hr' => ?_⟩⟩
  · exact Inquiry.eq_of_run_eq fun r ctx =>
      (hp' ctx r).symm.trans (evaluate_eq_judging ctx r author spf spfDomain dkim)
  · rw [evaluate_eq_judging]
    exact exists_lookups_judging hr ctx s
  · rw [evaluate_eq_judging, evaluate_eq_judging]
    exact run_judging_retagged hr'

theorem evaluate_verdict_subdomain :
    let reg : Registry := .ofRules [.suffix ["com"]]
    let zone (text : String) := Dns.Zone.empty.addText "_dmarc.example.com" text
    let z := zone "v=DMARC1; p=reject; sp=quarantine; aspf=s"
    let z' := zone "v=DMARC1; p=reject; sp=quarantine; aspf=s; pct=20; rua=mailto:d@example.com"
    let judged (r : Resolver) (dkim : Dkim.Outcome) : Outcome × Dns.Session :=
      evaluate reg ⟨0, none⟩ r "Mail.Example.com" .pass (some "example.com") dkim ⟨0, []⟩
    SinglePolicies z.resolver ∧ z.resolver.Retagged z'.resolver ∧
      (∀ dkim, (∃ lookups, Lookups reg "mail.example.com" lookups ∧
          IsVerdict reg "mail.example.com" .pass (some "example.com") dkim lookups
            (judged z.resolver dkim).1) ∧
        judged z.resolver dkim = judged z'.resolver dkim) ∧
      (judged z'.resolver .unsigned).1 = ⟨.fail .quarantine, .quarantine, false, false⟩ ∧
      (judged z'.resolver .unsigned).2.queries =
        [.txt "_dmarc.mail.example.com", .txt "_dmarc.example.com"] ∧
      (judged z'.resolver ⟨.pass, some "b.example.com", some "s"⟩).1 =
        ⟨.pass, .quarantine, false, true⟩ := by
  intro reg zone z z' judged
  have hsingle : SinglePolicies z.resolver := by
    refine singlePolicies_zone fun domain => ?_
    exact (List.length_filter_le _ _).trans (z.length_textsAt_le _)
  have hretagged : z.resolver.Retagged z'.resolver := by
    refine Dns.Zone.resolver_retagged (.cons ⟨rfl, Or.inr ?_⟩ .nil) rfl rfl
    let t : Tags := [("v", "DMARC1"), ("p", "reject"), ("sp", "quarantine"), ("aspf", "s")]
    let extra : Tags := [("pct", "20"), ("rua", "mailto:d@example.com")]
    refine ⟨t, t ++ extra, _, _, ⟨by decide +kernel, by decide +kernel, rfl⟩,
      ⟨by decide +kernel, by decide +kernel, rfl⟩, agree_append (by decide)⟩
  have hname : DomainName.normalize "Mail.Example.com" = "mail.example.com" := by decide +kernel
  refine ⟨hsingle, hretagged, fun dkim => ?_, by decide +kernel, by decide +kernel,
    by decide +kernel⟩
  obtain ⟨p, -, -, h⟩ := evaluate_verdict reg "Mail.Example.com" .pass (some "example.com") dkim
  obtain ⟨hverdict, hsame⟩ := h ⟨0, none⟩ z.resolver ⟨0, []⟩
  obtain ⟨lookups, -, hlookups, houtcome⟩ := hverdict hsingle
  rw [hname] at hlookups houtcome
  exact ⟨⟨lookups, hlookups, houtcome⟩, hsame _ hretagged⟩

end MailScreen.Dmarc
