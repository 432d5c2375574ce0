import MailScreen.Proofs.Dkim.Verify

/-!
# The domain that is reported of a signature

The outcome for a message names the domain of one of its signatures, whatever was found of it: also
that of a signature which could not be checked. So the sender of a message has a say in what is
reported.

* `Tags.noSemicolon_of_ofText`: a value in a tag list holds no semicolon. It may hold line breaks,
  as the text of a folded field does.
* `verifyAll_of_forall`: what holds of the outcome for each signature holds of that for the message.
* `domain_verify` says which domains may be reported.
-/

namespace MailScreen.Dkim

open MailScreen.Text Dns.Session

/-! ## Values of tags -/

namespace Tags

/-- The value of a tag is part of the text in which it was found. -/
theorem mem_of_mem_tag? {part : List Char} {t : String × String} (h : tag? part = some t) :
    ∀ c ∈ t.2.toList, c ∈ part := by
  intro c hc
  obtain ⟨⟨name, value⟩, hcut, rfl⟩ := Option.map_eq_some_iff.mp h
  obtain ⟨x, -, -, rfl⟩ := eq_of_cutFirst hcut
  rw [String.toList_ofList] at hc
  exact List.mem_append_right _ (List.mem_cons_of_mem x (mem_of_mem_trim hc))

/-- No value in a list of tags holds a semicolon. -/
def NoSemicolon (ts : Tags) : Prop :=
  ∀ t ∈ ts, ';' ∉ t.2.toList

theorem noSemicolon_of_addParts {parts : List (List Char)} {ts us : Tags}
    (hparts : ∀ part ∈ parts, ';' ∉ part) (hts : NoSemicolon ts) (h : addParts ts parts = .ok us) :
    NoSemicolon us := by
  induction parts generalizing ts with
  | nil =>
    obtain rfl := Except.ok.inj h
    exact hts
  | cons part parts ih =>
    have hrest : ∀ q ∈ parts, ';' ∉ q := fun q hq => hparts q (List.mem_cons_of_mem part hq)
    rw [addParts] at h
    split at h
    · exact ih hrest hts h
    · split at h
      · cases h
      · rename_i name value htag
        split at h
        · cases h
        · refine ih hrest ?_ h
          intro t ht
          rcases List.mem_append.mp ht with ht | ht
          · exact hts t ht
          · obtain rfl := List.mem_singleton.mp ht
            exact fun hc => hparts part List.mem_cons_self
              (mem_of_mem_trim (mem_of_mem_tag? htag _ hc))

/-- **A value in a tag list holds no semicolon.** -/
theorem noSemicolon_of_ofText {text : String} {ts : Tags} (h : ofText text = .ok ts) {name : String}
    {value : String} (hvalue : ts.get? name = some value) : ';' ∉ value.toList := by
  have hts : NoSemicolon ts := by
    refine noSemicolon_of_addParts ?_ (List.forall_mem_nil _) h
    intro part hpart hc
    have hne := (mem_of_mem_pieces hpart ';' hc).2
    exact absurd hne (by decide)
  obtain ⟨before, after, hsplit, -⟩ := List.lookup_eq_some_iff.mp hvalue
  exact hts (name, value) (by rw [hsplit]; simp)

end Tags

/-! ## Outcomes -/

variable {scheme : Scheme} {ctx : Dns.Context} {r : Dns.Resolver} {now : Int} {m : Mail.Message}

theorem moreTelling_eq (best : Option Outcome) (o : Outcome) :
    best = some (moreTelling best o) ∨ moreTelling best o = o := by
  unfold moreTelling
  split
  · split
    · exact Or.inl rfl
    · exact Or.inr rfl
  · exact Or.inr rfl

/-- **The outcome for a message** is that of a signature, or says that there is none. -/
theorem verifyAll_of_forall {P : Outcome → Prop} {check : String → StateM Dns.Session Outcome}
    {texts : List String} {best : Option Outcome} (hcheck : ∀ text ∈ texts, ∀ s, P (check text s).1)
    (hbest : ∀ o ∈ best, P o) (hunsigned : P .unsigned) (s : Dns.Session) :
    P (verifyAll check best texts s).1 := by
  induction texts generalizing best s with
  | nil =>
    cases best with
    | none => exact hunsigned
    | some o => exact hbest o rfl
  | cons text texts ih =>
    have hfirst := hcheck text List.mem_cons_self s
    rw [verifyAll, bind_apply]
    split
    · exact hfirst
    · refine ih (fun t ht => hcheck t (List.mem_cons_of_mem text ht)) ?_ _
      rintro o ho
      obtain rfl := Option.some.inj ho
      rcases moreTelling_eq best (check text s).1 with hbest' | hlater
      · exact hbest _ hbest'
      · rwa [hlater]

/-- The value of the tag `d` in one of the signatures that are checked. -/
def IsSigningDomain (m : Mail.Message) (value : String) : Prop :=
  ∃ text ∈ (m.headers.getAll "dkim-signature").take maxSignatures,
    ∃ t, Tags.ofText text = .ok t ∧ t.get? "d" = some value

theorem IsSigningDomain.noSemicolon {value : String} (h : IsSigningDomain m value) :
    ';' ∉ value.toList := by
  obtain ⟨text, -, t, ht, hvalue⟩ := h
  exact Tags.noSemicolon_of_ofText ht hvalue

/-- **The domain that is reported** is the normal form of the tag `d` of a signature. -/
theorem domain_verify (s : Dns.Session) {domain : String}
    (h : (verify scheme ctx r now m s).1.domain = some domain) :
    ∃ value, IsSigningDomain m value ∧ domain = DomainName.normalize value := by
  refine verifyAll_of_forall (P := fun o => ∀ d, o.domain = some d →
    ∃ value, IsSigningDomain m value ∧ d = DomainName.normalize value)
    ?hcheck ?hbest ?hunsigned s domain h
  case hbest => exact nofun
  case hunsigned => exact nofun
  case hcheck =>
    intro text htext s d hd
    cases ht : Tags.ofText text with
    | error e =>
      rw [verifyOne_of_error ht] at hd
      cases hd
    | ok t =>
      rw [verifyOne_of_ok ht] at hd
      obtain ⟨value, hvalue, rfl⟩ := Option.map_eq_some_iff.mp hd
      exact ⟨value, ⟨text, htext, t, ht, hvalue⟩, rfl⟩

end MailScreen.Dkim
