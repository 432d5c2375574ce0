import MailScreen.Spf.Record

/-!
# Policies by their terms

A policy is read term by term. Whether it can be read, and as what, is told by what each of its
terms is read as.

* `writtenTerms?` gives the terms of a policy as they are written; `addWords_append` adds them in
  two parts.
* `ofText_eq_ok_iff`: a policy is read if and only if each of its terms is, and there is at most one
  redirect; its directives are then those among its terms, in order.
-/

namespace MailScreen.Spf

open MailScreen.Text

/-- The directive that a term is. -/
def Term.directive? : Term → Option Directive
  | directive d => some d
  | _ => none

/-- The domain to which a term redirects. -/
def Term.redirect? : Term → Option String
  | redirect domain => some domain
  | _ => none

/-- Whether a word is read as a term. -/
def IsTerm (word : List Char) : Prop :=
  ∃ t, Term.ofWord word = .ok t

/-- The directive that a word is read as. -/
def directiveOf? (word : List Char) : Option Directive :=
  (Term.ofWord word).toOption.bind Term.directive?

/-- The domain to which a word redirects. -/
def redirectOf? (word : List Char) : Option String :=
  (Term.ofWord word).toOption.bind Term.redirect?

/-- Whether a word is read as a directive. -/
def IsDirective (word : List Char) : Prop :=
  (directiveOf? word).isSome = true

/-- The terms of a policy as they are written. -/
def writtenTerms? (text : String) : Option (List (List Char)) :=
  (Record.afterVersion? text.toList).map words

theorem isRecord_eq (text : String) : isRecord text = (writtenTerms? text).isSome :=
  Option.isSome_map.symm

variable {word : List Char} {t : Term}

theorem directiveOf?_of_ofWord (h : Term.ofWord word = .ok t) :
    directiveOf? word = t.directive? := by
  rw [directiveOf?, h]
  rfl

theorem redirectOf?_of_ofWord (h : Term.ofWord word = .ok t) :
    redirectOf? word = t.redirect? := by
  rw [redirectOf?, h]
  rfl

theorem redirectOf?_of_isDirective (h : IsDirective word) :
    redirectOf? word = none := by
  unfold IsDirective directiveOf? at h
  unfold redirectOf?
  cases hword : Term.ofWord word with
  | error fault => rfl
  | ok t =>
    rw [hword] at h
    cases t with
    | directive d => rfl
    | redirect domain => cases h
    | modifier => cases h

namespace Record

variable {r record : Record}

theorem toList_injective {a b : Option String} (h : a.toList = b.toList) : a = b := by
  cases a with
  | none => cases b with
    | none => rfl
    | some _ => cases h
  | some _ => cases b with
    | none => cases h
    | some _ => exact congrArg some (List.cons.inj h).1

theorem eq_of_toList_eq (hdirectives : record.directives = r.directives)
    (hredirect : record.redirect.toList = r.redirect.toList) : r = record := by
  obtain ⟨ds, redirect⟩ := r
  obtain ⟨ds', redirect'⟩ := record
  obtain rfl : ds' = ds := hdirectives
  obtain rfl : redirect' = redirect := toList_injective hredirect
  rfl

/-- There is no second redirect. -/
theorem toList_ne_cons_cons (o : Option String) (a b : String) (rest : List String) :
    o.toList ≠ a :: b :: rest := by
  cases o with
  | none => nofun
  | some _ => nofun

/-- **Terms are added to a policy** if each of them can be read, and no two redirect. -/
theorem addWords_eq_ok_iff {ws : List (List Char)} : r.addWords ws = .ok record ↔
    (∀ word ∈ ws, IsTerm word) ∧ record.directives = r.directives ++ ws.filterMap directiveOf? ∧
      record.redirect.toList = r.redirect.toList ++ ws.filterMap redirectOf? := by
  induction ws generalizing r with
  | nil =>
    rw [List.filterMap_nil, List.filterMap_nil, List.append_nil, List.append_nil]
    refine ⟨fun h => ?_, fun h => congrArg Except.ok (eq_of_toList_eq h.2.1 h.2.2)⟩
    obtain rfl := Except.ok.inj h
    exact ⟨nofun, rfl, rfl⟩
  | cons word ws ih =>
    rw [List.forall_mem_cons]
    cases hword : Term.ofWord word with
    | error fault =>
      refine iff_of_false (fun h => ?_) ?_
      · rw [addWords, hword] at h
        cases h
      · rintro ⟨⟨⟨t, ht⟩, -⟩, -⟩
        rw [hword] at ht
        cases ht
    | ok t =>
      have hadd : r.addWords (word :: ws) = (r.add t).bind fun r => r.addWords ws := by
        rw [addWords, hword]
        rfl
      have hterm : IsTerm word := ⟨t, hword⟩
      rw [hadd, List.filterMap_cons, List.filterMap_cons, directiveOf?_of_ofWord hword,
        redirectOf?_of_ofWord hword, and_iff_right hterm]
      cases t with
      | directive d =>
        show addWords { r with directives := r.directives ++ [d] } ws = .ok record ↔ _
        rw [ih, List.append_assoc]
        rfl
      | modifier => exact ih
      | redirect domain =>
        cases hredirect : r.redirect with
        | none =>
          have hone : r.add (.redirect domain) = .ok { r with redirect := some domain } := by
            rw [add, hredirect]
            rfl
          rw [hone]
          exact ih
        | some other =>
          have htwo : r.add (.redirect domain) = .error .duplicateRedirect := by
            rw [add, hredirect]
            rfl
          rw [htwo]
          exact iff_of_false nofun fun h => toList_ne_cons_cons record.redirect _ _ _ h.2.2

/-- Terms are added one after the other. -/
theorem addWords_append (r : Record) (ws ws' : List (List Char)) :
    r.addWords (ws ++ ws') = (r.addWords ws).bind fun r => r.addWords ws' := by
  induction ws generalizing r with
  | nil => rfl
  | cons word ws ih =>
    rw [List.cons_append, addWords, addWords]
    cases Term.ofWord word with
    | error fault => rfl
    | ok t =>
      show ((r.add t).bind fun r => r.addWords (ws ++ ws')) =
        ((r.add t).bind fun r => r.addWords ws).bind fun r => r.addWords ws'
      cases r.add t with
      | error fault => rfl
      | ok r => exact ih r

/-- A policy is read term by term. -/
theorem ofText_of_writtenTerms? {text : String} {ws : List (List Char)}
    (h : writtenTerms? text = some ws) : ofText text = empty.addWords ws := by
  obtain ⟨terms, hterms, rfl⟩ := Option.map_eq_some_iff.mp h
  rw [ofText, ofChars, hterms]

/-- **A policy is read as its terms are.** -/
theorem ofText_eq_ok_iff {text : String} : ofText text = .ok record ↔
    ∃ ws, writtenTerms? text = some ws ∧ (∀ word ∈ ws, IsTerm word) ∧
      record.directives = ws.filterMap directiveOf? ∧
      record.redirect.toList = ws.filterMap redirectOf? := by
  unfold ofText ofChars writtenTerms?
  cases afterVersion? text.toList with
  | none => exact iff_of_false nofun fun ⟨_, h, _⟩ => nomatch h
  | some terms =>
    refine addWords_eq_ok_iff.trans ⟨fun h => ⟨words terms, rfl, h⟩, ?_⟩
    rintro ⟨ws, hws, h⟩
    obtain rfl := Option.some.inj hws
    exact h

end Record

end MailScreen.Spf
