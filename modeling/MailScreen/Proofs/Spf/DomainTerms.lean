import MailScreen.Proofs.Spf.Terms
import MailScreen.Proofs.Text.Split
import MailScreen.Spf.Macro

/-!
# Terms about a domain

Names of domains are written with macros, in `include` and `exists` as in `redirect`. The reader of
policies does not look into them: it takes what stands behind the colon, or behind the equals sign,
as it is. There is one exception. A term with an equals sign is a modifier, whose name ends at the
first of these signs; so a name with an equals sign cannot stand behind a colon, although macros can
cut values at that character.

* `ofWord_domain` and `ofWord_domain_of_mem` say what `include` and `exists` are read as,
  `ofWord_redirect` what a redirect is.
* `ofText_domain` is the result for a policy with such a term among others.
-/

namespace MailScreen.Spf

open MailScreen.Text

/-- The mechanisms that need a domain, and what is written before it. -/
def domainMechanisms : List (String × (String → Mechanism)) :=
  [("include:", .included), ("exists:", .existing)]

variable {start s : String} {mechanism : String → Mechanism}

/-! ## Single terms -/

theorem mem_domainMechanisms_iff : (start, mechanism) ∈ domainMechanisms ↔
    start = "include:" ∧ mechanism = .included ∨ start = "exists:" ∧ mechanism = .existing := by
  simp [domainMechanisms]

theorem colon_mem_of_mem_domainMechanisms (h : (start, mechanism) ∈ domainMechanisms) :
    '=' ∉ start.toList ∧ ':' ∈ start.toList := by
  obtain ⟨rfl, -⟩ | ⟨rfl, -⟩ := mem_domainMechanisms_iff.mp h
  · simp
  · simp

/-- What stands behind the colon is the domain. -/
theorem ofDirective_domain (h : (start, mechanism) ∈ domainMechanisms) (hs : s ≠ "") :
    Term.ofDirective (start ++ s).toList = .ok (.directive ⟨.pass, mechanism s⟩) := by
  obtain ⟨c, cs, hcs⟩ := List.exists_cons_of_ne_nil (String.toList_eq_nil_iff.not.mpr hs)
  obtain rfl : s = String.ofList (c :: cs) := by rw [← hcs, String.ofList_toList]
  rw [String.toList_append, String.toList_ofList]
  obtain ⟨rfl, rfl⟩ | ⟨rfl, rfl⟩ := mem_domainMechanisms_iff.mp h
  · rfl
  · rfl

/-- **Without an equals sign** a domain is taken as it is. -/
theorem ofWord_domain (h : (start, mechanism) ∈ domainMechanisms) (hs : s ≠ "")
    (heq : '=' ∉ s.toList) :
    Term.ofWord (start ++ s).toList = .ok (.directive ⟨.pass, mechanism s⟩) := by
  have hplain : '=' ∉ (start ++ s).toList := by
    simp [(colon_mem_of_mem_domainMechanisms h).1, heq]
  rw [Term.ofWord, cutFirst_eq_none (beq_false_of_not_mem hplain)]
  exact ofDirective_domain h hs

/-- **With an equals sign** the term is taken for a modifier, whose name holds a colon. -/
theorem ofWord_domain_of_mem (h : (start, mechanism) ∈ domainMechanisms) (heq : '=' ∈ s.toList) :
    Term.ofWord (start ++ s).toList = .error (.malformedTerm (start ++ s)) := by
  obtain ⟨hplain, hcolon⟩ := colon_mem_of_mem_domainMechanisms h
  obtain ⟨a, b, hs, ha⟩ := List.eq_append_cons_of_mem heq
  have hcut : cutFirst (· == '=') (start ++ s).toList = some (start.toList ++ a, b) := by
    rw [String.toList_append, hs, ← List.append_assoc]
    exact cutFirst_append_cons rfl (beq_false_of_not_mem (by simp [hplain, ha])) b
  have hmark : (start.toList ++ a).any (fun c => c == ':' || c == '/') = true :=
    List.any_eq_true.mpr ⟨':', List.mem_append_left a hcolon, rfl⟩
  rw [Term.ofWord, hcut]
  show Term.ofModifier _ _ _ = _
  rw [Term.ofModifier, if_pos hmark, String.ofList_toList]

theorem ofWord_redirect (s : String) :
    Term.ofWord ("redirect=" ++ s).toList = .ok (.redirect s) := by
  have hplain : '=' ∉ "redirect".toList := by simp
  have hcut : cutFirst (· == '=') ("redirect=" ++ s).toList =
      some ("redirect".toList, s.toList) := by
    rw [String.toList_append]
    exact cutFirst_append_cons (x := '=') rfl (beq_false_of_not_mem hplain) s.toList
  rw [Term.ofWord, hcut]
  show Term.ofModifier _ _ _ = _
  rw [Term.ofModifier, if_neg (by decide), if_pos (by decide), String.ofList_toList]

/-! ## A term among others -/

section Insert

variable {before after : List (List Char)} {word : List Char} {record : Record}
  (hothers : Record.empty.addWords (before ++ after) = .ok record)

include hothers

/-- A term more that can be read leaves the others what they are. -/
theorem isTerm_insert (hword : IsTerm word) : ∀ w ∈ before ++ word :: after, IsTerm w := by
  have hterms := (Record.addWords_eq_ok_iff.mp hothers).1
  rw [List.forall_mem_append] at hterms
  rw [List.forall_mem_append, List.forall_mem_cons]
  exact ⟨hterms.1, hword, hterms.2⟩

theorem addWords_insert_directive {d : Directive} (hword : Term.ofWord word = .ok (.directive d)) :
    Record.empty.addWords (before ++ word :: after) = .ok { record with
      directives := before.filterMap directiveOf? ++ d :: after.filterMap directiveOf? } := by
  have hredirects := (Record.addWords_eq_ok_iff.mp hothers).2.2
  refine Record.addWords_eq_ok_iff.mpr ⟨isTerm_insert hothers ⟨_, hword⟩, ?_, ?_⟩
  · rw [List.filterMap_append, List.filterMap_cons_some (directiveOf?_of_ofWord hword)]
    rfl
  · rw [hredirects, List.filterMap_append, List.filterMap_append,
      List.filterMap_cons_none (redirectOf?_of_ofWord hword)]

theorem addWords_insert_redirect {domain : String} (hnone : record.redirect = none)
    (hword : Term.ofWord word = .ok (.redirect domain)) :
    Record.empty.addWords (before ++ word :: after) =
      .ok { record with redirect := some domain } := by
  obtain ⟨-, hdirectives, hredirects⟩ := Record.addWords_eq_ok_iff.mp hothers
  refine Record.addWords_eq_ok_iff.mpr ⟨isTerm_insert hothers ⟨_, hword⟩, ?_, ?_⟩
  · rw [hdirectives, List.filterMap_append, List.filterMap_append,
      List.filterMap_cons_none (directiveOf?_of_ofWord hword)]
  · have hnil : (before ++ after).filterMap redirectOf? = [] := by
      rw [hnone] at hredirects
      exact hredirects.symm
    obtain ⟨hbefore, hafter⟩ := List.append_eq_nil_iff.mp (List.filterMap_append ▸ hnil)
    rw [List.filterMap_append, List.filterMap_cons_some (redirectOf?_of_ofWord hword), hbefore,
      hafter]
    rfl

/-- A term that cannot be read is the first of its kind. -/
theorem addWords_insert_error {fault : Fault} (hword : Term.ofWord word = .error fault) :
    Record.empty.addWords (before ++ word :: after) = .error fault := by
  rw [Record.addWords_append] at hothers ⊢
  cases hbefore : Record.empty.addWords before with
  | error fault =>
    rw [hbefore] at hothers
    cases hothers
  | ok r =>
    show r.addWords (word :: after) = .error fault
    rw [Record.addWords, hword]
    rfl

end Insert

/-- **A policy with a term about a domain**, among others that make a policy on their own. The
domain of a redirect is taken as it is. That of an `include` or an `exists` is so too if it holds no
equals sign, and otherwise the term is malformed. -/
theorem ofText_domain (hs : s ≠ "") {before after : List (List Char)} {record : Record}
    (hothers : Record.empty.addWords (before ++ after) = .ok record) :
    (∀ start mechanism text, (start, mechanism) ∈ domainMechanisms →
      writtenTerms? text = some (before ++ (start ++ s).toList :: after) →
        Record.ofText text =
          if '=' ∈ s.toList then .error (.malformedTerm (start ++ s))
          else .ok { record with directives := before.filterMap directiveOf? ++
            ⟨.pass, mechanism s⟩ :: after.filterMap directiveOf? }) ∧
    (∀ text, record.redirect = none →
      writtenTerms? text = some (before ++ ("redirect=" ++ s).toList :: after) →
        Record.ofText text = .ok { record with redirect := some s }) := by
  refine ⟨fun start mechanism text hstart hwritten => ?_, fun text hnone hwritten => ?_⟩
  · rw [Record.ofText_of_writtenTerms? hwritten]
    by_cases heq : '=' ∈ s.toList
    · rw [if_pos heq]
      exact addWords_insert_error hothers (ofWord_domain_of_mem hstart heq)
    · rw [if_neg heq]
      exact addWords_insert_directive hothers (ofWord_domain hstart hs heq)
  · rw [Record.ofText_of_writtenTerms? hwritten]
    exact addWords_insert_redirect hothers hnone (ofWord_redirect s)

/-- Macros that cut at hyphens, in each of the three terms, between a mechanism and another. -/
theorem ofText_domain_macros :
    let s := "%\x7bl1r-\x7d.a.com"
    let others : Record := ⟨[⟨.pass, .address none .whole⟩, ⟨.fail, .all⟩], none⟩
    s ≠ "" ∧ Record.empty.addWords (["a".toList] ++ ["-all".toList]) = .ok others ∧
      Record.ofText "v=spf1 a include:%\x7bl1r-\x7d.a.com -all" =
        .ok ⟨[⟨.pass, .address none .whole⟩, ⟨.pass, .included s⟩, ⟨.fail, .all⟩], none⟩ ∧
      Record.ofText "v=spf1 a exists:%\x7bl1r-\x7d.a.com -all" =
        .ok ⟨[⟨.pass, .address none .whole⟩, ⟨.pass, .existing s⟩, ⟨.fail, .all⟩], none⟩ ∧
      Record.ofText "v=spf1 a redirect=%\x7bl1r-\x7d.a.com -all" =
        .ok { others with redirect := some s } := by
  have hs : "%\x7bl1r-\x7d.a.com" ≠ "" := by decide
  have hothers : Record.empty.addWords (["a".toList] ++ ["-all".toList]) =
      .ok ⟨[⟨.pass, .address none .whole⟩, ⟨.fail, .all⟩], none⟩ := by decide +kernel
  obtain ⟨hmechanisms, hredirect⟩ := ofText_domain hs hothers
  refine ⟨hs, hothers, ?_, ?_, hredirect _ rfl (by decide +kernel)⟩
  · exact hmechanisms "include:" _ _ List.mem_cons_self (by decide +kernel)
  · exact hmechanisms "exists:" _ _ (.tail _ List.mem_cons_self) (by decide +kernel)

/-- **A name that macros can expand is not always one that can be included**: the macro cuts the
domain at equals signs, and the term is malformed. -/
theorem ofText_include_cut_at_equals :
    (⟨.v4 0xCB007105, "alice", "a.com", "mx.a.com", "a.com"⟩ : Facts).expand? "%\x7bd=\x7d" =
        some "a.com" ∧
      Record.ofText "v=spf1 -all" = .ok ⟨[⟨.fail, .all⟩], none⟩ ∧
      Record.ofText "v=spf1 include:%\x7bd=\x7d -all" =
        .error (.malformedTerm "include:%\x7bd=\x7d") := by
  refine ⟨?_, ?_, ?_⟩
  all_goals decide +kernel

end MailScreen.Spf
