import MailScreen.Proofs.Text.Ascii
import MailScreen.Spf.Record
import Mathlib.Data.List.Forall2

/-!
# Exchanging qualifiers

The qualifiers `-`, `~` and `?` withhold a pass, each with an outcome of its own. A policy in which
some of them are exchanged for one another reads as the same policy up to these outcomes.

* `exchanged` compares two texts up to these three characters where a word begins; `TextExchanged`
  lets policies differ so, and no other texts.
* `Outcome.Alike` relates outcomes that are equal or both withhold a pass. `Directive.Alike`,
  `Term.Alike` and `Record.Alike` carry it to what is read from a text.
* `words_exchanged`: exchanged texts fall into the same words, up to the first character.
* `ofText_exchanged`: exchanged policies are both faulty, or are read as alike; and
  `isRecord_exchanged`: both are policies, or neither is.
-/

namespace MailScreen.Spf

open MailScreen.Text

/-! ## What is exchanged -/

/-- Whether an outcome withholds a pass and is not an error. -/
def Outcome.withholds : Outcome → Bool
  | fail | softFail | neutral => true
  | pass | none | tempError | permError => false

/-- The same outcome, or two that withhold a pass. -/
def Outcome.Alike (o o' : Outcome) : Prop :=
  o = o' ∨ o.withholds = true ∧ o'.withholds = true

theorem Outcome.Alike.refl (o : Outcome) : o.Alike o := Or.inl rfl

/-- Whether a character writes a qualifier that withholds a pass. -/
def isWithholding (c : Char) : Bool :=
  c == '-' || c == '~' || c == '?'

/-- Whether two texts are the same, but that where a word begins both may have characters that
write qualifiers that withhold a pass. At the beginning of the texts that is so only
if `wordBegins`. -/
def exchanged (wordBegins : Bool) : List Char → List Char → Bool
  | [], [] => true
  | c :: cs, c' :: cs' =>
    (c == c' || (wordBegins && isWithholding c && isWithholding c')) && exchanged (isBlank c) cs cs'
  | _, _ => false

/-- The same text, or a policy and the same policy with such qualifiers exchanged. -/
def TextExchanged (text text' : String) : Prop :=
  text = text' ∨ isRecord text = true ∧ exchanged false text.toList text'.toList = true

instance (text text' : String) : Decidable (TextExchanged text text') :=
  inferInstanceAs (Decidable (_ ∨ _))

/-! ## Texts -/

theorem exists_qualifier_of_isWithholding {c : Char} (h : isWithholding c = true) :
    ∃ q, Qualifier.ofSymbol? c = some q ∧ q.outcome.withholds = true := by
  simp only [isWithholding, Bool.or_eq_true, beq_iff_eq] at h
  rcases h with (rfl | rfl) | rfl
  · exact ⟨.fail, rfl, rfl⟩
  · exact ⟨.softFail, rfl, rfl⟩
  · exact ⟨.neutral, rfl, rfl⟩

theorem isBlank_of_isWithholding {c : Char} (h : isWithholding c = true) : isBlank c = false := by
  simp only [isWithholding, Bool.or_eq_true, beq_iff_eq] at h
  rcases h with (rfl | rfl) | rfl <;> rfl

theorem toLower_of_isWithholding {c : Char} (h : isWithholding c = true) : c.toLower = c := by
  simp only [isWithholding, Bool.or_eq_true, beq_iff_eq] at h
  rcases h with (rfl | rfl) | rfl <;> rfl

variable {wordBegins : Bool} {c c' : Char} {cs cs' : List Char}

theorem exchanged_cons_iff : exchanged wordBegins (c :: cs) (c' :: cs') = true ↔
    (c = c' ∨ wordBegins = true ∧ isWithholding c = true ∧ isWithholding c' = true) ∧
      exchanged (isBlank c) cs cs' = true := by
  rw [exchanged, Bool.and_eq_true, Bool.or_eq_true, beq_iff_eq, Bool.and_eq_true, Bool.and_eq_true,
    and_assoc]

theorem eq_nil_of_exchanged (h : exchanged wordBegins [] cs' = true) : cs' = [] := by
  cases cs' with
  | nil => rfl
  | cons c' cs' => cases h

theorem exists_cons_of_exchanged (h : exchanged wordBegins (c :: cs) cs' = true) :
    ∃ c' rest, cs' = c' :: rest := by
  cases cs' with
  | nil => cases h
  | cons c' cs' => exact ⟨c', cs', rfl⟩

/-- A character that is not exchanged stays. -/
theorem eq_of_exchanged_cons (hc : isWithholding c = false)
    (h : exchanged wordBegins (c :: cs) (c' :: cs') = true) : c = c' := by
  rcases (exchanged_cons_iff.mp h).1 with heq | ⟨-, hc', -⟩
  · exact heq
  · rw [hc] at hc'
    cases hc'

/-- Blanks stay where they are. -/
theorem isBlank_exchanged (h : exchanged wordBegins (c :: cs) (c' :: cs') = true) :
    isBlank c = isBlank c' := by
  rcases (exchanged_cons_iff.mp h).1 with rfl | ⟨-, hc, hc'⟩
  · rfl
  · rw [isBlank_of_isWithholding hc, isBlank_of_isWithholding hc']

theorem eq_of_exchanged (h : exchanged wordBegins cs cs' = true)
    (hcs : ∀ c ∈ cs, isWithholding c = false) : cs = cs' := by
  induction cs generalizing wordBegins cs' with
  | nil => exact (eq_nil_of_exchanged h).symm
  | cons c cs ih =>
    obtain ⟨c', rest, rfl⟩ := exists_cons_of_exchanged h
    obtain ⟨hc, hrest⟩ := List.forall_mem_cons.mp hcs
    rw [eq_of_exchanged_cons hc h, ih (exchanged_cons_iff.mp h).2 hrest]

theorem exchanged_take (h : exchanged wordBegins cs cs' = true) (n : Nat) :
    exchanged wordBegins (cs.take n) (cs'.take n) = true := by
  induction n generalizing wordBegins cs cs' with
  | zero => rfl
  | succ n ih =>
    cases cs with
    | nil =>
      obtain rfl := eq_nil_of_exchanged h
      rfl
    | cons c cs =>
      obtain ⟨c', rest, rfl⟩ := exists_cons_of_exchanged h
      obtain ⟨hc, hrest⟩ := exchanged_cons_iff.mp h
      exact exchanged_cons_iff.mpr ⟨hc, ih hrest⟩

theorem exchanged_drop (h : exchanged wordBegins cs cs' = true) (n : Nat) :
    ∃ wordBegins', exchanged wordBegins' (cs.drop n) (cs'.drop n) = true := by
  induction n generalizing wordBegins cs cs' with
  | zero => exact ⟨wordBegins, h⟩
  | succ n ih =>
    cases cs with
    | nil =>
      obtain rfl := eq_nil_of_exchanged h
      exact ⟨wordBegins, rfl⟩
    | cons c cs =>
      obtain ⟨c', rest, rfl⟩ := exists_cons_of_exchanged h
      exact ih (exchanged_cons_iff.mp h).2

theorem exchanged_dropWhile_isBlank (h : exchanged wordBegins cs cs' = true) :
    ∃ wordBegins', exchanged wordBegins' (cs.dropWhile isBlank) (cs'.dropWhile isBlank) = true := by
  induction cs generalizing wordBegins cs' with
  | nil =>
    obtain rfl := eq_nil_of_exchanged h
    exact ⟨wordBegins, rfl⟩
  | cons c cs ih =>
    obtain ⟨c', rest, rfl⟩ := exists_cons_of_exchanged h
    have hblank := isBlank_exchanged h
    rw [List.dropWhile_cons, List.dropWhile_cons, ← hblank]
    cases isBlank c with
    | true => exact ih (exchanged_cons_iff.mp h).2
    | false => exact ⟨wordBegins, h⟩

/-- The version of a policy has no character that is exchanged. -/
theorem not_isWithholding_of_version (h : eqIgnoreCase cs "v=spf1".toList = true) :
    ∀ c ∈ cs, isWithholding c = false := by
  intro c hc
  have hfixed : ∀ d ∈ lowerAscii "v=spf1".toList, isWithholding d = false :=
    forall_mem_of_all (by decide)
  have hversion : c.toLower ∈ lowerAscii "v=spf1".toList :=
    eqIgnoreCase_iff.mp h ▸ List.mem_map_of_mem hc
  cases hwithholding : isWithholding c with
  | false => rfl
  | true =>
    rw [toLower_of_isWithholding hwithholding] at hversion
    exact hwithholding.symm.trans (hfixed c hversion)

/-- Qualifiers that are exchanged come after the version. -/
theorem afterVersion?_exchanged (h : exchanged wordBegins cs cs' = true) {terms : List Char}
    (hterms : Record.afterVersion? cs = some terms) :
    ∃ terms' wordBegins', Record.afterVersion? cs' = some terms' ∧
      exchanged wordBegins' terms terms' = true := by
  obtain ⟨_, htext⟩ := exchanged_dropWhile_isBlank h
  obtain ⟨_, hdrop⟩ := exchanged_drop htext 6
  unfold Record.afterVersion? at hterms ⊢
  simp only at hterms ⊢
  split at hterms
  · rename_i hversion
    rw [← eq_of_exchanged (exchanged_take htext 6) (not_isWithholding_of_version hversion),
      if_pos hversion]
    cases hrest : (cs.dropWhile isBlank).drop 6 with
    | nil =>
      rw [hrest] at hterms hdrop
      rw [eq_nil_of_exchanged hdrop]
      obtain rfl := Option.some.inj hterms
      exact ⟨[], wordBegins, rfl, rfl⟩
    | cons c rest =>
      rw [hrest] at hterms hdrop
      obtain ⟨c', rest', hrest'⟩ := exists_cons_of_exchanged hdrop
      rw [hrest'] at hdrop ⊢
      simp only at hterms ⊢
      split at hterms
      · rename_i hspace
        subst hspace
        obtain rfl := eq_of_exchanged_cons rfl hdrop
        exact ⟨_, _, if_pos rfl, Option.some.inj hterms ▸ hdrop⟩
      · cases hterms
  · cases hterms

theorem isRecord_exchanged {text text' : String} (h : TextExchanged text text') :
    isRecord text = isRecord text' := by
  rcases h with rfl | ⟨hrecord, h⟩
  · rfl
  · obtain ⟨terms, hterms⟩ := Option.isSome_iff_exists.mp hrecord
    obtain ⟨terms', _, hterms', -⟩ := afterVersion?_exchanged h hterms
    rw [hrecord, isRecord, hterms', Option.isSome_some]

/-! ## Words -/

/-- The same word, or one that begins with another character of those that are exchanged. -/
inductive WordExchanged : List Char → List Char → Prop
  | same (word : List Char) : WordExchanged word word
  | exchange {q q' : Char} (hq : isWithholding q = true) (hq' : isWithholding q' = true)
      (word : List Char) : WordExchanged (q :: word) (q' :: word)

/-- In the first run nothing is exchanged unless a word begins with it. -/
theorem pieces_exchanged (h : exchanged wordBegins cs cs' = true) :
    ∃ run run' runs runs', pieces isBlank cs = run :: runs ∧ pieces isBlank cs' = run' :: runs' ∧
      (wordBegins = false → run = run') ∧ WordExchanged run run' ∧
      List.Forall₂ WordExchanged runs runs' := by
  induction cs generalizing wordBegins cs' with
  | nil =>
    obtain rfl := eq_nil_of_exchanged h
    exact ⟨[], [], [], [], rfl, rfl, fun _ => rfl, .same [], .nil⟩
  | cons c cs ih =>
    obtain ⟨c', rest, rfl⟩ := exists_cons_of_exchanged h
    obtain ⟨hc, hrest⟩ := exchanged_cons_iff.mp h
    obtain ⟨run, run', runs, runs', hcs, hcs', heq, hrun, hruns⟩ := ih hrest
    cases hblank : isBlank c with
    | true =>
      refine ⟨[], [], run :: runs, run' :: runs', ?_, ?_, fun _ => rfl, .same [], .cons hrun hruns⟩
      · rw [pieces_cons_of_pos hblank, hcs]
      · rw [pieces_cons_of_pos (isBlank_exchanged h ▸ hblank), hcs']
    | false =>
      -- within a word nothing is exchanged, so the rest of this one is the same
      obtain rfl := heq hblank
      refine ⟨c :: run, c' :: run, runs, runs', pieces_cons_of_neg hblank hcs,
        pieces_cons_of_neg (isBlank_exchanged h ▸ hblank) hcs', ?_, ?_, hruns⟩
      · rintro rfl
        rw [hc.resolve_right fun hbegins => Bool.false_ne_true hbegins.1]
      · rcases hc with rfl | ⟨-, hc, hc'⟩
        · exact .same (c :: run)
        · exact .exchange hc hc' run

/-- **Exchanged texts fall into the same words** up to what is exchanged. -/
theorem words_exchanged (h : exchanged wordBegins cs cs' = true) :
    List.Forall₂ WordExchanged (words cs) (words cs') := by
  obtain ⟨run, run', runs, runs', hcs, hcs', -, hrun, hruns⟩ := pieces_exchanged h
  rw [words, words, hcs, hcs']
  refine List.rel_filter (fun word word' hword => ?_) (.cons hrun hruns)
  cases hword with
  | same => exact Iff.rfl
  | exchange => exact Iff.rfl

/-! ## Policies -/

/-- Both results are values, and related, or both are errors, and related. -/
inductive Paired {ε α β : Type} (E : ε → ε → Prop) (R : α → β → Prop) :
    Except ε α → Except ε β → Prop
  | ok {a : α} {b : β} (h : R a b) : Paired E R (.ok a) (.ok b)
  | error {e e' : ε} (h : E e e') : Paired E R (.error e) (.error e')

theorem Paired.bind {ε α β α' β' : Type} {E : ε → ε → Prop} {R : α → β → Prop}
    {R' : α' → β' → Prop} {x : Except ε α} {y : Except ε β} {f : α → Except ε α'}
    {g : β → Except ε β'} (hx : Paired E R x y) (hf : ∀ a b, R a b → Paired E R' (f a) (g b)) :
    Paired E R' (x >>= f) (y >>= g) := by
  cases hx with
  | ok h => exact hf _ _ h
  | error h => exact .error h

/-- Any two faults are as good as each other. -/
def anyFault (_ _ : Fault) : Prop := True

theorem paired_refl {ε α : Type} {E : ε → ε → Prop} {R : α → α → Prop} (hE : ∀ e, E e e)
    (hR : ∀ a, R a a) (x : Except ε α) : Paired E R x x := by
  cases x with
  | ok a => exact .ok (hR a)
  | error e => exact .error (hE e)

/-- The same mechanism, with outcomes of a match that are alike. -/
structure Directive.Alike (d d' : Directive) : Prop where
  mechanism : d.mechanism = d'.mechanism
  outcome : d.qualifier.outcome.Alike d'.qualifier.outcome

theorem Directive.Alike.refl (d : Directive) : d.Alike d := ⟨rfl, .refl _⟩

/-- The same term but for directives, which are alike. -/
inductive Term.Alike : Term → Term → Prop
  | same (t : Term) : Alike t t
  | directive {d d' : Directive} (h : d.Alike d') : Alike (.directive d) (.directive d')

/-- The same redirect, and directives that are alike, one after the other. -/
structure Record.Alike (r r' : Record) : Prop where
  directives : List.Forall₂ Directive.Alike r.directives r'.directives
  redirect : r.redirect = r'.redirect

theorem Record.Alike.refl (r : Record) : r.Alike r :=
  ⟨List.forall₂_same.mpr fun d _ => .refl d, rfl⟩

/-- A word with such a character is a modifier without effect, a malformed term, or a directive that
withholds a pass. -/
theorem ofWord_of_isWithholding {q : Char} (hq : isWithholding q = true) (word : List Char) :
    ∃ k : Qualifier, k.outcome.withholds = true ∧ Term.ofWord (q :: word) =
      match cutFirst (· == '=') word with
      | some (name, _) =>
        if name.any fun c => c == ':' || c == '/' then
          .error (.malformedTerm (String.ofList (q :: word)))
        else .ok .modifier
      | none => (Mechanism.ofChars word).map fun m => .directive ⟨k, m⟩ := by
  obtain ⟨k, hk, hwithholds⟩ := exists_qualifier_of_isWithholding hq
  refine ⟨k, hwithholds, ?_⟩
  have hcases : (q == '=') = false ∧ (q == ':' || q == '/') = false ∧ q.toLower ≠ 'r' := by
    simp only [isWithholding, Bool.or_eq_true, beq_iff_eq] at hq
    rcases hq with (rfl | rfl) | rfl <;> decide
  obtain ⟨hequals, hmark, hredirect⟩ := hcases
  unfold Term.ofWord
  rw [cutFirst, hequals, if_neg Bool.false_ne_true]
  cases cutFirst (· == '=') word with
  | none =>
    simp only [Option.map_none]
    rw [Term.ofDirective, hk]
  | some parts =>
    have hname : lowerAscii (q :: parts.1) ≠ "redirect".toList :=
      fun heq => hredirect (List.cons.inj heq).1
    simp only [Option.map_some]
    rw [Term.ofModifier, List.any_cons, hmark, Bool.false_or, if_neg hname]

theorem ofWord_exchanged {word word' : List Char} (h : WordExchanged word word') :
    Paired anyFault Term.Alike (Term.ofWord word) (Term.ofWord word') := by
  cases h with
  | same => exact paired_refl (fun _ => trivial) Term.Alike.same _
  | exchange hq hq' word =>
    obtain ⟨k, hk, hword⟩ := ofWord_of_isWithholding hq word
    obtain ⟨k', hk', hword'⟩ := ofWord_of_isWithholding hq' word
    rw [hword, hword']
    split
    · split
      · exact .error trivial
      · exact .ok (.same _)
    · cases Mechanism.ofChars word with
      | ok m => exact .ok (.directive ⟨rfl, Or.inr ⟨hk, hk'⟩⟩)
      | error fault => exact .error trivial

theorem add_alike {r r' : Record} {t t' : Term} (hr : r.Alike r') (ht : t.Alike t') :
    Paired anyFault Record.Alike (r.add t) (r'.add t') := by
  cases ht with
  | directive hd =>
    exact .ok ⟨List.rel_append hr.directives (.cons hd .nil), hr.redirect⟩
  | same =>
    cases t with
    | directive d =>
      exact .ok ⟨List.rel_append hr.directives (.cons (.refl d) .nil), hr.redirect⟩
    | modifier => exact .ok hr
    | redirect domain =>
      unfold Record.add
      rw [← hr.redirect]
      cases r.redirect with
      | some _ => exact .error trivial
      | none => exact .ok ⟨hr.directives, rfl⟩

theorem addWords_alike {r r' : Record} {ws ws' : List (List Char)} (hr : r.Alike r')
    (hws : List.Forall₂ WordExchanged ws ws') :
    Paired anyFault Record.Alike (r.addWords ws) (r'.addWords ws') := by
  induction hws generalizing r r' with
  | nil => exact .ok hr
  | @cons word word' ws ws' hword _ ih =>
    unfold Record.addWords
    exact (ofWord_exchanged hword).bind fun t t' ht =>
      (add_alike hr ht).bind fun r r' hr => ih hr

/-- **Exchanged policies are read alike.** -/
theorem ofText_exchanged {text text' : String} (h : TextExchanged text text') :
    Paired anyFault Record.Alike (Record.ofText text) (Record.ofText text') := by
  rcases h with rfl | ⟨hrecord, h⟩
  · exact paired_refl (fun _ => trivial) Record.Alike.refl _
  · obtain ⟨terms, hterms⟩ := Option.isSome_iff_exists.mp hrecord
    obtain ⟨terms', _, hterms', hexchanged⟩ := afterVersion?_exchanged h hterms
    rw [Record.ofText, Record.ofText, Record.ofChars, Record.ofChars, hterms, hterms']
    exact addWords_alike (.refl _) (words_exchanged hexchanged)

end MailScreen.Spf
