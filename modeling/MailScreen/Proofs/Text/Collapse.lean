import MailScreen.Proofs.Text.Split

/-!
# Runs of blanks

`collapse` puts one space for every run of blanks. Texts that collapse to the same text differ in
their blanks only, and have blanks in the same places.

* `collapse_append_cons`, `collapse_reverse`: collapsing goes on both sides of a character that is
  not blank, and from either end.
* `cutLast_collapse`, `dropWhile_collapse`, `dropEndWhile_collapse`: so it commutes with cutting and
  dropping at characters that are not blank; `trim_collapse` is the same for the blanks at the ends.
* `words_collapse`: the words stay.
* `apply_trim`: what does not depend on one blank at the ends does not depend on trimming.
-/

namespace MailScreen.Text

/-- The text with one space for every run of blanks. -/
def collapse : List Char → List Char
  | [] => []
  | c :: cs =>
    if isBlank c then
      if cs.head?.any isBlank then collapse cs else ' ' :: collapse cs
    else c :: collapse cs

variable {c d : Char} {cs : List Char}

theorem collapse_nil : collapse [] = [] := rfl

theorem collapse_cons (c : Char) (cs : List Char) :
    collapse (c :: cs) =
      if isBlank c then
        if cs.head?.any isBlank then collapse cs else ' ' :: collapse cs
      else c :: collapse cs := rfl

theorem isBlank_space : isBlank ' ' = true := rfl

theorem collapse_cons_of_not (hc : isBlank c = false) (cs : List Char) :
    collapse (c :: cs) = c :: collapse cs := by
  rw [collapse_cons, if_neg (by simp [hc])]

theorem collapse_blank_blank (hc : isBlank c = true) (hd : isBlank d = true) (cs : List Char) :
    collapse (c :: d :: cs) = collapse (d :: cs) := by
  rw [collapse_cons, if_pos hc, if_pos (by simpa using hd)]

theorem collapse_blank_of_not (hc : isBlank c = true) (hcs : cs.head?.any isBlank = false) :
    collapse (c :: cs) = ' ' :: collapse cs := by
  rw [collapse_cons, if_pos hc, if_neg (by simp [hcs])]

/-- Which blank begins a text does not matter. -/
theorem collapse_blank_cons (hc : isBlank c = true) (hd : isBlank d = true) (cs : List Char) :
    collapse (c :: cs) = collapse (d :: cs) := by
  rw [collapse_cons, collapse_cons, if_pos hc, if_pos hd]

/-- The first character stays, but for the kind of blank. -/
theorem head?_collapse (cs : List Char) :
    (collapse cs).head? = cs.head?.map fun c => if isBlank c then ' ' else c := by
  induction cs with
  | nil => rfl
  | cons c cs ih =>
    cases hc : isBlank c with
    | false => rw [collapse_cons_of_not hc]; simp [hc]
    | true =>
      cases cs with
      | nil => simp [collapse_cons, collapse_nil, hc]
      | cons d cs =>
        cases hd : isBlank d with
        | false => rw [collapse_blank_of_not hc (by simpa using hd)]; simp [hc]
        | true => rw [collapse_blank_blank hc hd, ih]; simp [hc, hd]

theorem head?_any_collapse (cs : List Char) :
    (collapse cs).head?.any isBlank = cs.head?.any isBlank := by
  rw [head?_collapse]
  cases cs with
  | nil => rfl
  | cons c cs => cases hc : isBlank c <;> simp [hc, isBlank_space]

/-- Texts that collapse to the same text do so behind one more character. -/
theorem collapse_cons_congr (c : Char) {as bs : List Char} (h : collapse as = collapse bs) :
    collapse (c :: as) = collapse (c :: bs) := by
  have hhead : as.head?.any isBlank = bs.head?.any isBlank := by
    rw [← head?_any_collapse as, h, head?_any_collapse]
  rw [collapse_cons, collapse_cons, h, hhead]

theorem mem_of_mem_collapse (h : c ∈ collapse cs) : c = ' ' ∨ c ∈ cs := by
  induction cs with
  | nil => exact absurd h List.not_mem_nil
  | cons d cs ih =>
    have hrest : c ∈ collapse cs → c = ' ' ∨ c ∈ d :: cs := fun h =>
      (ih h).imp_right (List.mem_cons_of_mem d)
    rw [collapse_cons] at h
    split at h
    · split at h
      · exact hrest h
      · exact (List.mem_cons.mp h).elim Or.inl hrest
    · rcases List.mem_cons.mp h with rfl | h
      · exact Or.inr List.mem_cons_self
      · exact hrest h

theorem collapse_eq_nil_iff : collapse cs = [] ↔ cs = [] := by
  induction cs with
  | nil => exact Iff.rfl
  | cons c cs ih =>
    rw [collapse_cons]
    refine ⟨fun h => ?_, fun h => absurd h (List.cons_ne_nil c cs)⟩
    split at h
    · split at h
      · rename_i hcs
        rw [ih.mp h] at hcs
        exact absurd hcs (by simp)
      · exact absurd h (List.cons_ne_nil _ _)
    · exact absurd h (List.cons_ne_nil _ _)

theorem any_isBlank_collapse (cs : List Char) : (collapse cs).any isBlank = cs.any isBlank := by
  induction cs with
  | nil => rfl
  | cons c cs ih =>
    cases hc : isBlank c with
    | false => rw [collapse_cons_of_not hc, List.any_cons, List.any_cons, ih]
    | true =>
      cases hcs : cs.head?.any isBlank with
      | false =>
        rw [collapse_blank_of_not hc hcs, List.any_cons, List.any_cons, hc, isBlank_space]
        rfl
      | true =>
        rw [collapse_cons, if_pos hc, if_pos hcs, ih, List.any_cons, hc, Bool.true_or]
        cases cs with
        | nil => exact absurd hcs (by simp)
        | cons d cs => rw [List.any_cons, show isBlank d = true from hcs, Bool.true_or]

theorem collapse_eq_self (h : ∀ c ∈ cs, isBlank c = false) : collapse cs = cs := by
  induction cs with
  | nil => rfl
  | cons c cs ih =>
    rw [collapse_cons_of_not (h c List.mem_cons_self),
      ih fun d hd => h d (List.mem_cons_of_mem c hd)]

/-- **Collapsing goes on both sides of a character that is not blank.** -/
theorem collapse_append_cons (hd : isBlank d = false) (as bs : List Char) :
    collapse (as ++ d :: bs) = collapse as ++ d :: collapse bs := by
  induction as with
  | nil => exact collapse_cons_of_not hd bs
  | cons c as ih =>
    have hhead : isBlank c = true → (as ++ d :: bs).head?.any isBlank = as.head?.any isBlank := by
      intro _
      cases as with
      | nil => simp [hd]
      | cons a as => rfl
    cases hc : isBlank c with
    | false => rw [List.cons_append, collapse_cons_of_not hc, collapse_cons_of_not hc, ih]; rfl
    | true =>
      rw [List.cons_append, collapse_cons, collapse_cons, if_pos hc, if_pos hc, hhead hc, ih]
      split <;> rfl

/-- One more character at the end. -/
theorem collapse_concat (cs : List Char) (c : Char) :
    collapse (cs ++ [c]) =
      if isBlank c then if cs.getLast?.any isBlank then collapse cs else collapse cs ++ [' ']
      else collapse cs ++ [c] := by
  induction cs with
  | nil => rfl
  | cons d cs ih =>
    cases cs with
    | nil =>
      rw [List.cons_append, List.nil_append]
      cases hd : isBlank d <;> cases hc : isBlank c <;> simp [collapse_cons, collapse_nil, hc, hd]
    | cons e es =>
      have hlast : (d :: e :: es).getLast? = (e :: es).getLast? := List.getLast?_cons_cons
      rw [List.cons_append, collapse_cons, collapse_cons, ih, hlast]
      have hhead : (e :: es ++ [c]).head? = (e :: es).head? := rfl
      rw [hhead]
      repeat' split
      all_goals rfl

/-- **Collapsing goes from either end.** -/
theorem collapse_reverse (cs : List Char) : collapse cs.reverse = (collapse cs).reverse := by
  induction cs with
  | nil => rfl
  | cons c cs ih =>
    rw [List.reverse_cons, collapse_concat, List.getLast?_reverse, ih, collapse_cons]
    split
    · split
      · rfl
      · rw [List.reverse_cons]
    · rw [List.reverse_cons]

/-! ## Dropping -/

theorem dropWhile_isBlank_collapse (cs : List Char) :
    (collapse cs).dropWhile isBlank = collapse (cs.dropWhile isBlank) := by
  induction cs with
  | nil => rfl
  | cons c cs ih =>
    cases hc : isBlank c with
    | false =>
      rw [collapse_cons_of_not hc, List.dropWhile_cons_of_neg (by simp [hc]),
        List.dropWhile_cons_of_neg (by simp [hc]), collapse_cons_of_not hc]
    | true =>
      rw [List.dropWhile_cons_of_pos hc, ← ih]
      cases hcs : cs.head?.any isBlank with
      | false => rw [collapse_blank_of_not hc hcs, List.dropWhile_cons_of_pos isBlank_space]
      | true => rw [collapse_cons, if_pos hc, if_pos hcs]

variable {p : Char → Bool} (hp : ∀ c, p c = true → isBlank c = false)

include hp

theorem not_of_isBlank (hc : isBlank c = true) : p c = false := by
  rw [← Bool.not_eq_true]
  intro h
  rw [hp c h] at hc
  exact Bool.false_ne_true hc

theorem dropWhile_collapse (cs : List Char) :
    (collapse cs).dropWhile p = collapse (cs.dropWhile p) := by
  induction cs with
  | nil => rfl
  | cons c cs ih =>
    cases hc : p c with
    | true =>
      rw [collapse_cons_of_not (hp c hc), List.dropWhile_cons_of_pos hc,
        List.dropWhile_cons_of_pos hc, ih]
    | false =>
      rw [List.dropWhile_cons_of_neg (by simp [hc])]
      apply dropWhile_eq_self
      intro d hd
      rw [head?_collapse] at hd
      obtain rfl : (if isBlank c then ' ' else c) = d := by simpa using hd
      split
      · exact not_of_isBlank hp isBlank_space
      · exact hc

theorem dropEndWhile_collapse (cs : List Char) :
    dropEndWhile p (collapse cs) = collapse (dropEndWhile p cs) := by
  rw [dropEndWhile, dropEndWhile, ← collapse_reverse, dropWhile_collapse hp, collapse_reverse]

theorem cutLast_collapse (cs : List Char) :
    cutLast p (collapse cs) = (cutLast p cs).map fun (a, b) => (collapse a, collapse b) := by
  cases hcut : cutLast p cs with
  | none =>
    apply cutLast_eq_none
    intro c hc
    rcases mem_of_mem_collapse hc with rfl | hc
    · exact not_of_isBlank hp isBlank_space
    · exact cutLast_eq_none_iff.mp hcut c hc
  | some ab =>
    obtain ⟨x, hx, hb, rfl⟩ := cutLast_eq_some_iff.mp hcut
    rw [collapse_append_cons (hp x hx)]
    apply cutLast_append_cons hx
    intro c hc
    rcases mem_of_mem_collapse hc with rfl | hc
    · exact not_of_isBlank hp isBlank_space
    · exact hb c hc

omit hp

theorem trim_collapse (cs : List Char) : trim (collapse cs) = collapse (trim cs) := by
  rw [trim, trim, dropAround, dropAround, dropEndWhile, dropEndWhile, dropWhile_isBlank_collapse,
    ← collapse_reverse, dropWhile_isBlank_collapse, collapse_reverse]

/-! ## Words -/

/-- The first run without blanks stays, and so do all that are not empty. -/
theorem pieces_collapse (cs : List Char) : ∃ run runs runs',
    pieces isBlank cs = run :: runs ∧ pieces isBlank (collapse cs) = run :: runs' ∧
      runs.filter (! ·.isEmpty) = runs'.filter (! ·.isEmpty) := by
  induction cs with
  | nil => exact ⟨[], [], [], rfl, rfl, rfl⟩
  | cons c cs ih =>
    obtain ⟨run, runs, runs', hcs, hcoll, hfilter⟩ := ih
    cases hc : isBlank c with
    | false =>
      rw [collapse_cons_of_not hc]
      exact ⟨c :: run, runs, runs', pieces_cons_of_neg hc hcs, pieces_cons_of_neg hc hcoll, hfilter⟩
    | true =>
      refine ⟨[], run :: runs, ?_⟩
      rw [pieces_cons_of_pos hc, hcs]
      cases hhead : cs.head?.any isBlank with
      | false =>
        refine ⟨run :: runs', rfl, ?_, ?_⟩
        · rw [collapse_blank_of_not hc hhead, pieces_cons_of_pos isBlank_space, hcoll]
        · rw [List.filter_cons, List.filter_cons, hfilter]
      | true =>
        -- the run that ends here is empty, since another blank follows
        obtain rfl : run = [] := by
          cases cs with
          | nil => exact absurd hhead (by simp)
          | cons d cs =>
            rw [pieces_cons_of_pos (show isBlank d = true from hhead)] at hcs
            exact (List.cons.inj hcs).1.symm
        refine ⟨runs', rfl, ?_, ?_⟩
        · rw [collapse_cons, if_pos hc, if_pos hhead, hcoll]
        · rw [List.filter_cons, if_neg (by simp), hfilter]

/-- **The words stay.** -/
theorem words_collapse (cs : List Char) : words (collapse cs) = words cs := by
  obtain ⟨run, runs, runs', hcs, hcoll, hfilter⟩ := pieces_collapse cs
  rw [words, words, hcs, hcoll, List.filter_cons, List.filter_cons, hfilter]

theorem words_blank_cons (hc : isBlank c = true) (cs : List Char) : words (c :: cs) = words cs := by
  rw [words, words, pieces_cons_of_pos hc, List.filter_cons, if_neg (by simp)]

theorem words_concat_blank (hc : isBlank c = true) (cs : List Char) :
    words (cs ++ [c]) = words cs := by
  rw [words, words, pieces_append_cons hc, List.filter_append]
  simp [pieces]

/-! ## Blanks at the ends -/

/-- **What does not depend on one blank at either end** does not depend on trimming. -/
theorem apply_trim {β : Type} {f : List Char → β}
    (hhead : ∀ c cs, isBlank c = true → f (c :: cs) = f cs)
    (hlast : ∀ c cs, isBlank c = true → f (cs ++ [c]) = f cs) (cs : List Char) :
    f (trim cs) = f cs := by
  have hdrop : ∀ cs : List Char, f (cs.dropWhile isBlank) = f cs := by
    intro cs
    induction cs with
    | nil => rfl
    | cons c cs ih =>
      cases hc : isBlank c with
      | false => rw [List.dropWhile_cons_of_neg (by simp [hc])]
      | true => rw [List.dropWhile_cons_of_pos hc, ih, hhead c cs hc]
  have hend : ∀ cs : List Char, f (cs.dropWhile isBlank).reverse = f cs.reverse := by
    intro cs
    induction cs with
    | nil => rfl
    | cons c cs ih =>
      cases hc : isBlank c with
      | false => rw [List.dropWhile_cons_of_neg (by simp [hc])]
      | true => rw [List.dropWhile_cons_of_pos hc, ih, List.reverse_cons, hlast c _ hc]
  rw [trim, dropAround, dropEndWhile, hend, List.reverse_reverse, hdrop]

end MailScreen.Text
