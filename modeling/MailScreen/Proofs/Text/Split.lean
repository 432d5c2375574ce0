import MailScreen.Text.Blank
import Mathlib.Data.List.DropRight

/-!
# Cutting and joining

What cutting does to a text that is put together from parts.

* `pieces_append_cons`: the pieces of two texts with a separator between them are those of the two
  texts, one after the other; `pieces_intercalate` is the same for any number of parts, and
  `intercalate_pieces_self` joins the pieces again. `mem_of_mem_intercalate` says what a joined text
  holds.
* `cutFirst_append_cons`, `cutLast_eq_some_iff`: the cut is made at the first, at the last
  separator.
* `dropEndWhile_append_of_last`: what is dropped at the end depends on what stands behind the last
  element that stays.
* `trim_eq_self`: a text without blanks at its ends is left alone; `exists_eq_trim`: every text is
  what is left of it between blanks.
-/

namespace MailScreen.Text

universe u

variable {α : Type u} {p : α → Bool}

/-! ## Pieces -/

theorem pieces_cons_of_pos {x : α} (hx : p x = true) (xs : List α) :
    pieces p (x :: xs) = [] :: pieces p xs := by
  rw [pieces, if_pos hx]

theorem pieces_cons_of_neg {x : α} (hx : p x = false) {xs run : List α} {runs : List (List α)}
    (h : pieces p xs = run :: runs) : pieces p (x :: xs) = (x :: run) :: runs := by
  rw [pieces, if_neg (by simp [hx]), h]

/-- **Cutting at a separator.** All else about `pieces` follows from this equation. -/
theorem pieces_append_cons {x : α} (hx : p x = true) (a b : List α) :
    pieces p (a ++ x :: b) = pieces p a ++ pieces p b := by
  induction a with
  | nil => exact pieces_cons_of_pos hx b
  | cons y a ih =>
    cases hy : p y with
    | true =>
      rw [List.cons_append, pieces_cons_of_pos hy, pieces_cons_of_pos hy, ih, List.cons_append]
    | false =>
      obtain ⟨run, runs, h⟩ := List.exists_cons_of_ne_nil (pieces_ne_nil p a)
      rw [h, List.cons_append] at ih
      rw [List.cons_append, pieces_cons_of_neg hy ih, pieces_cons_of_neg hy h, List.cons_append]

theorem pieces_eq_singleton {a : List α} (h : ∀ y ∈ a, p y = false) : pieces p a = [a] := by
  induction a with
  | nil => rfl
  | cons y a ih =>
    have hrest := ih fun z hz => h z (List.mem_cons_of_mem y hz)
    exact pieces_cons_of_neg (h y List.mem_cons_self) hrest

/-- A piece holds elements of the text, and no separator. -/
theorem mem_of_mem_pieces {xs run : List α} (h : run ∈ pieces p xs) :
    ∀ y ∈ run, y ∈ xs ∧ p y = false := by
  induction xs generalizing run with
  | nil =>
    obtain rfl : run = [] := by simpa [pieces] using h
    simp
  | cons x xs ih =>
    intro y hy
    cases hx : p x with
    | true =>
      rw [pieces_cons_of_pos hx, List.mem_cons] at h
      rcases h with rfl | h
      · simp at hy
      · exact ⟨List.mem_cons_of_mem x (ih h y hy).1, (ih h y hy).2⟩
    | false =>
      obtain ⟨first, runs, hxs⟩ := List.exists_cons_of_ne_nil (pieces_ne_nil p xs)
      rw [pieces_cons_of_neg hx hxs, List.mem_cons] at h
      rcases h with rfl | h
      · rcases List.mem_cons.mp hy with rfl | hy
        · exact ⟨List.mem_cons_self, hx⟩
        · have := ih (by rw [hxs]; exact List.mem_cons_self) y hy
          exact ⟨List.mem_cons_of_mem x this.1, this.2⟩
      · have := ih (by rw [hxs]; exact List.mem_cons_of_mem first h) y hy
        exact ⟨List.mem_cons_of_mem x this.1, this.2⟩

/-- A piece without its final element of one kind still holds no separator. -/
theorem not_mem_of_mem_map_dropFinal [BEq α] [LawfulBEq α] {x y : α} {xs run : List α}
    (h : run ∈ (pieces (· == x) xs).map (dropFinal y)) : x ∉ run := by
  obtain ⟨piece, hpiece, rfl⟩ := List.mem_map.mp h
  have hplain : x ∉ piece := fun hmem => by simpa using (mem_of_mem_pieces hpiece x hmem).2
  unfold dropFinal
  split
  · exact fun hmem => hplain (List.dropLast_subset piece hmem)
  · exact hplain

/-- Parts joined by a separator are the pieces of the whole. -/
theorem pieces_intercalate {x : α} (hx : p x = true) :
    ∀ {parts : List (List α)}, parts ≠ [] → (∀ part ∈ parts, ∀ y ∈ part, p y = false) →
      pieces p ([x].intercalate parts) = parts
  | [], h, _ => absurd rfl h
  | [part], _, h => by
    simpa using pieces_eq_singleton (h part List.mem_cons_self)
  | part :: next :: parts, _, h => by
    have ih := pieces_intercalate hx (List.cons_ne_nil next parts)
      fun q hq => h q (List.mem_cons_of_mem part hq)
    rw [List.intercalate_cons_cons, List.append_assoc, List.singleton_append,
      pieces_append_cons hx, ih, pieces_eq_singleton (h part List.mem_cons_self)]
    rfl

/-- Around one of some joined parts, the others each have their separator. -/
theorem intercalate_append_cons (x : α) (front : List (List α)) (part : List α)
    (back : List (List α)) : [x].intercalate (front ++ part :: back) =
      front.flatMap (· ++ [x]) ++ part ++ back.flatMap (x :: ·) := by
  induction front generalizing part with
  | nil =>
    induction back generalizing part with
    | nil => simp
    | cons next back ih =>
      rw [List.nil_append, List.intercalate_cons_cons, ← List.nil_append (next :: back), ih]
      simp
  | cons first front ih =>
    obtain ⟨next, rest, hnext⟩ := List.exists_cons_of_ne_nil
      (List.append_ne_nil_of_right_ne_nil front (List.cons_ne_nil part back))
    rw [List.cons_append, hnext, List.intercalate_cons_cons, ← hnext, ih]
    simp

/-- **The pieces of a text, joined again**, are the text. -/
theorem intercalate_pieces_self [BEq α] [LawfulBEq α] (x : α) (xs : List α) :
    [x].intercalate (pieces (· == x) xs) = xs := by
  induction xs with
  | nil => simp [pieces]
  | cons y xs ih =>
    obtain ⟨run, runs, hxs⟩ := List.exists_cons_of_ne_nil (pieces_ne_nil (· == x) xs)
    rw [hxs] at ih
    by_cases hy : (y == x) = true
    · rw [pieces_cons_of_pos (p := (· == x)) hy, hxs, List.intercalate_cons_cons, ih, eq_of_beq hy]
      rfl
    · rw [pieces_cons_of_neg (p := (· == x)) (Bool.eq_false_iff.mpr hy) hxs]
      cases runs with
      | nil => simpa using ih
      | cons next runs =>
        rw [List.intercalate_cons_cons] at ih ⊢
        simpa using ih

/-- What is joined holds elements of the parts and of the separator. -/
theorem mem_of_mem_intercalate {separator : List α} {x : α} :
    ∀ {parts : List (List α)}, x ∈ separator.intercalate parts →
      x ∈ separator ∨ ∃ part ∈ parts, x ∈ part
  | [], h => by simp at h
  | [part], h => by
    rw [List.intercalate_singleton] at h
    exact Or.inr ⟨part, List.mem_cons_self, h⟩
  | part :: next :: parts, h => by
    rw [List.intercalate_cons_cons, List.mem_append, List.mem_append] at h
    rcases h with (h | h) | h
    · exact Or.inr ⟨part, List.mem_cons_self, h⟩
    · exact Or.inl h
    · rcases mem_of_mem_intercalate h with h | ⟨q, hq, h⟩
      · exact Or.inl h
      · exact Or.inr ⟨q, List.mem_cons_of_mem part hq, h⟩

/-! ## One cut -/

theorem cutFirst_append_cons {x : α} (hx : p x = true) {a : List α} (ha : ∀ y ∈ a, p y = false)
    (b : List α) : cutFirst p (a ++ x :: b) = some (a, b) := by
  induction a with
  | nil => rw [List.nil_append, cutFirst, if_pos hx]
  | cons y a ih =>
    have hy := ha y List.mem_cons_self
    rw [List.cons_append, cutFirst, if_neg (by simp [hy]),
      ih fun z hz => ha z (List.mem_cons_of_mem y hz)]
    rfl

theorem cutFirst_eq_none {xs : List α} (h : ∀ y ∈ xs, p y = false) : cutFirst p xs = none := by
  induction xs with
  | nil => rfl
  | cons x xs ih =>
    rw [cutFirst, if_neg (by simp [h x List.mem_cons_self]),
      ih fun y hy => h y (List.mem_cons_of_mem x hy)]
    rfl

theorem cutLast_eq_none {xs : List α} (h : ∀ y ∈ xs, p y = false) : cutLast p xs = none := by
  induction xs with
  | nil => rfl
  | cons x xs ih =>
    rw [cutLast, ih fun y hy => h y (List.mem_cons_of_mem x hy)]
    simp [h x List.mem_cons_self]

theorem cutLast_append_cons {x : α} (hx : p x = true) (a : List α) {b : List α}
    (hb : ∀ y ∈ b, p y = false) : cutLast p (a ++ x :: b) = some (a, b) := by
  induction a with
  | nil => rw [List.nil_append, cutLast, cutLast_eq_none hb]; simp [hx]
  | cons y a ih => rw [List.cons_append, cutLast, ih]

theorem cutLast_ne_none {x : α} (hx : p x = true) (a b : List α) :
    cutLast p (a ++ x :: b) ≠ none := by
  induction a with
  | nil =>
    rw [List.nil_append, cutLast]
    cases cutLast p b <;> simp [hx]
  | cons y a ih =>
    obtain ⟨ab, h⟩ := Option.ne_none_iff_exists'.mp ih
    rw [List.cons_append, cutLast, h]
    simp

theorem cutLast_eq_none_iff {xs : List α} : cutLast p xs = none ↔ ∀ y ∈ xs, p y = false := by
  refine ⟨fun h y hy => ?_, cutLast_eq_none⟩
  cases hpy : p y with
  | false => rfl
  | true =>
    obtain ⟨l, r, rfl⟩ := List.append_of_mem hy
    exact absurd h (cutLast_ne_none hpy l r)

/-- **The last cut**: what stands after it holds no separator. -/
theorem cutLast_eq_some_iff {xs a b : List α} :
    cutLast p xs = some (a, b) ↔ ∃ x, p x = true ∧ (∀ y ∈ b, p y = false) ∧ xs = a ++ x :: b := by
  constructor
  · intro h
    induction xs generalizing a with
    | nil => simp [cutLast] at h
    | cons x xs ih =>
      rw [cutLast] at h
      cases hc : cutLast p xs with
      | some ab =>
        obtain ⟨a', b'⟩ := ab
        simp only [hc, Option.some.injEq, Prod.mk.injEq] at h
        obtain ⟨rfl, rfl⟩ := h
        obtain ⟨y, hy, hb, rfl⟩ := ih hc
        exact ⟨y, hy, hb, rfl⟩
      | none =>
        simp only [hc] at h
        split at h
        · rename_i hx
          obtain ⟨rfl, rfl⟩ := Prod.mk.inj (Option.some.inj h)
          exact ⟨x, hx, cutLast_eq_none_iff.mp hc, rfl⟩
        · simp at h
  · rintro ⟨x, hx, hb, rfl⟩
    exact cutLast_append_cons hx a hb

theorem cutLast_cons_of_not {x : α} (hx : p x = false) (xs : List α) :
    cutLast p (x :: xs) = (cutLast p xs).map fun (a, b) => (x :: a, b) := by
  rw [cutLast]
  cases cutLast p xs with
  | none => rw [if_neg (by simp [hx])]; rfl
  | some ab => rfl

theorem cutLast_concat_of_not {x : α} (hx : p x = false) (xs : List α) :
    cutLast p (xs ++ [x]) = (cutLast p xs).map fun (a, b) => (a, b ++ [x]) := by
  induction xs with
  | nil => rw [List.nil_append, cutLast_cons_of_not hx]; rfl
  | cons y xs ih =>
    rw [List.cons_append, cutLast, cutLast, ih]
    cases cutLast p xs with
    | none =>
      simp only [Option.map_none]
      split <;> rfl
    | some ab => rfl

/-! ## All elements -/

theorem beq_false_of_not_mem [BEq α] [LawfulBEq α] {x : α} {xs : List α} (h : x ∉ xs) :
    ∀ y ∈ xs, (y == x) = false := by
  rintro y hy
  rw [beq_eq_false_iff_ne]
  rintro rfl
  exact h hy

/-- What holds of all elements is decided one element after the other. -/
theorem forall_mem_of_all {q : α → Prop} [DecidablePred q] {xs : List α}
    (h : xs.all (fun x => decide (q x)) = true) : ∀ x ∈ xs, q x :=
  fun x hx => of_decide_eq_true (List.all_eq_true.mp h x hx)

/-! ## Ends -/

theorem dropWhile_eq_self {xs : List α} (h : ∀ y, xs.head? = some y → p y = false) :
    xs.dropWhile p = xs := by
  cases xs with
  | nil => rfl
  | cons x xs => rw [List.dropWhile_cons, if_neg (by simp [h x rfl])]

theorem dropEndWhile_eq_self {xs : List α} (h : ∀ y, xs.getLast? = some y → p y = false) :
    dropEndWhile p xs = xs := by
  rcases List.eq_nil_or_concat xs with rfl | ⟨ys, y, rfl⟩
  · rfl
  · have hy : p y = false := h y (by simp)
    simp [dropEndWhile, hy]

theorem ne_of_isBlank {c d : Char} (hc : isBlank c = false) (hd : isBlank d = true) : c ≠ d := by
  rintro rfl
  rw [hc] at hd
  exact Bool.false_ne_true hd

/-- No blank at either end. -/
structure Trimmed (cs : List Char) : Prop where
  head : ∀ c, cs.head? = some c → isBlank c = false
  last : ∀ c, cs.getLast? = some c → isBlank c = false

theorem trimmed_of_no_blank {cs : List Char} (h : ∀ c ∈ cs, isBlank c = false) : Trimmed cs :=
  ⟨fun c hc => h c (List.mem_of_head? hc), fun c hc => h c (List.mem_of_getLast? hc)⟩

theorem trim_eq_self {cs : List Char} (h : Trimmed cs) : trim cs = cs := by
  rw [trim, dropAround, dropWhile_eq_self h.head, dropEndWhile_eq_self h.last]

theorem head?_dropWhile_not (p : α → Bool) (xs : List α) {x : α}
    (h : (xs.dropWhile p).head? = some x) : p x = false := by
  have := List.head?_dropWhile_not p xs
  rw [h] at this
  simpa using this

theorem getLast?_dropEndWhile_not (p : α → Bool) (xs : List α) {x : α}
    (h : (dropEndWhile p xs).getLast? = some x) : p x = false := by
  rw [dropEndWhile, List.getLast?_reverse] at h
  exact head?_dropWhile_not p xs.reverse h

theorem dropEndWhile_isPrefix (p : α → Bool) (xs : List α) : dropEndWhile p xs <+: xs :=
  List.rdropWhile_prefix p xs

/-- What is dropped at the end satisfies the test. -/
theorem exists_eq_dropEndWhile_append (p : α → Bool) (xs : List α) :
    ∃ ys, xs = dropEndWhile p xs ++ ys ∧ ∀ y ∈ ys, p y = true :=
  ⟨xs.rtakeWhile p, (List.rdropWhile_append_rtakeWhile).symm, fun _ => List.mem_rtakeWhile_imp⟩

theorem dropEndWhile_eq_nil_iff {xs : List α} :
    dropEndWhile p xs = [] ↔ ∀ x ∈ xs, p x = true :=
  List.rdropWhile_eq_nil_iff

theorem dropEndWhile_append_of_forall {ys : List α} (h : ∀ y ∈ ys, p y = true) (xs : List α) :
    dropEndWhile p (xs ++ ys) = dropEndWhile p xs := by
  rw [dropEndWhile, dropEndWhile, List.reverse_append, List.dropWhile_append_of_pos]
  exact fun y hy => h y (List.mem_reverse.mp hy)

/-- Dropping ends at an element that does not satisfy the test. -/
theorem dropEndWhile_append_of_last {xs : List α} {x : α} (hlast : xs.getLast? = some x)
    (hx : p x = false) (ys : List α) : dropEndWhile p (xs ++ ys) = xs ++ dropEndWhile p ys := by
  obtain ⟨front, rfl⟩ := List.getLast?_eq_some_iff.mp hlast
  simp [dropEndWhile, List.dropWhile_append, hx]

/-- What is dropped before a map may be dropped after it. -/
theorem dropEndWhile_map_dropEndWhile {β : Type u} {q : β → Bool} {f : α → β}
    (h : ∀ x, p x = true → q (f x) = true) (xs : List α) :
    dropEndWhile q ((dropEndWhile p xs).map f) = dropEndWhile q (xs.map f) := by
  obtain ⟨ys, hxs, hys⟩ := exists_eq_dropEndWhile_append p xs
  have hdropped : ∀ y ∈ ys.map f, q y = true := by
    simpa using fun y hy => h y (hys y hy)
  calc dropEndWhile q ((dropEndWhile p xs).map f)
      = dropEndWhile q ((dropEndWhile p xs).map f ++ ys.map f) :=
        (dropEndWhile_append_of_forall hdropped _).symm
    _ = dropEndWhile q (xs.map f) := by rw [← List.map_append, ← hxs]

/-- What is trimmed has no blank at its ends. -/
theorem trimmed_trim (cs : List Char) : Trimmed (trim cs) where
  head c hc := by
    obtain ⟨l, hl⟩ := dropEndWhile_isPrefix isBlank (cs.dropWhile isBlank)
    apply head?_dropWhile_not isBlank cs
    rw [← hl]
    rw [trim, dropAround] at hc
    cases h : dropEndWhile isBlank (cs.dropWhile isBlank) with
    | nil => simp [h] at hc
    | cons d ds => simpa [h] using hc
  last _ hc := getLast?_dropEndWhile_not isBlank _ hc

theorem mem_of_mem_trim {cs : List Char} {c : Char} (h : c ∈ trim cs) : c ∈ cs :=
  (List.dropWhile_suffix isBlank).subset ((dropEndWhile_isPrefix isBlank _).subset h)

theorem trim_cons_blank {b : Char} (hb : isBlank b = true) (cs : List Char) :
    trim (b :: cs) = trim cs := by
  rw [trim, trim, dropAround, dropAround, List.dropWhile_cons, if_pos hb]

theorem trim_append_of_blank {blanks : List Char} (h : ∀ c ∈ blanks, isBlank c = true)
    (cs : List Char) : trim (cs ++ blanks) = trim cs := by
  rw [trim, trim, dropAround, dropAround, List.dropWhile_append]
  by_cases hcs : cs.dropWhile isBlank = []
  · rw [hcs, List.isEmpty_nil, if_pos rfl, List.dropWhile_eq_nil_iff.mpr h]
  · rw [List.isEmpty_eq_false_iff.mpr hcs, if_neg Bool.false_ne_true,
      dropEndWhile_append_of_forall h]

theorem trim_blank_append {blanks : List Char} (h : ∀ c ∈ blanks, isBlank c = true)
    (cs : List Char) : trim (blanks ++ cs) = trim cs := by
  rw [trim, trim, dropAround, dropAround, List.dropWhile_append_of_pos h]

/-- A text is what is left of it when it is trimmed, between blanks. -/
theorem exists_eq_trim (cs : List Char) : ∃ front back, cs = front ++ trim cs ++ back ∧
    (∀ c ∈ front, isBlank c = true) ∧ ∀ c ∈ back, isBlank c = true := by
  obtain ⟨back, hback, hblank⟩ := exists_eq_dropEndWhile_append isBlank (cs.dropWhile isBlank)
  refine ⟨cs.takeWhile isBlank, back, ?_, fun c hc => List.mem_takeWhile_imp hc, hblank⟩
  rw [List.append_assoc, trim, dropAround, ← hback, List.takeWhile_append_dropWhile]

end MailScreen.Text
