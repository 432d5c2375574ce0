/-!
# Cutting sequences at separators

Separators are given by a Boolean test on elements, so the same functions cut text (lists of
characters) and messages (lists of bytes).

* `pieces p xs` is the list of the runs between separators, empty runs included. It is never
  empty, and `pieces_ne_nil` says so.
* `cutFirst p xs` and `cutLast p xs` cut once, at the first or at the last separator;
  `eq_of_cutFirst` and `eq_of_cutLast` say that the two sides and the separator are the input.
* `dropAround p xs` removes the elements that satisfy `p` from both ends.
-/

namespace MailScreen.Text

universe u

variable {α : Type u}

/-- The runs between the elements that satisfy `p`, in order. -/
def pieces (p : α → Bool) : List α → List (List α)
  | [] => [[]]
  | x :: xs =>
    if p x then [] :: pieces p xs
    else
      match pieces p xs with
      | [] => [[x]]
      | run :: runs => (x :: run) :: runs

theorem pieces_ne_nil (p : α → Bool) (xs : List α) : pieces p xs ≠ [] := by
  cases xs with
  | nil => simp [pieces]
  | cons x xs =>
    simp only [pieces]
    split
    · simp
    · split <;> simp

/-- What stands before and after the first element that satisfies `p`. -/
def cutFirst (p : α → Bool) : List α → Option (List α × List α)
  | [] => none
  | x :: xs =>
    if p x then some ([], xs) else (cutFirst p xs).map fun (a, b) => (x :: a, b)

/-- What stands before and after the last element that satisfies `p`. -/
def cutLast (p : α → Bool) : List α → Option (List α × List α)
  | [] => none
  | x :: xs =>
    match cutLast p xs with
    | some (a, b) => some (x :: a, b)
    | none => if p x then some ([], xs) else none

theorem eq_of_cutFirst {p : α → Bool} {xs a b : List α} (h : cutFirst p xs = some (a, b)) :
    ∃ x, p x = true ∧ (∀ y ∈ a, p y = false) ∧ xs = a ++ x :: b := by
  induction xs generalizing a with
  | nil => simp [cutFirst] at h
  | cons x xs ih =>
    simp only [cutFirst] at h
    split at h
    · rename_i hx
      obtain ⟨rfl, rfl⟩ := Prod.mk.inj (Option.some.inj h)
      exact ⟨x, hx, by simp, rfl⟩
    · rename_i hx
      obtain ⟨⟨a', b'⟩, h', e⟩ := Option.map_eq_some_iff.1 h
      obtain ⟨rfl, rfl⟩ := Prod.mk.inj e
      obtain ⟨y, hy, ha, rfl⟩ := ih h'
      exact ⟨y, hy, by simpa [hx] using ha, rfl⟩

theorem eq_of_cutLast {p : α → Bool} {xs a b : List α} (h : cutLast p xs = some (a, b)) :
    ∃ x, p x = true ∧ xs = a ++ x :: b := by
  induction xs generalizing a with
  | nil => simp [cutLast] at h
  | cons x xs ih =>
    simp only [cutLast] at h
    split at h
    · rename_i a' b' h'
      obtain ⟨rfl, rfl⟩ := Prod.mk.inj (Option.some.inj h)
      obtain ⟨y, hy, rfl⟩ := ih h'
      exact ⟨y, hy, rfl⟩
    · split at h
      · rename_i hx
        obtain ⟨rfl, rfl⟩ := Prod.mk.inj (Option.some.inj h)
        exact ⟨x, hx, rfl⟩
      · simp at h

/-- Without the elements at the end that satisfy `p`. -/
def dropEndWhile (p : α → Bool) (xs : List α) : List α :=
  (xs.reverse.dropWhile p).reverse

/-- Without the elements at either end that satisfy `p`. -/
def dropAround (p : α → Bool) (xs : List α) : List α :=
  dropEndWhile p (xs.dropWhile p)

/-- Without `lead`, if the list begins with it. -/
def dropLead? [BEq α] : List α → List α → Option (List α)
  | [], xs => some xs
  | _ :: _, [] => none
  | l :: lead, x :: xs => if l == x then dropLead? lead xs else none

/-- The list without `lead` at its front; unchanged if it does not begin so. -/
def dropLead [BEq α] (lead xs : List α) : List α :=
  (dropLead? lead xs).getD xs

/-- The list without one final `x`; unchanged if it does not end in `x`. -/
def dropFinal [BEq α] (x : α) (xs : List α) : List α :=
  if xs.getLast? == some x then xs.dropLast else xs

end MailScreen.Text
