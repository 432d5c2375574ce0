import MailScreen.Dkim.Canonical
import Mathlib.Data.List.Chain

/-!
# Runs taken together

`squeeze` puts one mark for every run of elements that satisfy a test, and drops a run at the end.

* `isSqueezed_squeeze`: what it leaves has no runs any more.
* `IsSqueezed.squeeze_eq`: a list without runs is left as it is.
-/

namespace MailScreen.Dkim

/-- What is left of a list when runs are taken together: of the elements that satisfy `p` only
`mark`, never two of them side by side, and none at the end. -/
structure IsSqueezed {α : Type} (p : α → Bool) (mark : α) (xs : List α) : Prop where
  marks : ∀ x ∈ xs, p x = true → x = mark
  apart : xs.IsChain fun x y => p x = true → p y = false
  last : ∀ x, xs.getLast? = some x → p x = false

variable {α : Type} {p : α → Bool} {mark x : α} {xs : List α}

section Equations

variable (pending : Bool) (xs : List α)

theorem squeezeFrom_cons_of_pos (hx : p x = true) :
    squeezeFrom p mark pending (x :: xs) = squeezeFrom p mark true xs := by
  rw [squeezeFrom, if_pos hx]

/-- Before an element that stays stands a mark if a run ends there. -/
theorem squeezeFrom_cons_of_neg (hx : p x = false) :
    squeezeFrom p mark pending (x :: xs) =
      (if pending then [mark] else []) ++ x :: squeezeFrom p mark false xs := by
  rw [squeezeFrom, if_neg (by simp [hx])]
  cases pending <;> rfl

end Equations

theorem mem_of_mem_squeezeFrom {pending : Bool} (h : x ∈ squeezeFrom p mark pending xs) :
    x = mark ∨ x ∈ xs ∧ p x = false := by
  induction xs generalizing pending with
  | nil => cases h
  | cons y xs ih =>
    by_cases hy : p y = true
    · rw [squeezeFrom_cons_of_pos pending xs hy] at h
      exact (ih h).imp_right fun h => ⟨List.mem_cons_of_mem y h.1, h.2⟩
    · rw [Bool.not_eq_true] at hy
      rw [squeezeFrom_cons_of_neg pending xs hy, List.mem_append, List.mem_cons] at h
      rcases h with h | rfl | h
      · cases pending <;> simp_all
      · exact .inr ⟨List.mem_cons_self, hy⟩
      · exact (ih h).imp_right fun h => ⟨List.mem_cons_of_mem y h.1, h.2⟩

/-- **Runs taken together** leave a list that is squeezed. -/
theorem isSqueezed_squeezeFrom (p : α → Bool) (mark : α) (pending : Bool) (xs : List α) :
    IsSqueezed p mark (squeezeFrom p mark pending xs) := by
  refine ⟨fun x hx hp => ?_, ?_, ?_⟩
  · rcases mem_of_mem_squeezeFrom hx with h | ⟨-, h⟩
    · exact h
    · simp [h] at hp
  · induction xs generalizing pending with
    | nil => exact .nil
    | cons y xs ih =>
      by_cases hy : p y = true
      · rw [squeezeFrom_cons_of_pos pending xs hy]
        exact ih true
      · rw [Bool.not_eq_true] at hy
        have hrest : (y :: squeezeFrom p mark false xs).IsChain
            fun x y => p x = true → p y = false :=
          List.isChain_cons.mpr ⟨fun z _ hp => by simp [hy] at hp, ih false⟩
        rw [squeezeFrom_cons_of_neg pending xs hy]
        cases pending with
        | false => exact hrest
        | true => exact List.isChain_cons_cons.mpr ⟨fun _ => hy, hrest⟩
  · induction xs generalizing pending with
    | nil => nofun
    | cons y xs ih =>
      by_cases hy : p y = true
      · rw [squeezeFrom_cons_of_pos pending xs hy]
        exact ih true
      · rw [Bool.not_eq_true] at hy
        intro x hx
        rw [squeezeFrom_cons_of_neg pending xs hy, List.getLast?_append, List.getLast?_cons] at hx
        cases hlast : (squeezeFrom p mark false xs).getLast? with
        | none => simp_all
        | some z => exact ih false x (by simp_all)

theorem IsSqueezed.tail (h : IsSqueezed p mark (x :: xs)) : IsSqueezed p mark xs := by
  refine ⟨fun y hy => h.marks y (List.mem_cons_of_mem x hy), (List.isChain_cons.mp h.apart).2,
    fun y hy => h.last y ?_⟩
  rw [List.getLast?_cons, hy]
  rfl

/-- A squeezed list has no runs to be taken together. -/
theorem IsSqueezed.squeeze_eq (h : IsSqueezed p mark xs) : squeeze p mark xs = xs := by
  unfold squeeze
  induction xs with
  | nil => rfl
  | cons x xs ih =>
    by_cases hx : p x = true
    · -- a mark, which does not end the list, and behind which no other stands
      obtain rfl := h.marks x List.mem_cons_self hx
      cases xs with
      | nil => simp [h.last x rfl] at hx
      | cons y ys =>
        have hy : p y = false := (List.isChain_cons_cons.mp h.apart).1 hx
        rw [squeezeFrom_cons_of_pos _ _ hx, squeezeFrom_cons_of_neg _ _ hy]
        have hrest := ih h.tail
        rw [squeezeFrom_cons_of_neg _ _ hy] at hrest
        exact congrArg (x :: ·) hrest
    · rw [Bool.not_eq_true] at hx
      rw [squeezeFrom_cons_of_neg _ _ hx, ih h.tail]
      rfl

theorem isSqueezed_squeeze (p : α → Bool) (mark : α) (xs : List α) :
    IsSqueezed p mark (squeeze p mark xs) :=
  isSqueezed_squeezeFrom p mark false xs

end MailScreen.Dkim
