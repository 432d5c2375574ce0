import MailScreen.Text.Ascii
import MailScreen.Text.Hex
import Mathlib.Data.Nat.Init
import Mathlib.Tactic.SplitIfs

/-!
# Numbers that are written and read back

Numbers are written without leading zeros, in decimal or in hexadecimal.

* `foldlM_toDigits`: the digits of a number, read one after the other, give the number. All readers
  of numbers follow from it: `digitsValue?_toDigits`, `Hex.foldlM_toDigits`, `unsigned?_toDigits`.
* `mem_hexDigits_of_mem_toDigits`: what a number is written with.
* `head?_toDigits_ne_zero`: a number other than zero does not begin with one.
-/

namespace MailScreen.Text

/-- The digits of numbers in bases up to sixteen. -/
def hexDigits : List Char :=
  (List.range 16).map Nat.digitChar

variable {b n : Nat} {c : Char}

/-! ## Digits -/

theorem digitChar_mem_hexDigits (h : n < 16) : n.digitChar ∈ hexDigits :=
  List.mem_map_of_mem (List.mem_range.mpr h)

theorem mem_hexDigits_of_mem_toDigits (hb : 1 < b) (hb' : b ≤ 16) (h : c ∈ Nat.toDigits b n) :
    c ∈ hexDigits := by
  induction n using Nat.strong_induction_on with
  | _ n ih =>
    rw [Nat.toDigits_eq_if hb] at h
    split_ifs at h with hn
    · rw [List.mem_singleton.mp h]
      exact digitChar_mem_hexDigits (by omega)
    · rcases List.mem_append.mp h with h | h
      · exact ih _ (Nat.div_lt_self (by omega) hb) h
      · rw [List.mem_singleton.mp h]
        have hdigit : n % b < b := Nat.mod_lt n (by omega)
        exact digitChar_mem_hexDigits (by omega)

/-- **A number other than zero does not begin with a zero.** -/
theorem head?_toDigits_ne_zero (hb : 1 < b) (hn : n ≠ 0) :
    (Nat.toDigits b n).head? ≠ some '0' := by
  induction n using Nat.strong_induction_on with
  | _ n ih =>
    rw [Nat.toDigits_eq_if hb]
    split_ifs with hsmall
    · simpa using hn
    · have hless : n / b < n := Nat.div_lt_self (by omega) hb
      have hpos : 0 < n / b := Nat.div_pos (Nat.le_of_not_lt hsmall) (by omega)
      have hfront : ((Nat.toDigits b (n / b)).head?).isSome = true :=
        List.isSome_head?.mpr Nat.toDigits_ne_nil
      rw [List.head?_append, Option.or_of_isSome hfront]
      exact ih _ hless (by omega)

/-! ## Reading -/

/-- **The digits of a number are read back.** -/
theorem foldlM_toDigits (hb : 1 < b) {value? : Char → Option Nat}
    (hvalue : ∀ d < b, value? d.digitChar = some d) (n : Nat) :
    (Nat.toDigits b n).foldlM (fun m c => (value? c).map (b * m + ·)) 0 = some n := by
  induction n using Nat.strong_induction_on with
  | _ n ih =>
    rw [Nat.toDigits_eq_if hb]
    split_ifs with hn
    · simp [hvalue n hn]
    · have hless : n / b < n := Nat.div_lt_self (by omega) hb
      have hdigit := hvalue (n % b) (Nat.mod_lt n (by omega))
      rw [List.foldlM_append, ih _ hless]
      simp [hdigit, Nat.div_add_mod]

/-- What is read as a number holds digits only. -/
theorem isSome_of_foldlM {value? : Char → Option Nat} {m : Nat} {cs : List Char}
    (h : cs.foldlM (fun m c => (value? c).map (b * m + ·)) m = some n) :
    ∀ c ∈ cs, (value? c).isSome = true := by
  induction cs generalizing m with
  | nil => simp
  | cons c cs ih =>
    cases hc : value? c with
    | none => simp [hc] at h
    | some d =>
      have hrest : cs.foldlM (fun m c => (value? c).map (b * m + ·)) (b * m + d) = some n := by
        simpa [hc] using h
      exact List.forall_mem_cons.mpr ⟨by rw [hc]; rfl, ih hrest⟩

theorem digit?_digitChar (h : n < 10) : digit? n.digitChar = some n := by
  have hdigit : n.digitChar.isDigit = true := by rw [Nat.isDigit_digitChar, decide_eq_true h]
  rw [digit?, if_pos hdigit, Nat.toNat_digitChar_of_lt_ten h]
  exact congrArg some (Nat.add_sub_cancel_left (n := 48) (m := n))

theorem digitsValue?_toDigits (n : Nat) : digitsValue? (Nat.toDigits 10 n) = some n :=
  foldlM_toDigits (by decide) (fun _ => digit?_digitChar) n

theorem Hex.foldlM_toDigits (n : Nat) :
    (Nat.toDigits 16 n).foldlM (fun m c => (Hex.value? c).map (16 * m + ·)) 0 = some n :=
  Text.foldlM_toDigits (by decide) (by decide) n

theorem accumulateDigits_append (limit m : Nat) (cs ds : List Char) :
    accumulateDigits limit m (cs ++ ds) =
      (accumulateDigits limit m cs).bind fun m => accumulateDigits limit m ds := by
  induction cs generalizing m with
  | nil => rfl
  | cons c cs ih =>
    rw [List.cons_append, accumulateDigits, accumulateDigits]
    split
    · rfl
    · split_ifs
      · exact ih _
      · rfl

theorem accumulateDigits_toDigits {limit : Nat} (h : n ≤ limit) :
    accumulateDigits limit 0 (Nat.toDigits 10 n) = .ok n := by
  induction n using Nat.strong_induction_on with
  | _ n ih =>
    rw [Nat.toDigits_eq_if (by decide)]
    split_ifs with hn
    · simp [accumulateDigits, digit?_digitChar hn, h]
    · have hdigit : digit? (n % 10).digitChar = some (n % 10) :=
        digit?_digitChar (Nat.mod_lt n (by decide))
      rw [accumulateDigits_append, ih (n / 10) (by omega) (by omega), Except.bind, accumulateDigits,
        hdigit]
      simp only [Nat.div_add_mod, h, if_true, accumulateDigits]

/-- **A number in range is read back.** -/
theorem unsigned?_toDigits {limit : Nat} (h : n ≤ limit) :
    unsigned? limit (Nat.toDigits 10 n) = .ok n := by
  have hread := accumulateDigits_toDigits h
  have hplus : '+' ∉ Nat.toDigits 10 n := fun hmem =>
    absurd (mem_hexDigits_of_mem_toDigits (by decide) (by decide) hmem) (by decide)
  unfold unsigned?
  split
  · rename_i hnil
    exact absurd hnil Nat.toDigits_ne_nil
  · rename_i hcs
    exact absurd (by simp [hcs]) hplus
  · rename_i hcs
    exact absurd (by simp [hcs]) hplus
  · exact hread

end MailScreen.Text
