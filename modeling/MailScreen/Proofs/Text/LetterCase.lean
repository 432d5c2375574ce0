import MailScreen.Proofs.Text.Ascii
import MailScreen.Text.Lowercase

/-!
# Full lower case and what it leaves alone

A text whose full lower case is a given word is that word in some letter case.

* `mem_lowerFull`: a character without cases is still there in lower case; `lowerAt_of_isBlank` and
  `lowerAt_of_lt` are for blanks and for separators. So a plain word, in which none of them stands,
  is not the lower case of a text with one (`plain_of_lowerFull`).
* `lowerFull_of_lowerAscii`: words of ASCII letters may be written in capitals and small letters.
-/

namespace MailScreen.Text

/-! ## Characters -/

/-- The codes of the blanks. -/
def blankCodes : List Nat :=
  [9, 10, 11, 12, 13, 0x20, 0x85, 0xA0, 0x1680, 0x2000, 0x2001, 0x2002, 0x2003, 0x2004, 0x2005,
    0x2006, 0x2007, 0x2008, 0x2009, 0x200A, 0x2028, 0x2029, 0x202F, 0x205F, 0x3000]

theorem toNat_mem_blankCodes {c : Char} (h : isBlank c = true) : c.toNat ∈ blankCodes := by
  simp only [isBlank, Bool.or_eq_true, Bool.and_eq_true, decide_eq_true_eq, beq_iff_eq] at h
  simp only [blankCodes, List.mem_cons, List.not_mem_nil, or_false]
  omega

theorem lowerAt_of_lowerChar {c : Char} (h : c.toNat ≠ 0x3A3 ∧ c.toNat ≠ 0x130)
    (before after : List Char) : lowerAt before c after = [lowerChar c] := by
  rw [lowerAt, if_neg h.1, if_neg h.2]

theorem lowerAt_of_isBlank {c : Char} (h : isBlank c = true) (before after : List Char) :
    lowerAt before c after = [c] := by
  have hcodes : ∀ n ∈ blankCodes, (n ≠ 0x3A3 ∧ n ≠ 0x130) ∧
      lowerChar (Char.ofNat n) = Char.ofNat n := by decide +kernel
  obtain ⟨hne, hlower⟩ := hcodes c.toNat (toNat_mem_blankCodes h)
  rw [Char.ofNat_toNat] at hlower
  rw [lowerAt_of_lowerChar hne, hlower]

/-- An ASCII character is lower-cased as such. -/
theorem lowerAt_of_lt {c : Char} (h : c.toNat < 0x80) (before after : List Char) :
    lowerAt before c after = [c.toLower] := by
  rw [lowerAt_of_lowerChar ⟨by omega, by omega⟩, lowerChar, if_pos h]

/-! ## Texts -/

/-- **A character without cases** is still there in lower case. -/
theorem mem_lowerFull {c : Char} (hc : ∀ before after, lowerAt before c after = [c])
    {cs : List Char} (h : c ∈ cs) : c ∈ lowerFull cs := by
  suffices hfrom : ∀ before, c ∈ lowerFrom before cs from hfrom []
  induction cs with
  | nil => exact absurd h List.not_mem_nil
  | cons d cs ih =>
    intro before
    rw [lowerFrom_cons, List.mem_append]
    rcases List.mem_cons.mp h with rfl | hcs
    · exact .inl (by rw [hc]; exact List.mem_singleton.mpr rfl)
    · exact .inr (ih hcs _)

/-- The separators of tags. -/
def IsTagSeparator (c : Char) : Prop :=
  isBlank c = true ∨ c = ';' ∨ c = '='

instance (c : Char) : Decidable (IsTagSeparator c) :=
  inferInstanceAs (Decidable (_ ∨ _))

/-- No separator of tags stands in the text. -/
def Plain (cs : List Char) : Prop :=
  ∀ c ∈ cs, ¬ IsTagSeparator c

instance (cs : List Char) : Decidable (Plain cs) :=
  decidable_of_iff (cs.all (fun c => decide (¬ IsTagSeparator c)) = true)
    ⟨forall_mem_of_all, fun h => List.all_eq_true.mpr fun c hc => decide_eq_true (h c hc)⟩

/-- **A word without separators** is not the lower case of a text with one. -/
theorem plain_of_lowerFull {text word : List Char} (h : lowerFull text = word)
    (hword : Plain word) : Plain text := by
  intro c hc hseparator
  refine hword c (h ▸ mem_lowerFull (fun before after => ?_) hc) hseparator
  rcases hseparator with hblank | rfl | rfl
  · exact lowerAt_of_isBlank hblank before after
  · exact lowerAt_of_lt (by decide) before after
  · exact lowerAt_of_lt (by decide) before after

/-- **Words of ASCII letters** may be written in capitals and small letters. -/
theorem lowerFull_of_lowerAscii {text word : List Char} (h : lowerAscii text = word)
    (hword : ∀ c ∈ word, c.toNat < 0x80) : lowerFull text = word := by
  suffices hfrom : ∀ before, lowerFrom before text = word from hfrom []
  induction text generalizing word with
  | nil => exact fun _ => h
  | cons c cs ih =>
    intro before
    obtain rfl : c.toLower :: lowerAscii cs = word := h
    -- Lower case keeps characters on their side of the limit of ASCII.
    have hlower := hword c.toLower List.mem_cons_self
    have hc : c.toNat < 0x80 := by
      rw [toNat_toLower] at hlower
      split at hlower <;> omega
    rw [lowerFrom_cons, lowerAt_of_lt hc, List.singleton_append,
      ih rfl (fun d hd => hword d (List.mem_cons_of_mem _ hd))]

end MailScreen.Text
