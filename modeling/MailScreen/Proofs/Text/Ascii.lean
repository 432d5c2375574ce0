import MailScreen.Proofs.Text.Split
import MailScreen.Text.Ascii

/-!
# Lower case and what it leaves alone

`lowerAscii` moves the letters `A` to `Z` and nothing else (`toNat_toLower`), so it is idempotent,
it keeps blanks and separators where they are (`isBlank_toLower`, `eq_of_toLower_eq`), and a name
is trimmed if and only if its lower case is (`trimmed_lowerAscii_iff`). `isDigit_of_mem_toString`
says what the text of an integer is made of.
-/

namespace MailScreen.Text

theorem toNat_toLower (c : Char) :
    c.toLower.toNat = if 65 ≤ c.toNat ∧ c.toNat ≤ 90 then c.toNat + 32 else c.toNat := by
  have hge : 'A'.val ≤ c.val ↔ 65 ≤ c.toNat := by rw [UInt32.le_iff_toNat_le]; rfl
  have hle : c.val ≤ 'Z'.val ↔ c.toNat ≤ 90 := by rw [UInt32.le_iff_toNat_le]; rfl
  unfold Char.toLower
  by_cases h : c.val ≥ 'A'.val ∧ c.val ≤ 'Z'.val
  · rw [dif_pos h, if_pos ⟨hge.mp h.1, hle.mp h.2⟩]
    have hz := hle.mp h.2
    show (c.val + ('a'.val - 'A'.val)).toNat = c.toNat + 32
    rw [UInt32.toNat_add]
    have hstep : ('a'.val - 'A'.val).toNat = 32 := rfl
    have hnat : c.val.toNat = c.toNat := rfl
    rw [hstep, hnat, Nat.mod_eq_of_lt (by omega)]
  · rw [dif_neg h, if_neg fun hc => h ⟨hge.mpr hc.1, hle.mpr hc.2⟩]

theorem toLower_toLower (c : Char) : c.toLower.toLower = c.toLower := by
  apply Char.toNat_inj.mp
  rw [toNat_toLower c.toLower, toNat_toLower c]
  by_cases h : 65 ≤ c.toNat ∧ c.toNat ≤ 90
  · rw [if_pos h, if_neg (by omega)]
  · rw [if_neg h, if_neg h]

/-- A separator is the lower case of itself alone. -/
theorem eq_of_toLower_eq {c d : Char} (hd : d.toNat < 97) (h : c.toLower = d) : c = d := by
  apply Char.toNat_inj.mp
  have hc := congrArg Char.toNat h
  rw [toNat_toLower] at hc
  split at hc <;> omega

theorem isBlank_toLower (c : Char) : isBlank c.toLower = isBlank c := by
  have h := toNat_toLower c
  by_cases hc : 65 ≤ c.toNat ∧ c.toNat ≤ 90
  · rw [if_pos hc] at h
    have hlow : isBlank c = false := by
      simp only [isBlank, Bool.or_eq_false_iff, Bool.and_eq_false_iff, decide_eq_false_iff_not,
        beq_eq_false_iff_ne]
      omega
    rw [hlow]
    simp only [isBlank, h, Bool.or_eq_false_iff, Bool.and_eq_false_iff, decide_eq_false_iff_not,
      beq_eq_false_iff_ne]
    omega
  · rw [if_neg hc] at h
    rw [Char.toNat_inj.mp h]

theorem lowerAscii_lowerAscii (cs : List Char) : lowerAscii (lowerAscii cs) = lowerAscii cs := by
  rw [lowerAscii, lowerAscii, List.map_map]
  exact List.map_congr_left fun c _ => toLower_toLower c

theorem eqIgnoreCase_iff {a b : List Char} :
    eqIgnoreCase a b = true ↔ lowerAscii a = lowerAscii b :=
  beq_iff_eq

theorem trimmed_lowerAscii_iff {cs : List Char} : Trimmed (lowerAscii cs) ↔ Trimmed cs := by
  constructor
  · intro h
    refine ⟨fun c hc => ?_, fun c hc => ?_⟩
    · rw [← isBlank_toLower]
      exact h.head c.toLower (by rw [lowerAscii, List.head?_map, hc]; rfl)
    · rw [← isBlank_toLower]
      exact h.last c.toLower (by rw [lowerAscii, List.getLast?_map, hc]; rfl)
  · intro h
    refine ⟨fun c hc => ?_, fun c hc => ?_⟩
    · rw [lowerAscii, List.head?_map] at hc
      obtain ⟨d, hd, rfl⟩ := Option.map_eq_some_iff.mp hc
      rw [isBlank_toLower]
      exact h.head d hd
    · rw [lowerAscii, List.getLast?_map] at hc
      obtain ⟨d, hd, rfl⟩ := Option.map_eq_some_iff.mp hc
      rw [isBlank_toLower]
      exact h.last d hd

/-- A separator in the lower case of a text stands in the text. -/
theorem mem_of_mem_lowerAscii {cs : List Char} {d : Char} (hd : d.toNat < 97)
    (h : d ∈ lowerAscii cs) : d ∈ cs := by
  obtain ⟨c, hc, hcd⟩ := List.mem_map.mp h
  rwa [← eq_of_toLower_eq hd hcd]

/-- The text of an integer is made of digits and perhaps a minus sign. -/
theorem isDigit_of_mem_toString (n : Int) :
    ∀ c ∈ (toString n).toList, c = '-' ∨ c.isDigit = true := by
  intro c hc
  cases n with
  | ofNat n =>
    have hc : c ∈ Nat.toDigits 10 n := by simpa [toString, Int.repr, Nat.repr] using hc
    exact Or.inr (Nat.isDigit_of_mem_toDigits (by decide) (by decide) hc)
  | negSucc n =>
    have hc : c ∈ '-' :: Nat.toDigits 10 (n + 1) := by
      simpa [toString, Int.repr, Nat.repr] using hc
    rcases List.mem_cons.mp hc with rfl | hc
    · exact Or.inl rfl
    · exact Or.inr (Nat.isDigit_of_mem_toDigits (by decide) (by decide) hc)

end MailScreen.Text
