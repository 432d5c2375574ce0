import MailScreen.Text.Utf8

/-!
# Reading UTF-8 undoes writing it

Text in front of any bytes is read back character by character: the reader takes from the bytes of
a character what its first byte asks for, and no more (`next_encodeChar`).

* `decodeLossy_encode_append`: text in front of other bytes is read back, and the other bytes are
  read as if they stood alone.
* `encode_injective`: two texts with the same bytes are the same text.
-/

namespace MailScreen.Text.Utf8

/-- The demands of the first byte of two. -/
theorem lead?_two {b : UInt8} (hl : 0xC2 ≤ b.toNat) (hh : b.toNat < 0xE0) :
    lead? b = some ⟨1, 0x80, 0xBF, b.toNat - 0xC0⟩ := by
  have h1 : ¬ b < 0x80 := by rw [UInt8.lt_iff_toNat_lt]; simp; omega
  have h2 : ¬ b < 0xC2 := by rw [UInt8.lt_iff_toNat_lt]; simp; omega
  have h3 : b < 0xE0 := by rw [UInt8.lt_iff_toNat_lt]; simpa using hh
  rw [lead?, if_neg h1, if_neg h2, if_pos h3]

/-- The demands of the first byte of three: the byte after it is bounded more tightly where a
shorter form or a surrogate would begin. -/
theorem lead?_three {b : UInt8} (hl : 0xE0 ≤ b.toNat) (hh : b.toNat < 0xF0) :
    ∃ low high, lead? b = some ⟨2, low, high, b.toNat - 0xE0⟩ ∧
      low.toNat = (if b.toNat = 0xE0 then 0xA0 else 0x80) ∧
      high.toNat = (if b.toNat = 0xED then 0x9F else 0xBF) := by
  have h1 : ¬ b < 0x80 := by rw [UInt8.lt_iff_toNat_lt]; simp; omega
  have h2 : ¬ b < 0xC2 := by rw [UInt8.lt_iff_toNat_lt]; simp; omega
  have h3 : ¬ b < 0xE0 := by rw [UInt8.lt_iff_toNat_lt]; simpa using hl
  have h4 : b < 0xF0 := by rw [UInt8.lt_iff_toNat_lt]; simpa using hh
  rw [lead?, if_neg h1, if_neg h2, if_neg h3]
  by_cases e0 : b = 0xE0
  · subst e0
    exact ⟨0xA0, 0xBF, rfl, rfl, rfl⟩
  · have n0 : b.toNat ≠ 0xE0 := fun h => e0 (UInt8.toNat_inj.mp h)
    by_cases ed : b = 0xED
    · subst ed
      exact ⟨0x80, 0x9F, rfl, rfl, rfl⟩
    · have nd : b.toNat ≠ 0xED := fun h => ed (UInt8.toNat_inj.mp h)
      rw [if_neg e0, if_neg ed, if_pos h4, if_neg n0, if_neg nd]
      exact ⟨0x80, 0xBF, rfl, rfl, rfl⟩

/-- The demands of the first byte of four: the byte after it is bounded more tightly where a
shorter form or a code point past the last one would begin. -/
theorem lead?_four {b : UInt8} (hl : 0xF0 ≤ b.toNat) (hh : b.toNat ≤ 0xF4) :
    ∃ low high, lead? b = some ⟨3, low, high, b.toNat - 0xF0⟩ ∧
      low.toNat = (if b.toNat = 0xF0 then 0x90 else 0x80) ∧
      high.toNat = (if b.toNat = 0xF4 then 0x8F else 0xBF) := by
  have h : b.toNat = 0xF0 ∨ b.toNat = 0xF1 ∨ b.toNat = 0xF2 ∨ b.toNat = 0xF3 ∨ b.toNat = 0xF4 := by
    omega
  rcases h with h | h | h | h | h
  · obtain rfl : b = 0xF0 := UInt8.toNat_inj.mp h
    exact ⟨0x90, 0xBF, rfl, rfl, rfl⟩
  · obtain rfl : b = 0xF1 := UInt8.toNat_inj.mp h
    exact ⟨0x80, 0xBF, rfl, rfl, rfl⟩
  · obtain rfl : b = 0xF2 := UInt8.toNat_inj.mp h
    exact ⟨0x80, 0xBF, rfl, rfl, rfl⟩
  · obtain rfl : b = 0xF3 := UInt8.toNat_inj.mp h
    exact ⟨0x80, 0xBF, rfl, rfl, rfl⟩
  · obtain rfl : b = 0xF4 := UInt8.toNat_inj.mp h
    exact ⟨0x80, 0x8F, rfl, rfl, rfl⟩

/-- A byte in its range is taken, and its six bits are added to the value. -/
theorem follow_cons {low high b : UInt8} (hl : low.toNat ≤ b.toNat) (hh : b.toNat ≤ high.toNat)
    (value count : Nat) (bytes : List UInt8) :
    follow value (count + 1) low high (b :: bytes) =
      ((follow (64 * value + (b.toNat - 0x80)) count 0x80 0xBF bytes).1 + 1,
        (follow (64 * value + (b.toNat - 0x80)) count 0x80 0xBF bytes).2) := by
  rw [follow, if_pos]
  simp [UInt8.le_iff_toNat_le, hl, hh]

theorem follow_zero (value : Nat) (low high : UInt8) (bytes : List UInt8) :
    follow value 0 low high bytes = (0, some value) := by
  rw [follow]

/-- The bytes of a character are read as this character, whatever stands after them. -/
theorem next_encodeChar (c : Char) (bytes : List UInt8) :
    ∃ b bs, String.utf8EncodeChar c = b :: bs ∧ next b (bs ++ bytes) = (some c, bs.length) := by
  have hv := c.valid
  have hc : Char.ofNat c.val.toNat = c := Char.ofNat_toNat c
  simp only [UInt32.isValidChar, Nat.isValidChar] at hv
  unfold String.utf8EncodeChar
  generalize c.val.toNat = v at *
  have low : (0x80 : UInt8).toNat = 128 := rfl
  have high : (0xBF : UInt8).toNat = 191 := rfl
  have tail : (UInt8.ofNat (v % 64 + 128)).toNat = v % 64 + 128 := by simp; omega
  have tail₂ : (UInt8.ofNat (v / 64 % 64 + 128)).toNat = v / 64 % 64 + 128 := by simp; omega
  have tail₃ : (UInt8.ofNat (v / 4096 % 64 + 128)).toNat = v / 4096 % 64 + 128 := by simp; omega
  simp only
  split
  · have h1 : (UInt8.ofNat v).toNat = v := by simp; omega
    have h2 : UInt8.ofNat v < 0x80 := by rw [UInt8.lt_iff_toNat_lt, h1]; simp; omega
    refine ⟨_, _, rfl, ?_⟩
    simp only [next, lead?, if_pos h2, h1, follow_zero, Option.map_some, hc, List.length_nil]
  split
  · have h1 : (UInt8.ofNat (v / 64 % 32 + 192)).toNat = v / 64 + 192 := by simp; omega
    refine ⟨_, _, rfl, ?_⟩
    rw [next, lead?_two (by omega) (by omega)]
    simp only [List.cons_append, List.nil_append]
    rw [follow_cons (by omega) (by omega), follow_zero, h1, tail]
    have e : 64 * (v / 64 + 192 - 192) + (v % 64 + 128 - 128) = v := by omega
    simp only [e, Option.map_some, hc]
    rfl
  split
  · have h1 : (UInt8.ofNat (v / 4096 % 16 + 224)).toNat = v / 4096 + 224 := by simp; omega
    refine ⟨_, _, rfl, ?_⟩
    obtain ⟨lo, hi, hlead, hlo, hhi⟩ :=
      lead?_three (b := UInt8.ofNat (v / 4096 % 16 + 224)) (by omega) (by omega)
    rw [h1] at hlo hhi
    rw [next, hlead]
    simp only [List.cons_append, List.nil_append]
    rw [follow_cons (by split at hlo <;> omega) (by split at hhi <;> omega),
      follow_cons (by omega) (by omega), follow_zero, h1, tail, tail₂]
    have e : 64 * (64 * (v / 4096 + 224 - 224) + (v / 64 % 64 + 128 - 128)) +
        (v % 64 + 128 - 128) = v := by omega
    simp only [e, Option.map_some, hc]
    rfl
  · have h1 : (UInt8.ofNat (v / 262144 % 8 + 240)).toNat = v / 262144 + 240 := by simp; omega
    refine ⟨_, _, rfl, ?_⟩
    obtain ⟨lo, hi, hlead, hlo, hhi⟩ :=
      lead?_four (b := UInt8.ofNat (v / 262144 % 8 + 240)) (by omega) (by omega)
    rw [h1] at hlo hhi
    rw [next, hlead]
    simp only [List.cons_append, List.nil_append]
    rw [follow_cons (by split at hlo <;> omega) (by split at hhi <;> omega),
      follow_cons (by omega) (by omega), follow_cons (by omega) (by omega), follow_zero, h1, tail,
      tail₂, tail₃]
    have e : 64 * (64 * (64 * (v / 262144 + 240 - 240) + (v / 4096 % 64 + 128 - 128)) +
        (v / 64 % 64 + 128 - 128)) + (v % 64 + 128 - 128) = v := by omega
    simp only [e, Option.map_some, hc]
    rfl

/-- **Text in front of bytes is read back**, and the bytes are read as if they stood alone. -/
theorem decodeLossy_encode_append (cs : List Char) (bytes : List UInt8) :
    decodeLossy (encode cs ++ bytes) = cs ++ decodeLossy bytes := by
  induction cs with
  | nil => rfl
  | cons c cs ih =>
    obtain ⟨b, bs, hb, hnext⟩ := next_encodeChar c (encode cs ++ bytes)
    have e : encode (c :: cs) ++ bytes = b :: (bs ++ (encode cs ++ bytes)) := by
      rw [encode, List.flatMap_cons, hb, ← encode]
      simp
    rw [e, decodeLossy, hnext]
    simp only [Option.getD_some, List.drop_left, ih, List.cons_append]

theorem decodeLossy_encode (cs : List Char) : decodeLossy (encode cs) = cs := by
  simpa [decodeLossy] using decodeLossy_encode_append cs []

/-- **Two texts with the same bytes are the same text.** -/
theorem encode_injective {cs ds : List Char} (h : encode cs = encode ds) : cs = ds := by
  rw [← decodeLossy_encode cs, h, decodeLossy_encode]

theorem encode_append (cs ds : List Char) : encode (cs ++ ds) = encode cs ++ encode ds :=
  List.flatMap_append

end MailScreen.Text.Utf8
