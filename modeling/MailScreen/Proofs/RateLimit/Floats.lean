import MailScreen.Proofs.RateLimit.Unrounded
import Mathlib

/-!
# What floats are made of

A float that is neither zero nor infinite is made of a sign, a mantissa and an exponent. The same
number could be given by other mantissas and exponents, but a float has only one pair of them.

* `IsCanonical` says which mantissas and exponents floats have: `isCanonical_of_unpack`.
* `unpack_pack`: a float that is made of such a pair has this pair; `unpack_pack_of_large`: it is
  infinite if the exponent is too large.
* `IsCanonical.lt_half` and `IsCanonical.one_le` tell from the exponent where the number lies.
* `lt_of_valueOf_lt`: floats above zero are in the order of their numbers.
-/

namespace MailScreen.RateLimit

open Float.Model Float.Model.UnpackedFloat

/-- **Mantissa and exponent as a float has them**: no more than 53 bits, and fewer only if the
exponent is the least one. -/
structure IsCanonical (m : Nat) (e : Int) : Prop where
  lt : m < 2 ^ 53
  low : -1074 ≤ e
  full : 2 ^ 52 ≤ m ∨ e = -1074

/-! ## Bits -/

theorem toNat_ofNat_of_lt {w n : Nat} (h : n < 2 ^ w) : (BitVec.ofNat w n).toNat = n := by
  rw [BitVec.toNat_ofNat, Nat.mod_eq_of_lt h]

/-- The leading one of a mantissa is not stored. -/
theorem toNat_one_append (f : BitVec 52) : (1#1 ++ f).toNat = 2 ^ 52 + f.toNat := by
  rw [BitVec.toNat_append, ← Nat.shiftLeft_add_eq_or_of_lt f.isLt]
  rfl

theorem unpack_packComponents_normal {b : Nat} (hlow : 1 ≤ b) (hhigh : b < 2047) (s : Sign)
    (f : BitVec 52) : UnpackedFloat.unpack Format.binary64
      (packComponents Format.binary64 s (BitVec.ofNat 11 b) f) =
        .finite s (2 ^ 52 + f.toNat) (b - 1075) (Nat.add_pos_left (by decide) _) := by
  have hb : (BitVec.ofNat 11 b).toNat = b := toNat_ofNat_of_lt (by omega)
  have hzero : BitVec.ofNat 11 b ≠ 0#11 := fun h => by
    have : b = 0 := hb.symm.trans (congrArg BitVec.toNat h)
    omega
  have hones : BitVec.ofNat 11 b ≠ -1#11 := fun h => by
    have : b = 2047 := hb.symm.trans (congrArg BitVec.toNat h)
    omega
  have hf := toNat_one_append f
  simp only [UnpackedFloat.unpack, unpackExponent_packComponents, unpackMantissa_packComponents,
    unpackSign_packComponents, Sign.ofBitVec_toBitVec, hzero, hones, if_false, hb, hf]
  rfl

theorem unpack_packComponents_subnormal (s : Sign) {f : BitVec 52} (hf : 0 < f.toNat) :
    UnpackedFloat.unpack Format.binary64 (packComponents Format.binary64 s 0#11 f) =
      .finite s f.toNat (-1074) hf := by
  have hzero : f ≠ 0#52 := fun h => by
    rw [h] at hf
    exact absurd hf (by decide)
  have hones : (0#11) ≠ -1#11 := by decide
  simp only [UnpackedFloat.unpack, unpackExponent_packComponents, unpackMantissa_packComponents,
    unpackSign_packComponents, Sign.ofBitVec_toBitVec, hzero, hones, if_false, if_true, dif_neg,
    not_false_eq_true]
  rfl

/-! ## Making floats and taking them apart -/

theorem unpack_pack_infinity (s : Sign) :
    (Float.Model.pack (.infinity s)).unpack = .infinity s := by
  cases s <;> rfl

theorem unpack_pack_zero (s : Sign) : (Float.Model.pack (.zero s)).unpack = .zero s := by
  cases s <;> rfl

theorem pack_finite (s : Sign) (m : Nat) (e : Int) (hm : 0 < m) :
    UnpackedFloat.pack Format.binary64 (.finite s m e hm) =
      if 2048 ≤ (e + 1075).toNat + 1 then packedInfinity Format.binary64 s
      else if m.log2 + 1 = 53 then
        packComponents Format.binary64 s (BitVec.ofNat 11 (e + 1075).toNat) (BitVec.ofNat 52 m)
      else packComponents Format.binary64 s 0#11 (BitVec.ofNat 52 m) := by
  have hbias : e + 1075 = e + 1023 + 52 := by omega
  rw [hbias]
  rfl

variable {s : Sign} {m : Nat} {e : Int} {hm : 0 < m}

/-- What is too large for a float becomes infinite. -/
theorem unpack_pack_of_large (h : 972 ≤ e) :
    (Float.Model.pack (.finite s m e hm)).unpack = .infinity s := by
  show UnpackedFloat.unpack Format.binary64
    (UnpackedFloat.pack Format.binary64 (.finite s m e hm)) = .infinity s
  rw [pack_finite, if_pos (by omega)]
  exact unpack_pack_infinity s

/-- **A float has what it was made of.** -/
theorem unpack_pack (hc : IsCanonical m e) (h : e ≤ 971) :
    (Float.Model.pack (.finite s m e hm)).unpack = .finite s m e hm := by
  have hlow := hc.low
  have hlt := hc.lt
  show UnpackedFloat.unpack Format.binary64
    (UnpackedFloat.pack Format.binary64 (.finite s m e hm)) = .finite s m e hm
  rw [pack_finite, if_neg (by omega)]
  rcases Nat.lt_or_ge m (2 ^ 52) with hsub | hnormal
  · have hlog : m.log2 + 1 ≠ 53 := by
      have := (Nat.log2_lt hm.ne').mpr hsub
      omega
    have hf : (BitVec.ofNat 52 m).toNat = m := toNat_ofNat_of_lt hsub
    obtain rfl : e = -1074 := hc.full.resolve_left (by omega)
    rw [if_neg hlog, unpack_packComponents_subnormal s (hf.symm ▸ hm)]
    simp only [hf]
  · have hlog : m.log2 + 1 = 53 := by
      have := (Nat.log2_lt hm.ne').mpr hlt
      have := (Nat.le_log2 hm.ne').mpr hnormal
      omega
    have hf : 2 ^ 52 + (BitVec.ofNat 52 m).toNat = m := by
      rw [BitVec.toNat_ofNat]
      omega
    have he : (((e + 1075).toNat : Nat) : Int) - 1075 = e := by omega
    have hleast : 1 ≤ (e + 1075).toNat := by omega
    have hmost : (e + 1075).toNat < 2047 := by omega
    rw [if_pos hlog, unpack_packComponents_normal hleast hmost]
    simp only [hf, he]

/-- **What a float is made of is canonical**, and its exponent is not too large. -/
theorem isCanonical_of_unpack {x : Float.Model} (h : x.unpack = .finite s m e hm) :
    IsCanonical m e ∧ e ≤ 971 := by
  change UnpackedFloat.unpack Format.binary64 x.toBits.toBitVec = _ at h
  unfold UnpackedFloat.unpack at h
  obtain ⟨f, hf⟩ : ∃ f : BitVec 52, f = @unpackMantissa Format.binary64 x.toBits.toBitVec :=
    ⟨_, rfl⟩
  obtain ⟨g, hg⟩ : ∃ g : BitVec 11, g = @unpackExponent Format.binary64 x.toBits.toBitVec :=
    ⟨_, rfl⟩
  have hmantissa : f.toNat < 2 ^ 52 := f.isLt
  have hexponent : g.toNat < 2048 := g.isLt
  simp only [← hf, ← hg] at h
  split at h
  · split at h <;> cases h
  · rename_i hones
    have hones : g.toNat ≠ 2047 := fun h => hones (BitVec.eq_of_toNat_eq h)
    split at h
    · rename_i hzero
      split at h
      · cases h
      · injection h with _ hm he
        have he : (g.toNat : Int) - 1075 + 1 = e := he
        have hzero : g.toNat = 0 := congrArg BitVec.toNat hzero
        exact ⟨⟨by omega, by omega, .inr (by omega)⟩, by omega⟩
    · rename_i hzero
      injection h with _ hm he
      have he : (g.toNat : Int) - 1075 = e := he
      have hzero : g.toNat ≠ 0 := fun h => hzero (BitVec.eq_of_toNat_eq h)
      rw [toNat_one_append] at hm
      exact ⟨⟨by omega, by omega, .inl (by omega)⟩, by omega⟩

/-! ## Where a number lies -/

theorem apply_negative_mul_neg (hm : 0 < m) (e : Int) :
    ((Sign.negative.apply m : Int) : Rat) * 2 ^ e < 0 := by
  show ((-(m : Int) : Int) : Rat) * 2 ^ e < 0
  push_cast
  exact mul_neg_of_neg_of_pos (neg_lt_zero.mpr (Nat.cast_pos.mpr hm)) (zpow_pos two_pos e)

theorem mul_zpow_le_half {t : Int} (ht : t < -53) : 2 ^ 53 * (2 : Rat) ^ t ≤ 1 / 2 :=
  calc 2 ^ 53 * (2 : Rat) ^ t ≤ 2 ^ 53 * (2 : Rat) ^ (-54 : Int) :=
        mul_le_mul_of_nonneg_left (zpow_le_zpow_right₀ one_le_two (by omega)) (by positivity)
    _ = 1 / 2 := by norm_num

theorem one_le_mul_zpow {t : Int} (ht : -53 < t) : 1 ≤ 2 ^ 52 * (2 : Rat) ^ t :=
  calc (1 : Rat) = 2 ^ 52 * (2 : Rat) ^ (-52 : Int) := by norm_num
    _ ≤ 2 ^ 52 * (2 : Rat) ^ t :=
        mul_le_mul_of_nonneg_left (zpow_le_zpow_right₀ one_le_two (by omega)) (by positivity)

namespace IsCanonical

theorem lt_half (h : IsCanonical m e) (he : e < -53) : m * (2 : Rat) ^ e < 1 / 2 := by
  have hm : (m : Rat) < 2 ^ 53 := by exact_mod_cast h.lt
  exact (mul_lt_mul_of_pos_right hm (zpow_pos two_pos e)).trans_le (mul_zpow_le_half he)

theorem one_le (h : IsCanonical m e) (he : -53 < e) : 1 ≤ m * (2 : Rat) ^ e := by
  have hm : (2 ^ 52 : Rat) ≤ m := by exact_mod_cast h.full.resolve_right (by omega)
  exact (one_le_mul_zpow he).trans (mul_le_mul_of_nonneg_right hm (zpow_pos two_pos e).le)

/-- A number with the greater exponent is the greater one. -/
theorem lt_of_exponent_lt {n : Nat} {f : Int} (h : IsCanonical m e) (h' : IsCanonical n f)
    (hlt : e < f) : m * (2 : Rat) ^ e < n * (2 : Rat) ^ f := by
  have hm : (m : Rat) < 2 ^ 53 := by exact_mod_cast h.lt
  have hlow := h.low
  have hn : (2 ^ 52 : Rat) ≤ n := by exact_mod_cast h'.full.resolve_right (by omega)
  calc m * (2 : Rat) ^ e < 2 ^ 53 * (2 : Rat) ^ e :=
        mul_lt_mul_of_pos_right hm (zpow_pos two_pos e)
    _ = 2 ^ 52 * (2 : Rat) ^ (e + 1) := by
        rw [zpow_add_one₀ two_ne_zero]
        ring
    _ ≤ 2 ^ 52 * (2 : Rat) ^ f :=
        mul_le_mul_of_nonneg_left (zpow_le_zpow_right₀ one_le_two (by omega)) (by positivity)
    _ ≤ n * (2 : Rat) ^ f := mul_le_mul_of_nonneg_right hn (zpow_pos two_pos f).le

end IsCanonical

/-! ## Order -/

theorem exists_unpack_of_valueOf_pos {x : Float} (h : 0 < valueOf x) :
    ∃ m e hm, x.toModel.unpack = .finite .positive m e hm := by
  unfold valueOf at h
  cases hx : x.toModel.unpack with
  | infinity sign => rw [hx] at h; exact absurd h (lt_irrefl 0)
  | notANumber => rw [hx] at h; exact absurd h (lt_irrefl 0)
  | zero sign => rw [hx] at h; exact absurd h (lt_irrefl 0)
  | finite sign m e hm =>
    cases sign with
    | negative =>
      rw [hx] at h
      exact absurd (h.trans (apply_negative_mul_neg hm e)) (lt_irrefl 0)
    | positive => exact ⟨m, e, hm, rfl⟩

/-- Floats above zero are in the order of the numbers that they stand for. -/
theorem lt_of_valueOf_lt {x y : Float} (hx : 0 < valueOf x) (h : valueOf x < valueOf y) :
    x < y := by
  obtain ⟨m, e, hm, hunpack⟩ := exists_unpack_of_valueOf_pos hx
  obtain ⟨n, f, hn, hunpack'⟩ := exists_unpack_of_valueOf_pos (hx.trans h)
  obtain ⟨hc, -⟩ := isCanonical_of_unpack hunpack
  obtain ⟨hc', -⟩ := isCanonical_of_unpack hunpack'
  rw [valueOf_of_unpack hunpack, valueOf_of_unpack hunpack'] at h
  rw [float_lt_iff, hunpack, hunpack']
  show (some ((compare e f).then (compare m n)) == some .lt) = true
  rcases lt_trichotomy e f with hlt | rfl | hgt
  · rw [compare_lt_iff_lt.mpr hlt]
    rfl
  · have hmn : m < n := by
      exact_mod_cast (mul_lt_mul_iff_left₀ (zpow_pos two_pos e)).mp h
    rw [compare_eq_iff_eq.mpr rfl, compare_lt_iff_lt.mpr hmn]
    rfl
  · exact absurd (hc'.lt_of_exponent_lt hc hgt) h.asymm

end MailScreen.RateLimit
