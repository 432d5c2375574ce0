import MailScreen.Proofs.RateLimit.Floats

/-!
# Sums of floats

The sum of two floats is rounded to the nearest float, and of two that are equally near to the one
with the even mantissa. A limiter asks whether what is in a bucket and its tolerance make one token.
Both the sum and the tolerance are rounded, and the answer is right all the same.

* `Tells` is what a mantissa that was shifted knows of a number. `Tells.shiftRight`: shifting keeps
  it; `Tells.le_roundedMantissa_iff`: it is all that rounding needs.
* `Rounds` relates a number to the mantissa and the exponent that it is rounded to, and
  `rounds_round` finds them.
* `one_le_normalize_iff`: which sums are rounded to one or more.
* `one_le_add_slack_iff`: with the tolerance added, a float is one or more just if the number that
  it stands for falls short of one by no more than a billionth, or it is infinite.
-/

namespace MailScreen.RateLimit

open Float.Model Float.Model.UnpackedFloat

/-! ## Mantissas that are shifted -/

/-- **What a mantissa and its two bits tell of a number**: the whole part of it, whether it lies in
the lower or the upper half behind that, and whether it lies between two halves. -/
structure Tells (em : ExtendedMantissa) (x : Rat) : Prop where
  low : (em.mantissa : Rat) ≤ x
  high : x < em.mantissa + 1
  round : em.roundBit = true ↔ em.mantissa + 1 / 2 ≤ x
  sticky : em.stickyBit = true ↔ x ≠ em.mantissa ∧ x ≠ em.mantissa + 1 / 2

namespace Tells

variable {em : ExtendedMantissa} {x : Rat}

theorem exact (m : Nat) : Tells (.ofMantissaAndAccuracy m .exact) m where
  low := le_refl (m : Rat)
  high := lt_add_one (m : Rat)
  round := by simp [ExtendedMantissa.ofMantissaAndAccuracy]
  sticky := by simp [ExtendedMantissa.ofMantissaAndAccuracy]

/-- One of the two bits is set just if there is anything behind the whole part. -/
theorem bits_iff (h : Tells em x) : (em.roundBit || em.stickyBit) = true ↔ x ≠ em.mantissa := by
  rw [Bool.or_eq_true, h.round, h.sticky]
  constructor
  · rintro (hround | ⟨hne, -⟩)
    · intro heq
      linarith
    · exact hne
  · intro hne
    by_cases hhalf : x = em.mantissa + 1 / 2
    · exact .inl hhalf.ge
    · exact .inr ⟨hne, hhalf⟩

/-- Half of a mantissa tells of half of the number. -/
theorem shiftRightOne (h : Tells em x) : Tells em.shiftRightOne (x / 2) := by
  obtain ⟨q, hq⟩ : ∃ q, q = em.mantissa / 2 := ⟨_, rfl⟩
  have hlow := h.low
  have hhigh := h.high
  -- the last bit of the mantissa becomes the one that tells the halves apart
  suffices hhalves : (q : Rat) ≤ x / 2 ∧ x / 2 < q + 1 ∧
      ((em.mantissa % 2 != 0) = true ↔ q + 1 / 2 ≤ x / 2) ∧
      (x ≠ em.mantissa ↔ x / 2 ≠ q ∧ x / 2 ≠ q + 1 / 2) by
    obtain ⟨hlow, hhigh, hround, hsticky⟩ := hhalves
    rw [hq] at hlow hhigh hround hsticky
    exact ⟨hlow, hhigh, hround, h.bits_iff.trans hsticky⟩
  rcases Nat.mod_two_eq_zero_or_one em.mantissa with hbit | hbit
  · have hm : (em.mantissa : Rat) = 2 * q := by exact_mod_cast (by omega : em.mantissa = 2 * q)
    refine ⟨by linarith, by linarith, ?_, ?_⟩
    · rw [hbit]
      exact ⟨fun h => absurd h (by decide), fun h => by linarith⟩
    · exact ⟨fun hne => ⟨fun heq => hne (by linarith), fun heq => by linarith⟩,
        fun hne heq => hne.1 (by linarith)⟩
  · have hm : (em.mantissa : Rat) = 2 * q + 1 := by
      exact_mod_cast (by omega : em.mantissa = 2 * q + 1)
    refine ⟨by linarith, by linarith, ?_, ?_⟩
    · rw [hbit]
      exact ⟨fun _ => by linarith, fun _ => by decide⟩
    · exact ⟨fun hne => ⟨fun heq => by linarith, fun heq => hne (by linarith)⟩,
        fun hne heq => hne.2 (by linarith)⟩

theorem shiftRight (h : Tells em x) (n : Nat) : Tells (em >>> n) (x / 2 ^ n) := by
  show Tells (n.repeat ExtendedMantissa.shiftRightOne em) (x / 2 ^ n)
  induction n with
  | zero => simpa [Nat.repeat] using h
  | succ n ih =>
    rw [pow_succ, ← div_div]
    exact ih.shiftRightOne

theorem roundedMantissa_of_lower (hround : em.roundBit = false) :
    em.roundedMantissa = em.mantissa := by
  obtain ⟨m, r, s⟩ := em
  obtain rfl : r = false := hround
  cases s <;> rfl

/-- In the upper half, or in the middle with an odd whole part, the mantissa goes up. -/
theorem le_roundedMantissa_of_upper (hround : em.roundBit = true) {n : Nat} (hn : n % 2 = 0) :
    n ≤ em.roundedMantissa ↔ n ≤ em.mantissa + 1 := by
  obtain ⟨m, r, s⟩ := em
  obtain rfl : r = true := hround
  cases s with
  | false =>
    show n ≤ m + m % 2 ↔ n ≤ m + 1
    omega
  | true => exact Iff.rfl

theorem roundedMantissa_le (em : ExtendedMantissa) : em.roundedMantissa ≤ em.mantissa + 1 := by
  obtain ⟨m, r, s⟩ := em
  cases r with
  | false => exact (roundedMantissa_of_lower rfl).le.trans (Nat.le_succ m)
  | true =>
    cases s with
    | false =>
      show m + m % 2 ≤ m + 1
      omega
    | true => exact le_refl (m + 1)

/-- **Rounding to the nearest number**, and to an even one in the middle between two: an even number
is reached from one half below it on. -/
theorem le_roundedMantissa_iff (h : Tells em x) {n : Nat} (hn : n % 2 = 0) :
    n ≤ em.roundedMantissa ↔ (n : Rat) - 1 / 2 ≤ x := by
  have hlow := h.low
  have hhigh := h.high
  cases hround : em.roundBit with
  | false =>
    have hhalf : x < em.mantissa + 1 / 2 := by
      refine not_le.mp fun hle => ?_
      rw [h.round.mpr hle] at hround
      cases hround
    rw [roundedMantissa_of_lower hround]
    constructor
    · intro hle
      have : (n : Rat) ≤ em.mantissa := by exact_mod_cast hle
      linarith
    · intro hle
      have : (n : Rat) < (em.mantissa + 1 : Nat) := by push_cast; linarith
      exact Nat.lt_add_one_iff.mp (by exact_mod_cast this)
  | true =>
    have hhalf := h.round.mp hround
    rw [le_roundedMantissa_of_upper hround hn]
    constructor
    · intro hle
      have : (n : Rat) ≤ (em.mantissa + 1 : Nat) := by exact_mod_cast hle
      push_cast at this
      linarith
    · intro hle
      have : (n : Rat) < (em.mantissa + 2 : Nat) := by push_cast; linarith
      exact Nat.lt_add_one_iff.mp (by exact_mod_cast this)

end Tells

/-! ## Numbers that are rounded -/

/-- A mantissa and an exponent once they are rounded; the mantissa may have become one bit too
long. -/
def settled (s : Sign) (n : Nat) (t : Int) : UnpackedFloat :=
  if h : n = 0 then .zero s
  else if n < 2 ^ 53 then .finite s n t (Nat.pos_of_ne_zero h)
  else .finite s (2 ^ 52) (t + 1) (by decide)

/-- **A number and the mantissa and exponent that it is rounded to.** -/
structure Rounds (v : Rat) (n : Nat) (t : Int) : Prop where
  low : -1074 ≤ t
  full : 2 ^ 52 * (2 : Rat) ^ t ≤ v ∨ t = -1074
  lt : v < 2 ^ 53 * (2 : Rat) ^ t
  le : n ≤ 2 ^ 53
  le_iff : ∀ k : Nat, k % 2 = 0 → (k ≤ n ↔ ((k : Rat) - 1 / 2) * (2 : Rat) ^ t ≤ v)

theorem targetExponent_eq (m : Nat) (e : Int) :
    Format.binary64.targetExponent (totalExponent m e) = max ((m.log2 : Int) + e - 52) (-1074) := by
  show max ((m.log2 : Int) + 1 + e - 53) (-1074) = _
  congr 1
  omega

theorem shiftToTargetExponent_of_le {m : Nat} {e : Int}
    (h : max ((m.log2 : Int) + e - 52) (-1074) ≤ e) :
    shiftToTargetExponent Format.binary64 m e .exact = (⟨m, false, false⟩, e) := by
  have hshift : (max ((m.log2 : Int) + e - 52) (-1074) - e).toNat = 0 := by omega
  simp only [shiftToTargetExponent, shiftToExponent, targetExponent_eq, hshift]
  simp [HShiftRight.hShiftRight, Nat.repeat, ExtendedMantissa.ofMantissaAndAccuracy]

theorem shiftToTargetExponent_of_long {e : Int} (h : -1074 ≤ e) :
    shiftToTargetExponent Format.binary64 (2 ^ 53) e .exact = (⟨2 ^ 52, false, false⟩, e + 1) := by
  have hlog : (2 ^ 53 : Nat).log2 = 53 := Nat.log2_two_pow
  have hshift : (max (((2 ^ 53 : Nat).log2 : Int) + e - 52) (-1074) - e).toNat = 1 := by
    rw [hlog]
    omega
  simp only [shiftToTargetExponent, shiftToExponent, targetExponent_eq, hshift]
  rfl

/-- After the first shift the mantissa is rounded, and another shift makes room for it if it needs
one more bit. -/
theorem roundWithAccuracy_eq {s : Sign} {m : Nat} {e : Int} {em : ExtendedMantissa} {t : Int}
    (hfirst : shiftToTargetExponent Format.binary64 m e .exact = (em, t)) (ht : -1074 ≤ t)
    (hle : em.roundedMantissa ≤ 2 ^ 53) :
    roundWithAccuracy Format.binary64 s m e .exact = settled s em.roundedMantissa t := by
  rw [roundWithAccuracy, hfirst]
  simp only
  rcases hle.lt_or_eq with hlt | heq
  · have hlog : em.roundedMantissa.log2 ≤ 52 := by
      rcases Nat.eq_zero_or_pos em.roundedMantissa with hzero | hpos
      · rw [hzero]
        decide
      · exact Nat.lt_succ_iff.mp ((Nat.log2_lt hpos.ne').mpr hlt)
    rw [shiftToTargetExponent_of_le (by omega), settled]
    simp only [hlt, if_true]
  · rw [heq, shiftToTargetExponent_of_long ht, settled]
    rfl

/-- What a number is rounded to, from a mantissa that is not too short. -/
theorem rounds_roundWithAccuracy (s : Sign) {m : Nat} (hm : 0 < m) {e : Int}
    (he : e ≤ max ((m.log2 : Int) + e - 52) (-1074)) :
    ∃ n t, roundWithAccuracy Format.binary64 s m e .exact = settled s n t ∧
      Rounds (m * (2 : Rat) ^ e) n t := by
  obtain ⟨t, ht⟩ : ∃ t, t = max ((m.log2 : Int) + e - 52) (-1074) := ⟨_, rfl⟩
  obtain ⟨k, hk⟩ : ∃ k : Nat, t = e + k := ⟨(t - e).toNat, by omega⟩
  let em := ExtendedMantissa.ofMantissaAndAccuracy m .exact >>> k
  have hfirst : shiftToTargetExponent Format.binary64 m e .exact = (em, t) := by
    have hshift : (max ((m.log2 : Int) + e - 52) (-1074) - e).toNat = k := by omega
    simp only [shiftToTargetExponent, shiftToExponent, targetExponent_eq, hshift, hk, em]
  have htells : Tells em (m / 2 ^ k) := (Tells.exact m).shiftRight k
  have hpow : (2 : Rat) ^ t = 2 ^ e * 2 ^ k := by
    rw [hk, zpow_add₀ two_ne_zero, zpow_natCast]
  have hvalue : m * (2 : Rat) ^ e = m / 2 ^ k * 2 ^ t := by
    rw [hpow]
    field_simp
  have hpos : (0 : Rat) < 2 ^ t := zpow_pos two_pos t
  have hshort : (m : Rat) / 2 ^ k < 2 ^ 53 := by
    rw [div_lt_iff₀ (pow_pos two_pos k), ← pow_add]
    have hlog : m < 2 ^ (m.log2 + 1) := Nat.lt_log2_self
    have hbits : m < 2 ^ (53 + k) := hlog.trans_le (Nat.pow_le_pow_right two_pos (by omega))
    exact_mod_cast hbits
  have hle : em.roundedMantissa ≤ 2 ^ 53 := by
    have hmantissa : (em.mantissa : Rat) < (2 ^ 53 : Nat) := by
      push_cast
      exact htells.low.trans_lt hshort
    exact (Tells.roundedMantissa_le em).trans (Nat.cast_lt.mp hmantissa)
  refine ⟨em.roundedMantissa, t, roundWithAccuracy_eq hfirst (by omega) hle, ?_⟩
  rw [hvalue]
  refine ⟨by omega, ?_, mul_lt_mul_of_pos_right hshort hpos, hle, fun n hn => ?_⟩
  · by_cases hleast : t = -1074
    · exact .inr hleast
    · left
      refine mul_le_mul_of_nonneg_right ?_ hpos.le
      rw [le_div_iff₀ (pow_pos two_pos k), ← pow_add]
      have hlog : 52 + k = m.log2 := by omega
      rw [hlog]
      exact_mod_cast Nat.log2_self_le hm.ne'
  · rw [htells.le_roundedMantissa_iff hn, mul_le_mul_iff_left₀ hpos]

theorem log2_mul_two_pow {m : Nat} (hm : m ≠ 0) (k : Nat) : (m * 2 ^ k).log2 = m.log2 + k := by
  induction k with
  | zero => rw [pow_zero, mul_one, Nat.add_zero]
  | succ k ih =>
    rw [pow_succ', mul_left_comm, Nat.log2_two_mul (mul_ne_zero hm (by positivity)), ih, add_assoc]

/-- **What a number is rounded to.** -/
theorem rounds_round (s : Sign) {m : Nat} (hm : 0 < m) (e : Int) :
    ∃ n t, UnpackedFloat.round Format.binary64 s m e = settled s n t ∧
      Rounds (m * (2 : Rat) ^ e) n t := by
  -- a short mantissa gets more bits first, and the number stays
  obtain ⟨k, hk⟩ : ∃ k, k = (e - max ((m.log2 : Int) + e - 52) (-1074)).toNat := ⟨_, rfl⟩
  have hdecrease : UnpackedFloat.round Format.binary64 s m e =
      roundWithAccuracy Format.binary64 s (m <<< k) (e - k) .exact := by
    simp only [UnpackedFloat.round, decreaseExponent, targetExponent_eq, hk]
  have hvalue : (m : Rat) * 2 ^ e = (m <<< k : Nat) * (2 : Rat) ^ (e - k) := by
    rw [Nat.shiftLeft_eq, zpow_sub₀ two_ne_zero, zpow_natCast]
    push_cast
    field_simp
  have hlog : (m <<< k).log2 = m.log2 + k := by
    rw [Nat.shiftLeft_eq, log2_mul_two_pow hm.ne']
  rw [hdecrease, hvalue]
  exact rounds_roundWithAccuracy s (Nat.shiftLeft_pos_iff.mpr hm) (by omega)

/-- **The sum of two numbers**, before it is rounded. -/
theorem exists_add_eq_normalize (s s' : Sign) {m n : Nat} {e f : Int} (hm : 0 < m) (hn : 0 < n) :
    ∃ k low : Int, UnpackedFloat.add Format.binary64 (.finite s m e hm) (.finite s' n f hn) =
        UnpackedFloat.normalize Format.binary64 k low .positive ∧
      k * (2 : Rat) ^ low =
        (s.apply m : Int) * (2 : Rat) ^ e + (s'.apply n : Int) * (2 : Rat) ^ f := by
  obtain ⟨low, hlow⟩ : ∃ low, low = min e f := ⟨_, rfl⟩
  obtain ⟨a, ha⟩ : ∃ a : Nat, e = low + a := ⟨(e - low).toNat, by omega⟩
  obtain ⟨b, hb⟩ : ∃ b : Nat, f = low + b := ⟨(f - low).toNat, by omega⟩
  have hfirst : (e - low).toNat = a := by omega
  have hsecond : (f - low).toNat = b := by omega
  have happly (s : Sign) (n k : Nat) : ((s.apply (n <<< k : Nat) : Int) : Rat) =
      (s.apply n : Int) * 2 ^ k := by
    rw [Nat.shiftLeft_eq]
    cases s with
    | negative =>
      show ((-((n * 2 ^ k : Nat) : Int) : Int) : Rat) = ((-(n : Int) : Int) : Rat) * 2 ^ k
      push_cast
      ring
    | positive =>
      show (((n * 2 ^ k : Nat) : Int) : Rat) = ((n : Int) : Rat) * 2 ^ k
      push_cast
      rfl
  refine ⟨s.apply (m <<< a : Nat) + s'.apply (n <<< b : Nat), low, ?_, ?_⟩
  · simp only [UnpackedFloat.add, decreaseExponent, ← hlow, hfirst, hsecond]
  · rw [ha, hb, zpow_add₀ two_ne_zero, zpow_add₀ two_ne_zero, zpow_natCast, zpow_natCast,
      Int.cast_add, happly, happly]
    ring

/-! ## One, and what is below it -/

theorem float_le_iff {x y : Float} : x ≤ y ↔ x.toModel.unpack.le y.toModel.unpack = true := by
  show decide (x.toModel ≤ y.toModel) = true ↔ _
  rw [decide_eq_true_iff]
  rfl

theorem unpack_one :
    (1 : Float).toModel.unpack = .finite .positive (2 ^ 52) (-52) (by decide) := rfl

/-- A float is at least one just if its last bit counts for no less than that of one. -/
theorem one_le_pack_iff {m : Nat} {e : Int} {hm : 0 < m} (hc : IsCanonical m e) :
    (1 : Float).toModel.unpack.le (Float.Model.pack (.finite .positive m e hm)).unpack = true ↔
      -52 ≤ e := by
  rw [unpack_one]
  rcases lt_or_ge e 972 with hfits | hlarge
  · rw [unpack_pack hc (by omega)]
    show ((compare (-52) e).then (compare (2 ^ 52) m)).isLE = true ↔ -52 ≤ e
    rcases lt_trichotomy (-52) e with hlt | rfl | hgt
    · rw [compare_lt_iff_lt.mpr hlt]
      exact ⟨fun _ => hlt.le, fun _ => rfl⟩
    · have hbits : 2 ^ 52 ≤ m := hc.full.resolve_right (by decide)
      rw [compare_eq_iff_eq.mpr rfl]
      exact ⟨fun _ => le_rfl, fun _ => Nat.isLE_compare.mpr hbits⟩
    · rw [compare_gt_iff_gt.mpr hgt]
      exact ⟨fun h => absurd h Bool.false_ne_true, fun h => by omega⟩
  · rw [unpack_pack_of_large hlarge]
    exact ⟨fun _ => by omega, fun _ => rfl⟩

/-- A float below zero is not. -/
theorem not_one_le_pack_negative {m : Nat} {e : Int} {hm : 0 < m} (hc : IsCanonical m e) :
    (1 : Float).toModel.unpack.le (Float.Model.pack (.finite .negative m e hm)).unpack = false := by
  rw [unpack_one]
  rcases lt_or_ge e 972 with hfits | hlarge
  · rw [unpack_pack hc (by omega)]
    rfl
  · rw [unpack_pack_of_large hlarge]
    rfl

namespace Rounds

variable {v : Rat} {n : Nat} {t : Int} (h : Rounds v n t)

include h

/-- No bit is lost unless the exponent is the least one. -/
theorem two_pow_le : 2 ^ 52 ≤ n ∨ t = -1074 := by
  refine h.full.imp_left fun hfull => (h.le_iff (2 ^ 52) (by decide)).mpr (le_trans ?_ hfull)
  refine mul_le_mul_of_nonneg_right ?_ (zpow_pos two_pos t).le
  norm_num

theorem one_le_pack_settled_iff :
    (1 : Float).toModel.unpack.le (Float.Model.pack (settled .positive n t)).unpack = true ↔
      (n ≠ 0 ∧ n < 2 ^ 53 ∧ -52 ≤ t) ∨ (2 ^ 53 ≤ n ∧ -53 ≤ t) := by
  unfold settled
  split_ifs with hzero hlt
  · rw [unpack_pack_zero, unpack_one]
    refine ⟨fun h => absurd h (by decide), ?_⟩
    rintro (⟨hne, -⟩ | ⟨hle, -⟩)
    · exact absurd hzero hne
    · omega
  · rw [one_le_pack_iff ⟨hlt, h.low, h.two_pow_le⟩]
    omega
  · have hlow := h.low
    rw [one_le_pack_iff ⟨by decide, by omega, .inl le_rfl⟩]
    omega

/-- **A number is rounded to one or more** just if no float below one is nearer to it. -/
theorem one_le_settled_iff :
    (1 : Float).toModel.unpack.le (Float.Model.pack (settled .positive n t)).unpack = true ↔
      1 - 1 / 2 ^ 54 ≤ v := by
  rw [h.one_le_pack_settled_iff]
  rcases lt_trichotomy t (-53) with hlt | rfl | hgt
  · have hsmall : v < 1 / 2 := h.lt.trans_le (mul_zpow_le_half hlt)
    exact ⟨fun h => by omega, fun h => by norm_num at h; linarith⟩
  · have hiff := h.le_iff (2 ^ 53) (by decide)
    have hmiddle : ((2 ^ 53 : Nat) - 1 / 2 : Rat) * 2 ^ (-53 : Int) = 1 - 1 / 2 ^ 54 := by norm_num
    rw [hmiddle] at hiff
    rw [← hiff]
    omega
  · have hlarge : 1 ≤ v := (one_le_mul_zpow hgt).trans (h.full.resolve_right (by omega))
    have hbits : 2 ^ 52 ≤ n := h.two_pow_le.resolve_right (by omega)
    exact ⟨fun _ => by norm_num; linarith, fun _ => by omega⟩

theorem not_one_le_settled_negative :
    (1 : Float).toModel.unpack.le (Float.Model.pack (settled .negative n t)).unpack = false := by
  unfold settled
  split_ifs with hzero hlt
  · rw [unpack_pack_zero]
    rfl
  · exact not_one_le_pack_negative ⟨hlt, h.low, h.two_pow_le⟩
  · have hlow := h.low
    exact not_one_le_pack_negative ⟨by decide, by omega, .inl le_rfl⟩

end Rounds

/-- **A sum is rounded to one or more** just if no float below one is nearer to it. -/
theorem one_le_normalize_iff (k low : Int) (s : Sign) :
    (1 : Float).toModel.unpack.le
      (Float.Model.pack (UnpackedFloat.normalize Format.binary64 k low s)).unpack = true ↔
        1 - 1 / 2 ^ 54 ≤ k * (2 : Rat) ^ low := by
  have hpow : (0 : Rat) < 2 ^ low := zpow_pos two_pos low
  rcases lt_trichotomy k 0 with hneg | rfl | hpos
  · obtain ⟨n, t, hround, hrounds⟩ := rounds_round .negative (by omega : 0 < (-k).toNat) low
    have hnormalize : UnpackedFloat.normalize Format.binary64 k low s = settled .negative n t := by
      rw [← hround]
      simp only [UnpackedFloat.normalize, compare_lt_iff_lt.mpr hneg]
    have hvalue : (k : Rat) * 2 ^ low < 0 := mul_neg_of_neg_of_pos (by exact_mod_cast hneg) hpow
    rw [hnormalize, hrounds.not_one_le_settled_negative]
    exact iff_of_false Bool.false_ne_true (by norm_num; linarith)
  · have hnormalize : UnpackedFloat.normalize Format.binary64 0 low s = .zero s := rfl
    rw [hnormalize, unpack_pack_zero]
    exact iff_of_false Bool.false_ne_true (by norm_num)
  · obtain ⟨n, t, hround, hrounds⟩ := rounds_round .positive (by omega : 0 < k.toNat) low
    have hnormalize : UnpackedFloat.normalize Format.binary64 k low s = settled .positive n t := by
      rw [← hround]
      simp only [UnpackedFloat.normalize, compare_gt_iff_gt.mpr hpos]
    have hvalue : ((k.toNat : Nat) : Rat) = k := by exact_mod_cast Int.toNat_of_nonneg hpos.le
    rw [hnormalize, hrounds.one_le_settled_iff, hvalue]

/-! ## The tolerance of a limiter -/

/-- Among the numbers that floats stand for, being rounded to one with the tolerance added, and
lying no further below one than the tolerance was meant to reach, is the same. -/
theorem IsCanonical.near_one_iff {m : Nat} {e : Int} (h : IsCanonical m e) :
    1 - 1 / 2 ^ 54 ≤ m * (2 : Rat) ^ e + (4835703278458517 : Nat) * (2 : Rat) ^ (-82 : Int) ↔
      1 - 1 / 1000000000 ≤ m * (2 : Rat) ^ e := by
  have hslack : ((4835703278458517 : Nat) : Rat) * (2 : Rat) ^ (-82 : Int) =
      4835703278458517 / 4835703278458516698824704 := by norm_num
  rw [hslack]
  rcases lt_trichotomy e (-53) with hlt | rfl | hgt
  · have hsmall := h.lt_half hlt
    constructor <;> intro hle <;> norm_num at hle <;> linarith
  · -- both hold from the same mantissa on
    have hvalue : m * (2 : Rat) ^ (-53 : Int) = m / 9007199254740992 := by
      norm_num
      ring
    rw [hvalue]
    rcases Nat.lt_or_ge m 9007199245733793 with hbelow | habove
    · have hm : (m : Rat) ≤ 9007199245733792 := by exact_mod_cast Nat.lt_succ_iff.mp hbelow
      constructor <;> intro hle <;> norm_num at hle <;> linarith
    · have hm : (9007199245733793 : Rat) ≤ m := by exact_mod_cast habove
      constructor <;> intro _ <;> norm_num <;> linarith
  · have hlarge := h.one_le hgt
    constructor <;> intro _ <;> norm_num <;> linarith

/-- **With the tolerance added**, a float is one or more just if the number that it stands for falls
short of one by no more than a billionth, or it is infinite. -/
theorem one_le_add_slack_iff (x : Float) :
    (1 : Float) ≤ x + Amount.slack ↔
      x.toModel.unpack = .infinity .positive ∨ 1 - 1 / 1000000000 ≤ valueOf x := by
  have hsum : (x + Amount.slack).toModel.unpack =
      (Float.Model.pack (.add .binary64 x.toModel.unpack
        (.finite .positive 4835703278458517 (-82) (by decide)))).unpack := rfl
  rw [float_le_iff, hsum, valueOf]
  have hzero : ¬(1 - 1 / 1000000000 ≤ (0 : Rat)) := by norm_num
  cases hx : x.toModel.unpack with
  | infinity sign =>
    show (1 : Float).toModel.unpack.le (Float.Model.pack (.infinity sign)).unpack = true ↔ _
    rw [unpack_pack_infinity]
    cases sign with
    | negative => exact iff_of_false Bool.false_ne_true (not_or.mpr ⟨by simp, hzero⟩)
    | positive => exact iff_of_true rfl (.inl rfl)
  | notANumber => exact iff_of_false (by decide) (not_or.mpr ⟨by simp, hzero⟩)
  | zero sign => exact iff_of_false (by cases sign <;> decide) (not_or.mpr ⟨by simp, hzero⟩)
  | finite sign m e hm =>
    obtain ⟨hc, -⟩ := isCanonical_of_unpack hx
    obtain ⟨k, low, hadd, hvalue⟩ :=
      @exists_add_eq_normalize sign .positive m 4835703278458517 e (-82) hm (by decide)
    have hne : UnpackedFloat.finite sign m e hm ≠ .infinity .positive := by simp
    rw [hadd, one_le_normalize_iff, hvalue, or_iff_right hne]
    cases sign with
    | negative =>
      have hneg := apply_negative_mul_neg hm e
      have hslack : ((Sign.positive.apply (4835703278458517 : Nat) : Int) : Rat) * 2 ^ (-82 : Int) <
          1 / 2 := by
        show (((4835703278458517 : Nat) : Int) : Rat) * 2 ^ (-82 : Int) < 1 / 2
        norm_num
      exact iff_of_false (by norm_num; linarith) (by norm_num; linarith)
    | positive => exact hc.near_one_iff

end MailScreen.RateLimit
