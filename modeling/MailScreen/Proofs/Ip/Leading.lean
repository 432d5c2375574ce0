import MailScreen.Ip.Network
import Mathlib.Algebra.Group.Nat.Defs

/-!
# Leading bits

What the tests on the first bits of addresses mean, bit by bit and as ranges of addresses.

* `Address.SameLead n a b`: both addresses are of one family and have the same first `n` bits.
  `agree_iff` and `clearAfter_eq_iff`: this is what shifting the other bits out tests, and when
  clearing the other bits leaves the same address.
* `Network.contains_iff_between`: a network holds the addresses of its family from the one in which
  all bits after its length are clear to the one in which they are set, whatever bits are written
  there.
-/

namespace MailScreen.Ip

/-! ## Words -/

section Words

variable {w n : Nat} {a b : BitVec w}

/-- Where a bit of a word is after a shift. -/
theorem getMsbD_shifted (a : BitVec w) (k i : Nat) :
    (a >>> k).getMsbD (i + k) = (decide (i + k < w) && a.getMsbD i) := by
  have hnot : ¬ i + k < k := Nat.not_lt.mpr (Nat.le_add_left k i)
  rw [BitVec.getMsbD_ushiftRight, decide_eq_false hnot, Nat.add_sub_cancel, Bool.not_false,
    Bool.true_and]

/-- **Words that are equal after a shift** have the same bits before it. -/
theorem ushiftRight_eq_iff :
    a >>> (w - n) = b >>> (w - n) ↔ ∀ i < n, a.getMsbD i = b.getMsbD i := by
  constructor
  · intro h i hi
    by_cases hw : i < w
    · have hbit := congrArg (·.getMsbD (i + (w - n))) h
      simpa only [getMsbD_shifted, decide_eq_true (show i + (w - n) < w by omega),
        Bool.true_and] using hbit
    · rw [BitVec.getMsbD_of_ge _ _ (by omega), BitVec.getMsbD_of_ge _ _ (by omega)]
  · intro h
    refine BitVec.eq_of_getMsbD_eq fun i hi => ?_
    rw [BitVec.getMsbD_ushiftRight, BitVec.getMsbD_ushiftRight]
    by_cases hlow : i < w - n
    · simp [hlow]
    · rw [h (i - (w - n)) (by omega)]

/-- Shifting back loses nothing more. -/
theorem cleared_eq_iff {k : Nat} :
    a >>> k <<< k = b >>> k <<< k ↔ a >>> k = b >>> k := by
  refine ⟨fun h => ?_, fun h => by rw [h]⟩
  refine BitVec.eq_of_getMsbD_eq fun i hi => ?_
  by_cases hlow : i < k
  · rw [BitVec.getMsbD_ushiftRight, BitVec.getMsbD_ushiftRight]
    simp [hlow]
  · have hbit := congrArg (·.getMsbD (i - k)) h
    simpa [BitVec.getMsbD_shiftLeft, show i - k + k = i by omega] using hbit

/-- A number with its last `k` bits set. -/
theorem or_two_pow_sub_one (x k : Nat) : x ||| (2 ^ k - 1) = 2 ^ k * (x / 2 ^ k) + (2 ^ k - 1) := by
  have hpos : 0 < 2 ^ k := Nat.two_pow_pos k
  rw [Nat.two_pow_add_eq_or_of_lt (by omega)]
  refine Nat.eq_of_testBit_eq fun i => ?_
  rw [Nat.testBit_or, Nat.testBit_or, Nat.testBit_two_pow_sub_one, Nat.testBit_two_pow_mul,
    Nat.testBit_div_two_pow]
  by_cases hi : i < k
  · simp [hi]
  · simp [hi, show k ≤ i by omega, show i - k + k = i by omega]

/-- **Words that are equal after a shift** are those from the one with all bits behind it clear to
the one with all of them set. -/
theorem ushiftRight_eq_iff_between (hn : n ≤ w) : a >>> (w - n) = b >>> (w - n) ↔
    (a >>> (w - n) <<< (w - n)).toNat ≤ b.toNat ∧
      b.toNat ≤ (a ||| BitVec.allOnes w >>> n).toNat := by
  have hpos : 0 < 2 ^ (w - n) := Nat.two_pow_pos (w - n)
  have hones : (BitVec.allOnes w >>> n).toNat = 2 ^ (w - n) - 1 := by
    refine Nat.eq_of_testBit_eq fun i => ?_
    rw [BitVec.testBit_toNat, BitVec.getLsbD_ushiftRight, BitVec.getLsbD_allOnes,
      Nat.testBit_two_pow_sub_one]
    exact decide_eq_decide.mpr (by omega)
  have hclear : (a >>> (w - n) <<< (w - n)).toNat = 2 ^ (w - n) * (a.toNat / 2 ^ (w - n)) := by
    have hle := Nat.mul_div_le a.toNat (2 ^ (w - n))
    rw [BitVec.toNat_shiftLeft, BitVec.toNat_ushiftRight, Nat.shiftRight_eq_div_pow,
      Nat.shiftLeft_eq, Nat.mul_comm, Nat.mod_eq_of_lt (Nat.lt_of_le_of_lt hle a.isLt)]
  rw [BitVec.toNat_or, hones, or_two_pow_sub_one, hclear, ← BitVec.toNat_inj,
    BitVec.toNat_ushiftRight, BitVec.toNat_ushiftRight, Nat.shiftRight_eq_div_pow,
    Nat.shiftRight_eq_div_pow]
  rw [eq_comm, Nat.div_eq_iff hpos, Nat.mul_comm _ (2 ^ (w - n)), Nat.add_sub_assoc hpos]

end Words

/-! ## Addresses -/

namespace Address

/-- A bit of an address, counted from the first. -/
def leadingBit : Address → Nat → Bool
  | v4 bits, i => bits.getMsbD i
  | v6 bits, i => bits.getMsbD i

/-- The addresses are of one family, and their first `n` bits are the same. -/
def SameLead (n : Nat) (a b : Address) : Prop :=
  a.width = b.width ∧ ∀ i < n, a.leadingBit i = b.leadingBit i

instance (n : Nat) (a b : Address) : Decidable (SameLead n a b) :=
  inferInstanceAs (Decidable (_ ∧ _))

variable {n : Nat} {a b : Address}

/-- **Shifting tests the leading bits**, also if no bit or every bit is one of them. -/
theorem agree_iff : a.agree n b = true ↔ SameLead n a b := by
  cases a <;> cases b <;> simp [agree, SameLead, width, leadingBit, ushiftRight_eq_iff]

theorem SameLead.symm (h : SameLead n a b) : SameLead n b a :=
  ⟨h.1.symm, fun i hi => (h.2 i hi).symm⟩

/-- **The leading bits alone are left** when the others are cleared. -/
theorem clearAfter_eq_iff : a.clearAfter n = b.clearAfter n ↔ SameLead n a b := by
  rw [← agree_iff]
  cases a <;> cases b <;> simp [agree, clearAfter, cleared_eq_iff]

/-- The address with all bits after the first `n` set. -/
def setAfter (n : Nat) : Address → Address
  | v4 a => v4 (a ||| BitVec.allOnes 32 >>> n)
  | v6 a => v6 (a ||| BitVec.allOnes 128 >>> n)

/-- The number that an address is among those of its family. -/
def number : Address → Nat
  | v4 bits => bits.toNat
  | v6 bits => bits.toNat

end Address

/-- **A network is a range of addresses**, whatever stands in its address after the length. -/
theorem Network.contains_iff_between (net : Network) (a : Address) : net.contains a = true ↔
    net.address.width = a.width ∧ (net.address.clearAfter net.length).number ≤ a.number ∧
      a.number ≤ (net.address.setAfter net.length).number := by
  obtain ⟨address, length, hle⟩ := net
  cases address with
  | v4 bits =>
    cases a with
    | v4 other =>
      show (bits >>> (32 - length) == other >>> (32 - length)) = true ↔ 32 = 32 ∧ _
      rw [beq_iff_eq, ushiftRight_eq_iff_between (w := 32) hle, eq_self, true_and]
      rfl
    | v6 other => simp [contains, Address.agree, Address.width]
  | v6 bits =>
    cases a with
    | v4 other => simp [contains, Address.agree, Address.width]
    | v6 other =>
      show (bits >>> (128 - length) == other >>> (128 - length)) = true ↔ 128 = 128 ∧ _
      rw [beq_iff_eq, ushiftRight_eq_iff_between (w := 128) hle, eq_self, true_and]
      rfl

end MailScreen.Ip
