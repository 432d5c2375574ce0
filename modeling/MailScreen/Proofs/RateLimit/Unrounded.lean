import MailScreen.Config.Valid
import Mathlib.Algebra.Order.Field.Power
import Mathlib.Algebra.Order.Field.Rat
import Mathlib.Tactic.Positivity
import Mathlib.Tactic.SplitIfs

/-!
# Limits that are not rounded

Settings give the limits of buckets as binary floats. Every finite float stands for a rational
number, and a limiter that counts in rational numbers rounds nothing.

* `valueOf` is the number that a float stands for; `valueOf_pos`: it is above zero if the float is.
* `exists_unpack_of_isPositive`: what a float above zero is made of.
* `Limiter.ofSettings` is the limiter that the settings ask for, with their limits read so.
* `isUsable_ofSettings`: settings that are not refused give buckets that can hold and gain tokens.
-/

namespace MailScreen

/-- Settings that are not refused have limits that can be used. -/
theorem Config.isUsable_of_check {c : Config} (h : c.check = .ok ()) :
    isUsable c.rateLimit.client = true ∧ isUsable c.rateLimit.identity = true := by
  have hfault := check_eq_ok_iff.mp h
  unfold fault? at hfault
  split_ifs at hfault with hthresholds hclient hidentity
  · exact ⟨by simpa using hclient, by simpa using hidentity⟩
  · exact ⟨by simpa using hclient, by simpa using hidentity⟩

namespace RateLimit

/-! ## Floats as numbers -/

/-- The number that a float stands for. What is infinite, or not a number, stands for none. -/
def valueOf (x : Float) : Rat :=
  match x.toModel.unpack with
  | .finite sign mantissa exponent _ => (sign.apply mantissa : Int) * (2 : Rat) ^ exponent
  | _ => 0

theorem unpack_zero : (0 : Float).toModel.unpack = .zero .positive := rfl

theorem float_lt_iff {x y : Float} : x < y ↔ x.toModel.unpack.lt y.toModel.unpack = true := by
  show decide (x.toModel < y.toModel) = true ↔ _
  rw [decide_eq_true_iff]
  rfl

/-- **A float above zero** is made of a mantissa and an exponent. -/
theorem exists_unpack_of_isPositive {x : Float} (h : Config.isPositive x = true) :
    ∃ m e hm, x.toModel.unpack = .finite .positive m e hm := by
  obtain ⟨hfinite, hpos⟩ := Bool.and_eq_true_iff.mp h
  have hfinite : x.toModel.unpack.isFinite = true := hfinite
  have hless := float_lt_iff.mp (of_decide_eq_true hpos)
  rw [unpack_zero] at hless
  cases hx : x.toModel.unpack with
  | infinity sign => rw [hx] at hfinite; cases hfinite
  | notANumber => rw [hx] at hfinite; cases hfinite
  | zero sign => rw [hx] at hless; cases hless
  | finite sign m e hm =>
    cases sign with
    | negative => rw [hx] at hless; cases hless
    | positive => exact ⟨m, e, hm, rfl⟩

theorem valueOf_of_unpack {x : Float} {m : Nat} {e : Int} {hm : 0 < m}
    (h : x.toModel.unpack = .finite .positive m e hm) : valueOf x = m * (2 : Rat) ^ e := by
  rw [valueOf, h]
  rfl

/-- **A float above zero stands for a number above zero.** -/
theorem valueOf_pos {x : Float} (h : Config.isPositive x = true) : 0 < valueOf x := by
  obtain ⟨m, e, hm, hx⟩ := exists_unpack_of_isPositive h
  rw [valueOf_of_unpack hx]
  exact mul_pos (Nat.cast_pos.mpr hm) (zpow_pos (by decide) e)

/-! ## Limits -/

/-- The limits as numbers. -/
def Limits.unrounded (limits : Limits Float) : Limits Rat :=
  ⟨valueOf limits.capacity, valueOf limits.refill⟩

/-- A bucket with these limits can hold and gain tokens. -/
structure Limits.IsUsable (limits : Limits Rat) : Prop where
  capacity_pos : 0 < limits.capacity
  refill_pos : 0 < limits.refill

theorem Limits.isUsable_unrounded {limits : Limits Float} (h : Config.isUsable limits = true) :
    limits.unrounded.IsUsable := by
  obtain ⟨hcapacity, hrefill⟩ := Bool.and_eq_true_iff.mp h
  exact ⟨valueOf_pos hcapacity, valueOf_pos hrefill⟩

/-- The limiter that the settings ask for, with amounts that are not rounded. -/
def Limiter.ofSettings (c : Config.RateLimits) : Limiter Rat :=
  .fresh c.client.unrounded c.identity.unrounded

/-- **Settings that are not refused give buckets that can be used.** -/
theorem Limiter.isUsable_ofSettings {c : Config} (h : c.check = .ok ()) (key : Key) :
    ((ofSettings c.rateLimit).limits key).IsUsable := by
  obtain ⟨hclient, hidentity⟩ := Config.isUsable_of_check h
  cases key with
  | client address => exact Limits.isUsable_unrounded hclient
  | identity name => exact Limits.isUsable_unrounded hidentity

end RateLimit

end MailScreen
