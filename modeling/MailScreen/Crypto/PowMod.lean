/-!
# Powers modulo a number

* `powMod b e m` squares and multiplies; `powMod_eq` says that it is `Nat.pow b e % m`.
-/

namespace MailScreen.Crypto

/-- The remainder of `b ^ e` modulo `m`. -/
def powMod (b e m : Nat) : Nat :=
  if e = 0 then 1 % m
  else
    let half := powMod (b * b % m) (e / 2) m
    if e % 2 = 0 then half else half * b % m
termination_by e
decreasing_by omega

theorem powMod_eq (b e m : Nat) : powMod b e m = Nat.pow b e % m := by
  rw [Nat.pow_eq]
  fun_induction powMod b e m with
  | case1 b => rfl
  | case2 b e he half hm ih =>
    have h : e = 2 * (e / 2) := by omega
    rw [show half = _ from ih, ← Nat.pow_mod, ← Nat.pow_two, ← Nat.pow_mul, ← h]
  | case3 b e he half hm ih =>
    have h : e = 2 * (e / 2) + 1 := by omega
    rw [show half = _ from ih, ← Nat.pow_mod, ← Nat.pow_two, ← Nat.pow_mul]
    conv => rhs; rw [h, Nat.pow_succ]
    simp [Nat.mul_mod]

end MailScreen.Crypto
