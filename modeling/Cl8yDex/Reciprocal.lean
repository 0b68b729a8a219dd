import Mathlib.Data.Nat.Basic
import Mathlib.Order.Lattice
import Mathlib.Tactic.Ring
import Mathlib.Tactic.Linarith

/-!
# Buying through a truncated reciprocal

A price has `f` as its unit. The number of goods that an amount buys at price `p` is computed with
the rounded-down reciprocal of `p` instead of a division by it. However the two roundings fall, the
goods never cost more than the amount.
-/

namespace Reciprocal

def inverse (f p : ℕ) : ℕ := f * f / p

/-- The goods that `a` buys. -/
def goods (f p a : ℕ) : ℕ := a * inverse f p / f

/-- What `x` goods cost. -/
def cost (f p x : ℕ) : ℕ := x * p / f

variable {f p a b x y : ℕ}

theorem inverse_le : inverse f p ≤ f * f := Nat.div_le_self _ _

theorem le_of_inverse_ne_zero (h : inverse f p ≠ 0) : p ≤ f * f := by
  by_contra hlt
  exact h (Nat.div_eq_of_lt (not_le.1 hlt))

theorem goods_mono (h : a ≤ b) : goods f p a ≤ goods f p b :=
  Nat.div_le_div_right (Nat.mul_le_mul_right _ h)

theorem cost_mono (h : x ≤ y) : cost f p x ≤ cost f p y :=
  Nat.div_le_div_right (Nat.mul_le_mul_right _ h)

@[simp] theorem cost_zero : cost f p 0 = 0 := by simp [cost]

/-- The goods are worth no more than the amount. -/
theorem goods_mul_le (hf : 0 < f) : goods f p a * p ≤ a * f := by
  have h1 : goods f p a * f ≤ a * inverse f p := Nat.div_mul_le_self _ _
  have h2 : inverse f p * p ≤ f * f := Nat.div_mul_le_self _ _
  apply Nat.le_of_mul_le_mul_right _ hf
  calc goods f p a * p * f = goods f p a * f * p := by ring
    _ ≤ a * inverse f p * p := Nat.mul_le_mul_right p h1
    _ = a * (inverse f p * p) := by ring
    _ ≤ a * (f * f) := Nat.mul_le_mul_left a h2
    _ = a * f * f := by ring

theorem cost_goods_le (hf : 0 < f) : cost f p (goods f p a) ≤ a := by
  apply Nat.div_le_of_le_mul
  rw [Nat.mul_comm f]
  exact goods_mul_le hf

/-- No number of goods up to that costs more than the amount. -/
theorem cost_le_of_le_goods (hf : 0 < f) (h : x ≤ goods f p a) : cost f p x ≤ a :=
  (cost_mono h).trans (cost_goods_le hf)

end Reciprocal
