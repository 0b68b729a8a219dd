import Mathlib.Algebra.Order.Floor.Div
import Mathlib.Tactic.Ring
import Mathlib.Tactic.Linarith

/-!
# The rounded constant-product curve

A pool with an input and an output reserve keeps their product from falling by rounding the new
output reserve up. These are the facts about that one rounding.
-/

namespace ConstantProduct

/-- The output reserve once `x` has been added to the input reserve. -/
def reserveAfter (i o x : ℕ) : ℕ := (i * o) ⌈/⌉ (i + x)

def output (i o x : ℕ) : ℕ := o - reserveAfter i o x

variable {i o x : ℕ}

theorem product_le (hi : 0 < i) : i * o ≤ (i + x) * reserveAfter i o x :=
  (ceilDiv_le_iff_le_mul (Nat.add_pos_left hi x)).1 le_rfl

theorem reserveAfter_le_iff (hi : 0 < i) {n : ℕ} : reserveAfter i o x ≤ n ↔ i * o ≤ (i + x) * n :=
  ceilDiv_le_iff_le_mul (Nat.add_pos_left hi x)

theorem reserveAfter_le (hi : 0 < i) : reserveAfter i o x ≤ o :=
  (reserveAfter_le_iff hi).2 (Nat.mul_le_mul_right o (Nat.le_add_right i x))

theorem reserveAfter_pos (hi : 0 < i) (ho : 0 < o) : 0 < reserveAfter i o x := by
  by_contra h
  have h1 := product_le (o := o) (x := x) hi
  rw [Nat.eq_zero_of_not_pos h, Nat.mul_zero] at h1
  exact absurd (Nat.mul_pos hi ho) (not_lt.2 h1)

/-- The product grows by less than the new input reserve. -/
theorem product_lt (hi : 0 < i) (ho : 0 < o) :
    (i + x) * reserveAfter i o x < i * o + (i + x) := by
  have hpos := reserveAfter_pos (x := x) hi ho
  have hn : ¬reserveAfter i o x ≤ reserveAfter i o x - 1 := by omega
  rw [reserveAfter_le_iff hi, not_le] at hn
  calc (i + x) * reserveAfter i o x = (i + x) * (reserveAfter i o x - 1) + (i + x) := by
        conv_lhs => rw [← Nat.sub_add_cancel hpos]
        ring
    _ < i * o + (i + x) := Nat.add_lt_add_right hn _

theorem output_add (hi : 0 < i) : output i o x + reserveAfter i o x = o :=
  Nat.sub_add_cancel (reserveAfter_le hi)

theorem output_lt (hi : 0 < i) (ho : 0 < o) : output i o x < o := by
  have h1 := reserveAfter_pos (x := x) hi ho
  have h2 := output_add (o := o) (x := x) hi
  omega

theorem output_zero (hi : 0 < i) : output i o 0 = 0 := by
  have hle : o ≤ reserveAfter i o 0 := by
    have hprod := product_le (o := o) (x := 0) hi
    rw [Nat.add_zero] at hprod
    exact Nat.le_of_mul_le_mul_left hprod hi
  exact Nat.sub_eq_zero_of_le hle

theorem output_mono {y : ℕ} (hi : 0 < i) (hxy : x ≤ y) : output i o x ≤ output i o y := by
  have hle : reserveAfter i o y ≤ reserveAfter i o x :=
    (reserveAfter_le_iff hi).2 ((product_le hi).trans
      (Nat.mul_le_mul_right _ (Nat.add_le_add_left hxy i)))
  exact Nat.sub_le_sub_left hle o

/-- The curve gives at least `g` once the input reserve has grown to the rounded-up quotient. -/
theorem le_output_iff {g : ℕ} (hi : 0 < i) (hg : g < o) :
    g ≤ output i o x ↔ (i * o) ⌈/⌉ (o - g) ≤ i + x := by
  have hadd := output_add (o := o) (x := x) hi
  have hafter : g ≤ output i o x ↔ reserveAfter i o x ≤ o - g := by omega
  rw [hafter, reserveAfter_le_iff hi, ceilDiv_le_iff_le_mul (Nat.sub_pos_of_lt hg),
    Nat.mul_comm (i + x)]

section Fee

variable {g h fee t : ℕ}

/-- What a fee in basis points, rounded down, leaves of an output. -/
def net (g fee : ℕ) : ℕ := g - g * fee / 10000

theorem fee_le (hfee : fee ≤ 10000) : g * fee / 10000 ≤ g :=
  Nat.div_le_of_le_mul (by rw [Nat.mul_comm]; exact Nat.mul_le_mul_right g hfee)

theorem net_mono (hfee : fee ≤ 10000) (hgh : g ≤ h) : net g fee ≤ net h fee := by
  obtain ⟨d, rfl⟩ := Nat.exists_eq_add_of_le hgh
  have hstep : (g + d) * fee / 10000 ≤ g * fee / 10000 + d := by
    calc (g + d) * fee / 10000 ≤ (g * fee + d * 10000) / 10000 := by
          apply Nat.div_le_div_right
          rw [Nat.add_mul]
          exact Nat.add_le_add_left (Nat.mul_le_mul_left d hfee) _
      _ = g * fee / 10000 + d := Nat.add_mul_div_right _ _ (by decide)
  have hle := fee_le (g := g) hfee
  unfold net
  omega

/-- The net is the kept share rounded up, so it meets a target from one gross output on. -/
theorem le_net_iff (hfee : fee < 10000) (ht : 0 < t) :
    t ≤ net g fee ↔ (t - 1) * 10000 / (10000 - fee) + 1 ≤ g := by
  have hkept : g * fee + g * (10000 - fee) = g * 10000 := by
    rw [← Nat.mul_add]
    congr 1
    omega
  have hmod := Nat.div_add_mod (g * fee) 10000
  have hlt := Nat.mod_lt (g * fee) (by decide : 0 < 10000)
  have hle := fee_le (g := g) hfee.le
  rw [Nat.succ_le_iff, Nat.div_lt_iff_lt_mul (Nat.sub_pos_of_lt hfee)]
  unfold net
  omega

end Fee

end ConstantProduct
