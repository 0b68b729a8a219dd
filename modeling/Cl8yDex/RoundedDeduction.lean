import Mathlib.Order.Lattice
import Mathlib.Tactic.Ring

/-!
# Deductions that are rounded down

A part `b / s` of an amount, rounded down and perhaps capped, is taken off. What is left and the
least amount that leaves a target are adjoint, so the inverse of a chain of deductions is the chain
of the inverses.
-/

namespace RoundedDeduction

variable {s b a c t cap : ℕ}

/-- What a deduction leaves. -/
def kept (s b a : ℕ) : ℕ := a - a * b / s

/-- What a capped deduction leaves. -/
def keptCapped (s b cap a : ℕ) : ℕ := a - min (a * b / s) cap

/-- The least amount of which a deduction leaves a positive target. -/
def needed (s b t : ℕ) : ℕ := (t - 1) * s / (s - b) + 1

def neededCapped (s b cap t : ℕ) : ℕ := min (needed s b t) (t + cap)

theorem deduction_le (hb : b ≤ s) : a * b / s ≤ a := by
  apply Nat.div_le_of_le_mul
  rw [Nat.mul_comm]
  exact Nat.mul_le_mul_right a hb

theorem le_kept_iff (hb : b < s) (ht : 0 < t) : t ≤ kept s b a ↔ needed s b t ≤ a := by
  have hs : 0 < s := by omega
  have hle := deduction_le (a := a) hb.le
  have hleft : t ≤ kept s b a ↔ (a * b + (t - 1) * s) / s < a := by
    rw [Nat.add_mul_div_right _ _ hs]
    unfold kept
    omega
  have hright : needed s b t ≤ a ↔ (t - 1) * s / (s - b) < a := Iff.rfl
  rw [hleft, hright, Nat.div_lt_iff_lt_mul hs, Nat.div_lt_iff_lt_mul (Nat.sub_pos_of_lt hb),
    Nat.mul_sub]
  have hpart : a * b ≤ a * s := Nat.mul_le_mul_left a hb.le
  omega

/-- The cap leaves at least as much as either deduction alone would. -/
theorem keptCapped_eq : keptCapped s b cap a = max (kept s b a) (a - cap) := by
  unfold keptCapped kept
  rcases Nat.le_total (a * b / s) cap with hle | hle
  · rw [min_eq_left hle, max_eq_left (Nat.sub_le_sub_left hle a)]
  · rw [min_eq_right hle, max_eq_right (Nat.sub_le_sub_left hle a)]

theorem le_keptCapped_iff (hb : b < s) (ht : 0 < t) :
    t ≤ keptCapped s b cap a ↔ neededCapped s b cap t ≤ a := by
  have hcap : t ≤ a - cap ↔ t + cap ≤ a := by omega
  rw [keptCapped_eq, le_max_iff, le_kept_iff hb ht, hcap]
  exact min_le_iff.symm

theorem kept_mono (hb : b < s) (h : a ≤ c) : kept s b a ≤ kept s b c := by
  rcases Nat.eq_zero_or_pos (kept s b a) with hzero | hpos
  · rw [hzero]
    exact Nat.zero_le _
  · exact (le_kept_iff hb hpos).2 (((le_kept_iff hb hpos).1 le_rfl).trans h)

theorem keptCapped_mono (hb : b < s) (h : a ≤ c) : keptCapped s b cap a ≤ keptCapped s b cap c := by
  rw [keptCapped_eq, keptCapped_eq]
  exact max_le_max (kept_mono hb h) (Nat.sub_le_sub_right h cap)

theorem kept_le : kept s b a ≤ a := Nat.sub_le _ _

theorem needed_pos : 0 < needed s b t := Nat.succ_pos _

theorem needed_mono (h : t ≤ c) : needed s b t ≤ needed s b c := by
  have hless : (t - 1) * s ≤ (c - 1) * s := Nat.mul_le_mul_right s (Nat.sub_le_sub_right h 1)
  exact Nat.succ_le_succ (Nat.div_le_div_right hless)

theorem neededCapped_pos (ht : 0 < t) : 0 < neededCapped s b cap t :=
  lt_min needed_pos (Nat.add_pos_left ht cap)

end RoundedDeduction
