import Mathlib.Algebra.Ring.Nat
import Mathlib.Algebra.Order.Field.Rat
import Mathlib.Tactic.Positivity
import Mathlib.Tactic.Ring
import Mathlib.Tactic.Linarith
import Mathlib.Tactic.FieldSimp

/-!
# Shares of a reserve, rounded down

A deposit of `x` into a reserve `a` may mint `s` of `t` shares when `s` is at most the floor of
`x * t / a`; redeeming `s` shares pays the floor of `s * a / t`. Either way the reserve behind one
share does not fall.
-/

namespace ProportionalShares

variable {a b t s x : ℕ}

theorem mul_le_of_minted (h : s ≤ x * t / a) : s * a ≤ x * t :=
  (Nat.mul_le_mul_right a h).trans (Nat.div_mul_le_self _ _)

/-- A mint of at most the proportional part does not dilute. -/
theorem mint_ratio (h : s * a ≤ x * t) : a * (t + s) ≤ (a + x) * t := by
  calc a * (t + s) = a * t + s * a := by ring
    _ ≤ a * t + x * t := Nat.add_le_add_left h _
    _ = (a + x) * t := by ring

theorem redeem_mul_le : s * a / t * t ≤ s * a := Nat.div_mul_le_self _ _

theorem redeem_le (h : s ≤ t) : s * a / t ≤ a :=
  Nat.div_le_of_le_mul (Nat.mul_le_mul_right a h)

/-- A redemption of at most the proportional part does not dilute. -/
theorem redeem_ratio (h : s ≤ t) : a * (t - s) ≤ (a - s * a / t) * t := by
  have hle := redeem_mul_le (s := s) (a := a) (t := t)
  have hsub : s * a / t * t ≤ a * t := Nat.mul_le_mul_right t (redeem_le h)
  rw [Nat.mul_sub, Nat.sub_mul, Nat.mul_comm a s]
  exact Nat.sub_le_sub_left hle _

/-- Redeeming less than everything leaves something. -/
theorem redeem_lt (ha : 0 < a) (h : s < t) : s * a / t < a := by
  rw [Nat.div_lt_iff_lt_mul (Nat.zero_lt_of_lt h), Nat.mul_comm a t]
  exact Nat.mul_lt_mul_of_pos_right h ha

/-- What a deposit minted redeems for no more than the deposit. -/
theorem round_trip_le {s' : ℕ} (h : s * a ≤ x * t) (hle : s' ≤ s) :
    s' * (a + x) / (t + s) ≤ x := by
  refine Nat.div_le_of_le_mul ?_
  calc s' * (a + x) ≤ s * (a + x) := Nat.mul_le_mul_right _ hle
    _ = s * a + s * x := Nat.mul_add ..
    _ ≤ x * t + s * x := Nat.add_le_add_right h _
    _ = (t + s) * x := by ring

/-- The product of two reserves behind the square of one share. -/
def value (a b t : ℕ) : ℚ := a * b / t ^ 2

theorem value_le_of_ratios {a' b' t' : ℕ} (ht : 0 < t) (ht' : 0 < t') (ha : a * t' ≤ a' * t)
    (hb : b * t' ≤ b' * t) : value a b t ≤ value a' b' t' := by
  have hmul : a * b * t' ^ 2 ≤ a' * b' * t ^ 2 := by
    calc a * b * t' ^ 2 = a * t' * (b * t') := by ring
      _ ≤ a' * t * (b' * t) := Nat.mul_le_mul ha hb
      _ = a' * b' * t ^ 2 := by ring
  rw [value, value, div_le_div_iff₀ (by positivity) (by positivity)]
  exact_mod_cast hmul

theorem value_le_of_product {a' b' : ℕ} (h : a * b ≤ a' * b') : value a b t ≤ value a' b' t := by
  have hq : (a * b : ℚ) ≤ a' * b' := by exact_mod_cast h
  exact div_le_div_of_nonneg_right hq (by positivity)

/-- What `x` fewer the part behind one share is worth, when the minted shares `l` and the reserve
behind one share each retain the part `u`. -/
theorem retained_value {u l x a₀ t₀ r : ℚ} (hu : 0 ≤ u) (ha : 0 < a₀) (ht : 0 < t₀) (hl : 0 ≤ l)
    (hr : u * (a₀ / t₀) ≤ r) (hmint : u * (x * t₀ / a₀ - 1) ≤ l) :
    u ^ 2 * (x - a₀ / t₀) ≤ l * r := by
  have hpart : 0 ≤ u * (a₀ / t₀) := by positivity
  rcases le_or_gt (x - a₀ / t₀) 0 with hx | hx
  · calc u ^ 2 * (x - a₀ / t₀) ≤ 0 := mul_nonpos_of_nonneg_of_nonpos (by positivity) hx
      _ ≤ l * r := mul_nonneg hl (hpart.trans hr)
  · calc u ^ 2 * (x - a₀ / t₀) = u * (x * t₀ / a₀ - 1) * (u * (a₀ / t₀)) := by field_simp
      _ ≤ l * r := mul_le_mul hmint hr hpart hl

/-!
## Redeeming shares one after the other

Every redemption rounds down, so a sequence of redemptions pays the exact proportional part of the
first reserve less at most one unit for each of them.
-/

section Redemptions

/-- What redeeming some amounts in turn pays out of a reserve behind `t` shares. -/
def redeemAll : ℕ → ℕ → List ℕ → ℕ
  | _, _, [] => 0
  | a, t, s :: l => s * a / t + redeemAll (a - s * a / t) (t - s) l

variable {a t s m : ℕ} {l : List ℕ}

theorem redeemAll_singleton : redeemAll a t [s] = s * a / t := rfl

theorem mul_le_redeemAll (h : l.sum < t) : l.sum * a ≤ (redeemAll a t l + l.length) * t ∧
    (l ≠ [] → l.sum * a < (redeemAll a t l + l.length) * t) := by
  induction l generalizing a t with
  | nil => simp
  | cons s l ih =>
      rw [List.sum_cons] at h
      have hs : s ≤ t := by omega
      have hrest : l.sum < t - s := by omega
      obtain ⟨hle, -⟩ := @ih (a - s * a / t) (t - s) hrest
      have hratio : a * (t - s) ≤ (a - s * a / t) * t := redeem_ratio hs
      -- the later redemptions meet a reserve that no redemption before them has diluted
      have hlater : l.sum * a ≤ (redeemAll (a - s * a / t) (t - s) l + l.length) * t := by
        refine Nat.le_of_mul_le_mul_right (c := t - s) ?_ (by omega)
        calc l.sum * a * (t - s) = l.sum * (a * (t - s)) := Nat.mul_assoc ..
          _ ≤ l.sum * ((a - s * a / t) * t) := Nat.mul_le_mul_left _ hratio
          _ = l.sum * (a - s * a / t) * t := (Nat.mul_assoc ..).symm
          _ ≤ (redeemAll (a - s * a / t) (t - s) l + l.length) * (t - s) * t :=
            Nat.mul_le_mul_right _ hle
          _ = (redeemAll (a - s * a / t) (t - s) l + l.length) * t * (t - s) := by ring
      have hfirst : s * a < (s * a / t + 1) * t := by
        rw [Nat.mul_comm _ t]
        exact Nat.lt_mul_div_succ _ (by omega)
      have hall : (s + l.sum) * a < (s * a / t + redeemAll (a - s * a / t) (t - s) l +
          (l.length + 1)) * t := by
        calc (s + l.sum) * a = s * a + l.sum * a := Nat.add_mul ..
          _ < (s * a / t + 1) * t + (redeemAll (a - s * a / t) (t - s) l + l.length) * t :=
            Nat.add_lt_add_of_lt_of_le hfirst hlater
          _ = _ := by ring
      rw [List.sum_cons, List.length_cons, redeemAll]
      exact ⟨hall.le, fun _ => hall⟩

theorem lt_redeemAll (h : l.sum < t) (hl : l ≠ []) :
    l.sum * a < (redeemAll a t l + l.length) * t := (mul_le_redeemAll h).2 hl

/-- Shares that claim a part `s / m` of a reserve and redeem only `s / t` of it lose less than a
unit for each redemption when the two parts have the same whole units, -/
theorem redeemAll_covers (hs : l.sum < m) (hm : m ≤ t) (h : l.sum * a / t = l.sum * a / m)
    (hl : l ≠ []) : l.sum * a < (redeemAll a t l + l.length) * m := by
  have hall := lt_redeemAll (a := a) (hs.trans_le hm) hl
  have hunits : l.sum * a / t < redeemAll a t l + l.length :=
    (Nat.div_lt_iff_lt_mul (by omega)).2 hall
  rw [h] at hunits
  exact (Nat.div_lt_iff_lt_mul (by omega)).1 hunits

/-- and only then, when they are redeemed at once. -/
theorem units_eq_of_covers (hm : m ≤ t) (hm0 : 0 < m)
    (h : s * a < (redeemAll a t [s] + [s].length) * m) : s * a / t = s * a / m := by
  rw [redeemAll_singleton, List.length_singleton] at h
  refine le_antisymm (Nat.div_le_div_left hm hm0) ?_
  exact Nat.lt_succ_iff.1 ((Nat.div_lt_iff_lt_mul hm0).2 h)

end Redemptions

end ProportionalShares
