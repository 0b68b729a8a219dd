import Mathlib.Order.Basic
import Mathlib.Order.Lattice
import Mathlib.Order.Defs.LinearOrder
import Mathlib.Data.Nat.Basic
import Mathlib.Tactic.Common
import Mathlib.Tactic.NormNum

/-!
# Bounded integers and fixed-point decimals

A `Uint128` is a natural number and each checked operation answers `none` where the machine type
overflows, underflows or divides by zero. A `Decimal` has eighteen fractional digits; its
operations truncate the exact result towards zero.
-/

namespace Cl8yDex

def u128Max : ℕ := 2 ^ 128 - 1

def u64Max : ℕ := 2 ^ 64 - 1

def u16Max : ℕ := 2 ^ 16 - 1

def u256Max : ℕ := 2 ^ 256 - 1

def checkedAdd (a b : ℕ) : Option ℕ := if a + b ≤ u128Max then some (a + b) else none

def checkedSub (a b : ℕ) : Option ℕ := if b ≤ a then some (a - b) else none

def checkedMul (a b : ℕ) : Option ℕ := if a * b ≤ u128Max then some (a * b) else none

def checkedDiv (a b : ℕ) : Option ℕ := if b = 0 then none else some (a / b)

/-- `floor(a · num / den)` with a wide intermediate product. -/
def checkedMultiplyRatio (a num den : ℕ) : Option ℕ :=
  if den = 0 then none else if a * num / den ≤ u128Max then some (a * num / den) else none

def checkedAdd256 (a b : ℕ) : Option ℕ := if a + b ≤ u256Max then some (a + b) else none

def checkedMul256 (a b : ℕ) : Option ℕ := if a * b ≤ u256Max then some (a * b) else none

def checkedMultiplyRatio256 (a num den : ℕ) : Option ℕ :=
  if den = 0 then none else if a * num / den ≤ u256Max then some (a * num / den) else none

@[simp] theorem checkedAdd_eq_some {a b c : ℕ} :
    checkedAdd a b = some c ↔ a + b ≤ u128Max ∧ c = a + b := by
  unfold checkedAdd
  split_ifs with h <;> simp [h, eq_comm]

@[simp] theorem checkedAdd_eq_none {a b : ℕ} : checkedAdd a b = none ↔ u128Max < a + b := by
  unfold checkedAdd
  split_ifs with h
  · simpa using h
  · simpa using h

@[simp] theorem checkedSub_eq_some {a b c : ℕ} :
    checkedSub a b = some c ↔ b ≤ a ∧ c = a - b := by
  unfold checkedSub
  split_ifs with h <;> simp [h, eq_comm]

@[simp] theorem checkedSub_eq_none {a b : ℕ} : checkedSub a b = none ↔ a < b := by
  unfold checkedSub
  split_ifs with h
  · simpa using h
  · simpa using h

@[simp] theorem checkedMul_eq_some {a b c : ℕ} :
    checkedMul a b = some c ↔ a * b ≤ u128Max ∧ c = a * b := by
  unfold checkedMul
  split_ifs with h <;> simp [h, eq_comm]

@[simp] theorem checkedDiv_eq_some {a b c : ℕ} :
    checkedDiv a b = some c ↔ b ≠ 0 ∧ c = a / b := by
  unfold checkedDiv
  split_ifs with h <;> simp [h, eq_comm]

theorem checkedMultiplyRatio_eq_some {a num den c : ℕ} :
    checkedMultiplyRatio a num den = some c ↔
      den ≠ 0 ∧ a * num / den ≤ u128Max ∧ c = a * num / den := by
  unfold checkedMultiplyRatio
  by_cases h : den = 0
  · simp [h]
  · by_cases h' : a * num / den ≤ u128Max <;> simp [h, h', eq_comm]

theorem checkedAdd256_eq_some {a b c : ℕ} :
    checkedAdd256 a b = some c ↔ a + b ≤ u256Max ∧ c = a + b := by
  unfold checkedAdd256
  split_ifs with h <;> simp [h, eq_comm]

theorem checkedMul256_eq_some {a b c : ℕ} :
    checkedMul256 a b = some c ↔ a * b ≤ u256Max ∧ c = a * b := by
  unfold checkedMul256
  split_ifs with h <;> simp [h, eq_comm]

theorem checkedMultiplyRatio256_eq_some {a num den c : ℕ} :
    checkedMultiplyRatio256 a num den = some c ↔
      den ≠ 0 ∧ a * num / den ≤ u256Max ∧ c = a * num / den := by
  unfold checkedMultiplyRatio256
  by_cases h : den = 0
  · simp [h]
  · by_cases h' : a * num / den ≤ u256Max <;> simp [h, h', eq_comm]

@[ext]
structure Decimal where
  atomics : ℕ
  deriving DecidableEq, Repr

namespace Decimal

/-- The value of one, `10^18` atomics. -/
def fractional : ℕ := 10 ^ 18

instance : LinearOrder Decimal :=
  LinearOrder.lift' Decimal.atomics fun _ _ h => Decimal.ext h

def zero : Decimal := ⟨0⟩

def one : Decimal := ⟨fractional⟩

def isZero (d : Decimal) : Bool := d.atomics = 0

def checkedAdd (a b : Decimal) : Option Decimal :=
  (Cl8yDex.checkedAdd a.atomics b.atomics).map Decimal.mk

def checkedSub (a b : Decimal) : Option Decimal :=
  (Cl8yDex.checkedSub a.atomics b.atomics).map Decimal.mk

def checkedMul (a b : Decimal) : Option Decimal :=
  (checkedMultiplyRatio a.atomics b.atomics fractional).map Decimal.mk

def checkedFromRatio (num den : ℕ) : Option Decimal :=
  (checkedMultiplyRatio num fractional den).map Decimal.mk

def checkedDiv (a b : Decimal) : Option Decimal := checkedFromRatio a.atomics b.atomics

/-- `floor(amount · factor)`. -/
def checkedMulFloor (amount : ℕ) (factor : Decimal) : Option ℕ :=
  checkedMultiplyRatio amount factor.atomics fractional

theorem fractional_pos : 0 < fractional := by unfold fractional; positivity

theorem checkedMul_eq_some {a b c : Decimal} : a.checkedMul b = some c ↔
    a.atomics * b.atomics / fractional ≤ u128Max ∧
      c.atomics = a.atomics * b.atomics / fractional := by
  simp only [checkedMul, Option.map_eq_some_iff, checkedMultiplyRatio_eq_some]
  constructor
  · rintro ⟨_, ⟨_, h, rfl⟩, rfl⟩
    exact ⟨h, rfl⟩
  · rintro ⟨h, hc⟩
    exact ⟨_, ⟨fractional_pos.ne', h, rfl⟩, Decimal.ext hc.symm⟩

theorem checkedFromRatio_eq_some {num den : ℕ} {c : Decimal} :
    checkedFromRatio num den = some c ↔
      den ≠ 0 ∧ num * fractional / den ≤ u128Max ∧ c.atomics = num * fractional / den := by
  simp only [checkedFromRatio, Option.map_eq_some_iff, checkedMultiplyRatio_eq_some]
  constructor
  · rintro ⟨_, ⟨h, h', rfl⟩, rfl⟩
    exact ⟨h, h', rfl⟩
  · rintro ⟨h, h', hc⟩
    exact ⟨_, ⟨h, h', rfl⟩, Decimal.ext hc.symm⟩

theorem checkedMulFloor_eq_some {amount c : ℕ} {factor : Decimal} :
    checkedMulFloor amount factor = some c ↔
      amount * factor.atomics / fractional ≤ u128Max ∧
        c = amount * factor.atomics / fractional := by
  simp [checkedMulFloor, checkedMultiplyRatio_eq_some, fractional_pos.ne']

end Decimal

end Cl8yDex
