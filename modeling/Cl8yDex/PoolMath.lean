import Cl8yDex.Types

/-!
# The constant-product pool

Reserve products are taken in 256 bits. The new output reserve is rounded up and the commission
down, and the execute path re-checks both roundings.
-/

namespace Cl8yDex

open Outcome

def mul256OrOverflow (a b : ℕ) : Except ContractError ℕ := orThrow (checkedMul256 a b) .overflow

def narrowU128 (value : ℕ) (ctx : String) : Except ContractError ℕ :=
  if value ≤ u128Max then .ok value
  else .error (.invariantViolation (.exceedsU128 ctx value))

def ceilDivU256 (numerator denominator : ℕ) : ℕ :=
  let d := numerator / denominator
  if d * denominator < numerator then d + 1 else d

/-- Newton's iteration from above; it stops at the first estimate that does not decrease. -/
def isqrtLoop (n x y : ℕ) : ℕ :=
  if y < x then isqrtLoop n y ((y + n / y) / 2) else x
termination_by x

def isqrtU256 (n : ℕ) : ℕ := if n = 0 then 0 else isqrtLoop n n ((n + 1) / 2)

def poolCommission (gross feeBps : ℕ) : Except ContractError ℕ := do
  ensure (feeBps ≤ 10000) (.std (.genericErr "pool fee exceeds 100%"))
  let scaled ← mul256OrOverflow gross feeBps
  let commission := scaled / 10000
  ensure (commission ≤ u128Max)
    (.std (.genericErr "256-bit result exceeds u128 (pool commission)"))
  return commission

/-- How far the output falls short of the spot price. -/
def spotLinearSpreadOverGross (poolInput inputReserve outputReserve grossOutput : ℕ) :
    Except ContractError ℕ := do
  ensure (inputReserve ≠ 0)
    (.std (.genericErr "spot_linear_spread_over_gross: input_reserve is zero"))
  let product ← mul256OrOverflow poolInput outputReserve
  let idealOutput := product / inputReserve
  ensure (idealOutput - grossOutput ≤ u128Max)
    (.std (.genericErr "spot_linear_spread_over_gross: spread exceeds u128"))
  return idealOutput - grossOutput

/-- The pool's part of a swap. -/
structure PoolLeg where
  input : ℕ
  grossOutput : ℕ
  returnAmount : ℕ
  commissionAmount : ℕ
  spreadAmount : ℕ
  deriving DecidableEq

def PoolLeg.none : PoolLeg := ⟨0, 0, 0, 0, 0⟩

/-- The output of the curve, with its product before the trade and the reserves after it. -/
def poolOutput (inputReserve outputReserve poolInput : ℕ) (ctx : String) :
    Except ContractError (ℕ × ℕ × ℕ × ℕ) := do
  ensure (inputReserve ≠ 0 ∧ outputReserve ≠ 0) .insufficientLiquidity
  let k ← mul256OrOverflow inputReserve outputReserve
  let newInputReserve ← addOrOverflow inputReserve poolInput
  let newOutputReserve ← narrowU128 (ceilDivU256 k newInputReserve) ctx
  let grossOutput ← subOrOverflow outputReserve newOutputReserve
  return (k, newInputReserve, newOutputReserve, grossOutput)

/-- The pool leg of `execute_swap`. -/
def executePoolLeg (inputReserve outputReserve poolInput feeBps : ℕ) :
    Except ContractError PoolLeg :=
  if poolInput = 0 then .ok PoolLeg.none
  else do
    let (k, newInputReserve, newOutputReserve, grossOutput) ←
      poolOutput inputReserve outputReserve poolInput "swap new_output_reserve"
    let newK ← mul256OrOverflow newInputReserve newOutputReserve
    ensure (k ≤ newK) (.invariantViolation (.kDecreased k newK))
    ensure (newK - k < newInputReserve)
      (.invariantViolation (.kIncreaseExceedsBound (newK - k) newInputReserve))
    let commission ← poolCommission grossOutput feeBps
    let returnAmount ← subOrOverflow grossOutput commission
    let scaled ← mul256OrOverflow grossOutput feeBps
    let taken ← mul256OrOverflow commission 10000
    ensure (scaled - taken < 10000) (.invariantViolation (.commissionRounding (scaled - taken)))
    let spread ← spotLinearSpreadOverGross poolInput inputReserve outputReserve grossOutput
    return ⟨poolInput, grossOutput, returnAmount, commission, spread⟩

/-- The pool leg of the quote, without the re-checks. -/
def simulatePoolLeg (inputReserve outputReserve poolInput feeBps : ℕ) :
    Except ContractError PoolLeg :=
  if poolInput = 0 then .ok PoolLeg.none
  else do
    let (_, _, _, grossOutput) ←
      poolOutput inputReserve outputReserve poolInput "sim new_output_reserve"
    let commission ← poolCommission grossOutput feeBps
    let returnAmount ← subOrOverflow grossOutput commission
    let spread ← spotLinearSpreadOverGross poolInput inputReserve outputReserve grossOutput
    return ⟨poolInput, grossOutput, returnAmount, commission, spread⟩

end Cl8yDex
