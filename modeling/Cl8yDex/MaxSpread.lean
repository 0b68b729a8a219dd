import Cl8yDex.Types

/-!
# Slippage checks

With a belief price the shortfall is measured against the return it promises. Without one it is the
pool's spread, plus what the book leg falls short of the pool's own net rate.
-/

namespace Cl8yDex

open Outcome

def defaultMaxSpread : Decimal := ⟨10 ^ 16⟩

def minPoolInputForBookHybridNum : ℕ := 1
def minPoolInputForBookHybridDen : ℕ := 10

inductive CheckMaxSpreadError
  | spreadExceeded (maxAllowed actual : Decimal)
  | insufficientPoolLegForBookHybrid (poolInput minPoolInput bookInput : ℕ)
  | zeroPoolNetForBookHybrid (poolInput bookInput : ℕ)
  | bookHybridRequiresSlippageFloor (bookInput : ℕ)
  | invalidBeliefPrice (beliefPrice : Decimal)
  | abort (site : AbortSite)
  deriving DecidableEq

/-- How the pair reports a failed check. -/
def CheckMaxSpreadError.toContract : CheckMaxSpreadError → ContractError
  | spreadExceeded maxAllowed actual => .maxSpreadAssertion maxAllowed actual
  | insufficientPoolLegForBookHybrid poolInput minPoolInput bookInput =>
      .insufficientPoolLegForHybrid poolInput minPoolInput bookInput
  | zeroPoolNetForBookHybrid poolInput bookInput => .zeroPoolNetForHybrid poolInput bookInput
  | bookHybridRequiresSlippageFloor bookInput => .bookHybridRequiresSlippageFloor bookInput
  | invalidBeliefPrice beliefPrice => .invalidBeliefPrice beliefPrice
  | abort site => .abort site

def liftSpread {α : Type} (x : Except CheckMaxSpreadError α) : Except ContractError α :=
  x.mapError CheckMaxSpreadError.toContract

def minPoolInputForBookHybrid (offerAmount : ℕ) : ℕ :=
  if offerAmount = 0 then 0
  else max 1 (offerAmount * minPoolInputForBookHybridNum / minPoolInputForBookHybridDen)

def validateDeclaredHybridPoolLegForNoBelief (offerAmount poolInput bookInput : ℕ) :
    Except CheckMaxSpreadError Unit :=
  if bookInput = 0 ∨ poolInput = 0 then .ok ()
  else
    let minPool := minPoolInputForBookHybrid offerAmount
    ensure (minPool ≤ poolInput)
      (.insufficientPoolLegForBookHybrid poolInput minPool bookInput)

def hasPositiveFloor (minReturn : Option ℕ) : Bool := minReturn.any fun m => m ≠ 0

def validateHybridBookRequiresSlippageFloor (bookInput : ℕ) (beliefPrice : Option Decimal)
    (minReturn : Option ℕ) : Except CheckMaxSpreadError Unit :=
  if bookInput = 0 then .ok ()
  else
    match beliefPrice with
    | some bp => ensure (¬bp.isZero) (.invalidBeliefPrice bp)
    | none => ensure (hasPositiveFloor minReturn) (.bookHybridRequiresSlippageFloor bookInput)

def beliefPriceReciprocal (beliefPrice : Decimal) : Except CheckMaxSpreadError Decimal := do
  ensure (¬beliefPrice.isZero) (.invalidBeliefPrice beliefPrice)
  let inv ← orThrow (Decimal.one.checkedDiv beliefPrice) (.abort .beliefReturn)
  ensure (¬inv.isZero) (.invalidBeliefPrice beliefPrice)
  return inv

def expectedReturnFromBelief (beliefPrice : Decimal) (offerAmount : ℕ) :
    Except CheckMaxSpreadError ℕ := do
  let inv ← beliefPriceReciprocal beliefPrice
  let expectedReturn ← orThrow (Decimal.checkedMulFloor offerAmount inv) (.abort .beliefReturn)
  ensure (expectedReturn ≠ 0) (.invalidBeliefPrice beliefPrice)
  return expectedReturn

structure MaxSpreadInputs where
  offerAmount : ℕ
  poolNetReturn : ℕ
  poolCommission : ℕ
  poolSpread : ℕ
  bookNetReturn : ℕ
  poolInput : ℕ
  bookInput : ℕ
  declaredPoolInput : ℕ

/-- The ratio of a shortfall against the tolerance. -/
def checkRatio (spread total : ℕ) (maxAllowed : Decimal) : Except CheckMaxSpreadError Unit := do
  let ratio ← orThrow (Decimal.checkedFromRatio spread total) (.abort .spreadRatio)
  ensure (ratio ≤ maxAllowed) (.spreadExceeded maxAllowed ratio)

def checkBelief (bp maxAllowed : Decimal) (inputs : MaxSpreadInputs) :
    Except CheckMaxSpreadError Unit := do
  let expectedReturn ← expectedReturnFromBelief bp inputs.offerAmount
  let net ← orThrow (checkedAdd inputs.bookNetReturn inputs.poolNetReturn)
    (.spreadExceeded maxAllowed .zero)
  let actualReturn ← orThrow (checkedAdd net inputs.poolCommission)
    (.spreadExceeded maxAllowed .zero)
  checkRatio (expectedReturn - actualReturn) expectedReturn maxAllowed

/-- What the book leg falls short of the pool's net rate. -/
def bookShortfall (maxAllowed : Decimal) (inputs : MaxSpreadInputs) :
    Except CheckMaxSpreadError ℕ :=
  if inputs.poolInput = 0 ∨ inputs.bookInput = 0 then .ok 0
  else do
    let fairNetBook ← orThrow
      (checkedMultiplyRatio inputs.poolNetReturn inputs.bookInput inputs.poolInput)
      (.spreadExceeded maxAllowed .zero)
    return fairNetBook - inputs.bookNetReturn

/-- Both declared legs present: the pool leg must be material. -/
def checkMaterialPool (inputs : MaxSpreadInputs) : Except CheckMaxSpreadError Unit :=
  if inputs.bookInput = 0 ∨ inputs.declaredPoolInput = 0 then .ok ()
  else do
    let minPool := minPoolInputForBookHybrid inputs.offerAmount
    ensure (minPool ≤ inputs.declaredPoolInput)
      (.insufficientPoolLegForBookHybrid inputs.declaredPoolInput minPool inputs.bookInput)
    ensure (inputs.poolNetReturn ≠ 0)
      (.zeroPoolNetForBookHybrid inputs.poolInput inputs.bookInput)

def checkNoBelief (maxAllowed : Decimal) (inputs : MaxSpreadInputs) :
    Except CheckMaxSpreadError Unit := do
  checkMaterialPool inputs
  let poolGross ← orThrow (checkedAdd inputs.poolNetReturn inputs.poolCommission)
    (.spreadExceeded maxAllowed .zero)
  let totalGrossOut ← orThrow (checkedAdd poolGross inputs.bookNetReturn)
    (.spreadExceeded maxAllowed .zero)
  let shortfall ← bookShortfall maxAllowed inputs
  let spreadTotal ← orThrow (checkedAdd (min inputs.poolSpread poolGross) shortfall)
    (.spreadExceeded maxAllowed .zero)
  if totalGrossOut = 0 then .ok () else checkRatio spreadTotal totalGrossOut maxAllowed

def checkMaxSpread (beliefPrice maxSpread : Option Decimal) (inputs : MaxSpreadInputs) :
    Except CheckMaxSpreadError Unit :=
  let maxAllowed := maxSpread.getD defaultMaxSpread
  match beliefPrice with
  | some bp => checkBelief bp maxAllowed inputs
  | none => checkNoBelief maxAllowed inputs

end Cl8yDex
