import Cl8yDex.Types

/-!
# Placement rules of limit orders

The human-scale price band, the fillability predicate that placement, matching and cleanup share,
and the expansion of a ladder into rungs.
-/

namespace Cl8yDex

open Outcome

def minLimitPlaceRemaining : ℕ := limitOrderDustFlushThreshold

def minLimitPrice : Decimal := ⟨10 ^ 9⟩

def maxLimitPrice : Decimal := ⟨10 ^ 27⟩

def clampMaxBatchRungs (maxRungs : ℕ) : ℕ := max 1 (min maxRungs maxLimitBatchRungsHardCap)

/-- `price · 10^(decimals0 − decimals1)`. -/
def humanScaleLimitPrice (price : Decimal) (decimals0 decimals1 : ℕ) : Except String Decimal :=
  if 18 < decimals0 ∨ 18 < decimals1 then .error "asset decimals exceed bootstrap cap"
  else if decimals0 = decimals1 then .ok price
  else if decimals1 < decimals0 then
    orThrow (price.checkedMul ⟨10 ^ (decimals0 - decimals1) * Decimal.fractional⟩)
      "limit price human-scale overflow"
  else
    orThrow (price.checkedDiv ⟨10 ^ (decimals1 - decimals0) * Decimal.fractional⟩)
      "limit price human-scale overflow"

def validateLimitOrderPrice (price : Decimal) (decimals0 decimals1 : ℕ) : Except String Unit := do
  ensure (¬price.isZero) "limit price must be positive"
  let human ← humanScaleLimitPrice price decimals0 decimals1
  ensure (¬human.isZero) "limit price below minimum"
  ensure (¬human < minLimitPrice) "limit price below minimum"
  ensure (¬maxLimitPrice < human) "limit price above maximum"

/-- Whether the whole remainder supports a positive fill and payment under matching arithmetic. -/
def isLimitOrderFillable (side : LimitOrderSide) (remaining : ℕ) (price : Decimal) : Bool :=
  if remaining = 0 ∨ price.isZero then false
  else
    match Decimal.one.checkedDiv price with
    | none => false
    | some inverse =>
        if inverse.isZero then false
        else
          match side with
          | .ask => Decimal.one.atomics ≤ remaining * price.atomics
          | .bid =>
              match Decimal.checkedMulFloor remaining inverse with
              | none => false
              | some capacity =>
                  match Decimal.checkedMulFloor capacity price with
                  | none => false
                  | some payment => capacity ≠ 0 ∧ payment ≠ 0 ∧ payment ≤ remaining

def validateLimitOrderFillability (side : LimitOrderSide) (remaining : ℕ) (price : Decimal) :
    Except String Unit :=
  ensure (isLimitOrderFillable side remaining price)
    "limit order remaining cannot support a positive fill and payment"

structure LimitOrderPlacementItem where
  price : Decimal
  amount : ℕ
  maxAdjustSteps : ℕ
  expiresAt : Option ℕ
  hintAfterOrderId : Option OrderId
  deriving DecidableEq

/-- The distribution field has the one value `Equal`, so the model leaves it out. -/
structure LimitOrderLadderSpec where
  side : LimitOrderSide
  startPrice : Decimal
  endPrice : Decimal
  count : ℕ
  totalAmount : ℕ
  maxAdjustSteps : ℕ
  expiresAt : Option ℕ
  hintAfterOrderId : Option OrderId
  deriving DecidableEq

/-- The head-most rung in book order. -/
def ladderBoundaryRungIndex (side : LimitOrderSide) (start stop : Decimal) (count : ℕ) : ℕ :=
  match side with
  | .bid => if stop ≤ start then 0 else count - 1
  | .ask => if start ≤ stop then 0 else count - 1

def ladderPrice (start stop stepSize : Decimal) (count i : ℕ) : Except String Decimal :=
  if i = 0 then .ok start
  else if i = count - 1 then .ok stop
  else do
    let offset ← orThrow (stepSize.checkedMul ⟨i * Decimal.fractional⟩) "ladder price multiply"
    if stop < start then orThrow (start.checkedSub offset) "ladder price subtract"
    else orThrow (start.checkedAdd offset) "ladder price add"

def ladderPrices (start stop : Decimal) (count : ℕ) : Except String (List Decimal) :=
  if count = 1 then .ok [start]
  else do
    let span ← orThrow (if stop < start then start.checkedSub stop else stop.checkedSub start)
      "ladder price range overflow"
    let stepSize ← orThrow (span.checkedDiv ⟨(count - 1) * Decimal.fractional⟩)
      "ladder price step divide"
    (List.range count).mapM (ladderPrice start stop stepSize count)

/-- Equal shares, the remainder on the last rung. -/
def ladderAmountsEqual (total count : ℕ) : List ℕ :=
  (List.range count).map fun i =>
    if i = count - 1 then total / count + total % count else total / count

def expandLimitLadder (spec : LimitOrderLadderSpec) (maxRungs decimals0 decimals1 : ℕ) :
    Except String (List LimitOrderPlacementItem) := do
  ensure (2 ≤ spec.count) "ladder count must be at least 2"
  ensure (spec.count ≤ maxRungs) ("ladder count " ++ toString spec.count ++
    " exceeds pair max_batch_rungs " ++ toString maxRungs)
  ensure (¬(spec.startPrice.isZero ∨ spec.endPrice.isZero)) "ladder prices must be positive"
  validateLimitOrderPrice spec.startPrice decimals0 decimals1
  validateLimitOrderPrice spec.endPrice decimals0 decimals1
  ensure (spec.totalAmount ≠ 0) "ladder total_amount must be positive"
  let prices ← ladderPrices spec.startPrice spec.endPrice spec.count
  prices.forM fun price => validateLimitOrderPrice price decimals0 decimals1
  let amounts := ladderAmountsEqual spec.totalAmount spec.count
  amounts.forM fun amount => ensure (minLimitPlaceRemaining ≤ amount)
    ("limit order amount too small: remaining " ++ toString amount ++ " is below minimum " ++
      toString minLimitPlaceRemaining)
  (prices.zip amounts).forM fun rung => validateLimitOrderFillability spec.side rung.2 rung.1
  let boundary := ladderBoundaryRungIndex spec.side spec.startPrice spec.endPrice spec.count
  return (prices.zip amounts).mapIdx fun idx rung =>
    { price := rung.1
      amount := rung.2
      maxAdjustSteps := spec.maxAdjustSteps
      expiresAt := spec.expiresAt
      hintAfterOrderId := if idx = boundary then spec.hintAfterOrderId else none }

/-- Maker-side basis points, charged once at placement. -/
def makerFeeBps (effectiveFeeBps : ℕ) : ℕ := effectiveFeeBps / 2

/-- Taker-side basis points of each book fill; the two halves add up to the effective fee. -/
def takerFeeBps (effectiveFeeBps : ℕ) : ℕ := effectiveFeeBps - makerFeeBps effectiveFeeBps

theorem maker_add_taker (bps : ℕ) : makerFeeBps bps + takerFeeBps bps = bps := by
  unfold takerFeeBps makerFeeBps
  omega

end Cl8yDex
