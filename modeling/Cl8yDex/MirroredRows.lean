import Cl8yDex.LocalLeg
import Cl8yDex.Matching
import Cl8yDex.FillCapacity
import Mathlib.Data.Rat.Floor
import Mathlib.Algebra.Order.Field.Rat
import Mathlib.Tactic.FieldSimp

/-!
# The mirrored book

The indexer keeps the resting orders of a pair as rows of decimals and walks them itself when it
quotes a leg that touches the book. The walk decodes each row to machine integers, sets aside what
it cannot decode, and sums up the fills like the pair's own walk.
-/

namespace Cl8yDex.LocalQuote

open Outcome Listing

/-- A row of the mirrored book, whose numbers are decimals of any size. -/
structure RestingOrderRow where
  orderId : ℤ
  side : String
  price : ℚ
  remaining : ℚ
  expiresAt : Option ℤ

section Rows

/-- The whole part of a decimal that is an unsigned machine integer. -/
def parseDecimal (value : ℚ) : Option ℕ :=
  let whole := if 0 ≤ value then ⌊value⌋ else ⌈value⌉
  if 0 ≤ whole ∧ whole ≤ u128Max then some whole.toNat else none

def exactU128 (value : ℚ) : Option ℕ :=
  (parseDecimal value).filter fun amount => value = amount

def decimalScale : ℕ := 10 ^ 18

def priceAtomics (price : ℚ) : Option ℕ :=
  (exactU128 (price * decimalScale)).filter fun atomics => 0 < atomics

def mulFloorAtomics (amount atomics : ℕ) : Option ℕ :=
  if amount * atomics / decimalScale ≤ u128Max then some (amount * atomics / decimalScale) else none

def inverseAtomics (atomics : ℕ) : Option ℕ :=
  if atomics = 0 then none
  else if decimalScale * decimalScale / atomics ≤ u128Max then
    (some (decimalScale * decimalScale / atomics)).filter fun inverse => 0 < inverse
  else none

/-- Whether a row can be filled at all; `none` when a product is too wide. -/
def rowFillable (side : String) (remaining price inverse : ℕ) : Option Bool :=
  if side = "bid" then do
    let capacity ← mulFloorAtomics remaining inverse
    let cost ← mulFloorAtomics capacity price
    return decide (0 < capacity ∧ 0 < cost ∧ cost ≤ remaining)
  else if side = "ask" then
    -- the full notional of an ask may be wider than any payable part of it
    some (decide (decimalScale ≤ remaining * price))
  else some false

/-- The remainder, the price and its inverse of a row that can be filled. -/
def economicOrderTerms (order : RestingOrderRow) : Option (ℕ × ℕ × ℕ) := do
  let remaining ← (exactU128 order.remaining).filter fun remaining => remaining ≠ 0
  let price ← priceAtomics order.price
  let inverse ← inverseAtomics price
  let fillable ← rowFillable order.side remaining price inverse
  if fillable then some (remaining, price, inverse) else none

def orderIsExpired (order : RestingOrderRow) (nowSecs : ℕ) : Bool :=
  order.expiresAt.any fun expiry => expiry ≤ 0 ∨ expiry.toNat ≤ nowSecs

/-- The rows from a usable start hint on, else all of them. -/
def bookOrdersFromHint (orders : List RestingOrderRow) (bookStartHint : Option OrderId)
    (expectedSide : String) : List RestingOrderRow :=
  match bookStartHint with
  | some hint =>
      match orders.findIdx? fun o => o.orderId % (u64Max + 1 : ℤ) = hint ∧ o.side = expectedSide ∧
          0 < (parseDecimal o.remaining).getD 0 with
      | some pos => orders.drop pos
      | none => orders
  | none => orders

end Rows

section Fills

/-- Lower the token0 amount until its cost fits the limit; too wide a cost counts as zero. -/
def adjustLocalFill (price limit : ℕ) : ℕ → ℕ → ℕ × ℕ
  | 0, cost => (0, cost)
  | fill + 1, cost =>
      if limit < cost then
        if fill = 0 then (0, cost)
        else adjustLocalFill price limit fill ((mulFloorAtomics fill price).getD 0)
      else (fill + 1, cost)

def pricedLocalFill (price limit maxFill : ℕ) : Option (ℕ × ℕ) :=
  if maxFill = 0 then none
  else
    let out := adjustLocalFill price limit maxFill ((mulFloorAtomics maxFill price).getD 0)
    if out.1 = 0 ∨ out.2 = 0 then none else some out

/-- The offer that a fill takes and the amount that it pays out, from the budget that is left. -/
def localFill (side : LimitOrderSide) (left : ℕ) (terms : ℕ × ℕ × ℕ) : Option (ℕ × ℕ) :=
  let (remaining, price, inverse) := terms
  match side with
  | .bid => do
      let maxFillFromBid ← mulFloorAtomics remaining inverse
      pricedLocalFill price remaining (min left maxFillFromBid)
  | .ask => do
      let maxFillFromBudget ← mulFloorAtomics left inverse
      let (fillT0, cost) ← pricedLocalFill price left (min remaining maxFillFromBudget)
      return (cost, fillT0)

def addLocalFill (takerBps : ℕ) (tally : Tally) (offer taken : ℕ) : Except DbSimError Tally := do
  let scaled ← orThrow (checkedMul taken takerBps) .invalidNumeric
  let commission := scaled / 10000
  let net := taken - commission
  let commissionTotal ← orThrow (checkedAdd tally.commissionTotal commission) .invalidNumeric
  let outTotal ← orThrow (checkedAdd tally.outTotal net) .invalidNumeric
  return ⟨tally.left - offer, outTotal, commissionTotal, tally.makersUsed + 1⟩

end Fills

section Walk

variable (side : LimitOrderSide) (nowSecs cap takerBps : ℕ)

/-- One row: set aside or filled. -/
def localStep (tally : Tally) (order : RestingOrderRow) : Except DbSimError Tally :=
  if order.side ≠ side.sideStr ∨ orderIsExpired order nowSecs then .ok tally
  else
    match (economicOrderTerms order).bind (localFill side tally.left) with
    | none => .ok tally
    | some (offer, taken) => addLocalFill takerBps tally offer taken

def localWalk : ℕ → List RestingOrderRow → Tally → Except DbSimError Tally
  | 0, _, tally => .ok tally
  | _ + 1, [], tally => .ok tally
  | scanLeft + 1, order :: orders, tally =>
      if cap ≤ tally.makersUsed ∨ tally.left = 0 then .ok tally
      else do
        let tally ← localStep side nowSecs takerBps tally order
        localWalk scanLeft orders tally

end Walk

structure BookSimResult where
  returnNet : ℕ
  offerConsumed : ℕ
  commissionAmount : ℕ
  deriving DecidableEq

def BookSimResult.default : BookSimResult := ⟨0, 0, 0⟩

def localTakerFeeBps (effectiveFeeBps : ℕ) : ℕ := effectiveFeeBps - effectiveFeeBps / 2

/-- The body shared by the two walks. -/
def simulateMatchSide (side : LimitOrderSide) (nowSecs : ℕ) (orders : List RestingOrderRow)
    (budget maxMakerFills effectiveFeeBps : ℕ) (bookStartHint : Option OrderId) :
    Except DbSimError BookSimResult := do
  let tally ← localWalk side nowSecs (min maxMakerFills maxMakerFillsHardCap)
    (localTakerFeeBps effectiveFeeBps) maxScanSteps
    (bookOrdersFromHint orders bookStartHint side.sideStr) ⟨budget, 0, 0, 0⟩
  return ⟨tally.outTotal, budget - tally.left, tally.commissionTotal⟩

def simulateMatchBids (nowSecs : ℕ) (orders : List RestingOrderRow) (token0Budget maxMakerFills
    effectiveFeeBps : ℕ) (bookStartHint : Option OrderId) : Except DbSimError BookSimResult :=
  simulateMatchSide .bid nowSecs orders token0Budget maxMakerFills effectiveFeeBps bookStartHint

def simulateMatchAsks (nowSecs : ℕ) (orders : List RestingOrderRow) (token1Budget maxMakerFills
    effectiveFeeBps : ℕ) (bookStartHint : Option OrderId) : Except DbSimError BookSimResult :=
  simulateMatchSide .ask nowSecs orders token1Budget maxMakerFills effectiveFeeBps bookStartHint

/-- What the indexer knows of a hop, with the two sides of its book. -/
structure BookMirror extends HopMirror where
  bids : List RestingOrderRow
  asks : List RestingOrderRow

structure HybridLegQuote extends LocalLegQuote where
  bookReturnNet : ℕ
  bookCommissionAmount : ℕ
  deriving DecidableEq

section Quote

variable (wide : WideDivision) (m : BookMirror) (nowSecs : ℕ) (offerToken : Addr)
  (offer bookInput maxFills : ℕ)

def quoteBook : Except DbSimError BookSimResult :=
  if bookInput = 0 then .ok .default
  else if offerToken = m.asset0Addr then
    simulateMatchBids nowSecs m.bids bookInput maxFills m.feeBps none
  else simulateMatchAsks nowSecs m.asks bookInput maxFills m.feeBps none

/-- `quote_local_leg`: the book first, its remainder and the rest from the pool. -/
def quoteHybridLeg : Except DbSimError HybridLegQuote := do
  ensure (bookInput ≤ offer ∧ m.feeBps ≤ 10000 ∧
    (m.freshness = .fresh ∨ m.freshness = .emptyPool)) .invalidNumeric
  let reserves ← orThrow (m.reserves offerToken) .invalidNumeric
  let book ← quoteBook m nowSecs offerToken bookInput maxFills
  let actual ← orThrow (checkedSub offer book.offerConsumed) .invalidNumeric
  let gross ← simulatePoolLeg wide reserves.1 reserves.2 actual 0
  let commission := swapFeeAmount gross m.feeBps
  let poolNet ← orThrow (checkedSub gross commission) .invalidNumeric
  let ideal ← idealOutput reserves.1 reserves.2 actual
  let total ← orThrow (checkedAdd poolNet book.returnNet) .invalidNumeric
  return ⟨⟨total, poolNet, commission, ideal - gross, actual⟩, book.returnNet,
    book.commissionAmount⟩

end Quote

end Cl8yDex.LocalQuote

/-!
## Mirrored rows and resting orders

A row that holds an order's exact numbers decodes to these numbers, and the two matchers agree on
whether it can be filled, how much of it a budget takes and what this pays.
-/

namespace Cl8yDex.LocalQuote

open Outcome Reciprocal

/-- The row holds the exact numbers of the order. -/
structure RestingOrderRow.Mirrors (row : RestingOrderRow) (t : OrderTerms) : Prop where
  side : row.side = t.side.sideStr
  price : row.price = (t.price.atomics : ℚ) / decimalScale
  remaining : row.remaining = t.remaining
  expiry : row.expiresAt = t.expiresAt.map fun e => (e : ℤ)
  priceFits : t.price.atomics ≤ u128Max
  remainingFits : t.remaining ≤ u128Max

section Decode

variable {row : RestingOrderRow} {t : OrderTerms} {n : ℕ}

theorem decimalScale_pos : 0 < decimalScale := by
  unfold decimalScale
  positivity

theorem exactU128_natCast (h : n ≤ u128Max) : exactU128 (n : ℚ) = some n := by
  have hnonneg : (0 : ℚ) ≤ n := Nat.cast_nonneg n
  unfold exactU128 parseDecimal
  rw [if_pos hnonneg, Int.floor_natCast]
  dsimp only
  rw [if_pos ⟨Int.natCast_nonneg n, by exact_mod_cast h⟩, Int.toNat_natCast]
  simp

theorem priceAtomics_eq (h : row.Mirrors t) :
    priceAtomics row.price = if t.price.isZero then none else some t.price.atomics := by
  have hscale : (decimalScale : ℚ) ≠ 0 := by
    exact_mod_cast decimalScale_pos.ne'
  have hvalue : row.price * decimalScale = t.price.atomics := by
    rw [h.price, div_mul_cancel₀ _ hscale]
  unfold priceAtomics
  rw [hvalue, exactU128_natCast h.priceFits]
  by_cases hzero : t.price.atomics = 0
  · simp [Decimal.isZero, hzero]
  · simp [Decimal.isZero, hzero, Nat.pos_of_ne_zero hzero]

theorem remaining_eq (h : row.Mirrors t) :
    (exactU128 row.remaining).filter (fun remaining => remaining ≠ 0) =
      if t.remaining = 0 then none else some t.remaining := by
  rw [h.remaining, exactU128_natCast h.remainingFits]
  by_cases hzero : t.remaining = 0 <;> simp [hzero]

theorem orderIsExpired_eq (h : row.Mirrors t) (now : ℕ) :
    orderIsExpired row now = isTimeExpired t.expiresAt now := by
  unfold orderIsExpired isTimeExpired
  rw [h.expiry]
  cases t.expiresAt with
  | none => rfl
  | some e =>
      have hsame : ((e : ℤ) ≤ 0 ∨ (e : ℤ).toNat ≤ now) ↔ e ≤ now := by omega
      exact decide_eq_decide.2 hsame

end Decode

section Products

variable {amount n left limit : ℕ} {price : Decimal} {row : RestingOrderRow} {t : OrderTerms}

theorem mulFloorAtomics_eq : mulFloorAtomics amount price.atomics =
    Decimal.checkedMulFloor amount price := by
  unfold Decimal.checkedMulFloor checkedMultiplyRatio
  rw [if_neg Decimal.fractional_pos.ne']
  rfl

theorem mulFloorAtomics_inverse :
    mulFloorAtomics amount (inverse Decimal.fractional price.atomics) =
      if price.buys amount ≤ u128Max then some (price.buys amount) else none := rfl

theorem inverseAtomics_eq (hp : price.isZero = false) :
    inverseAtomics price.atomics = if inverse Decimal.fractional price.atomics = 0 then none
      else some (inverse Decimal.fractional price.atomics) := by
  have hne : price.atomics ≠ 0 := by simpa [Decimal.isZero] using hp
  have hfits : decimalScale * decimalScale / price.atomics ≤ u128Max :=
    (Nat.div_le_self _ _).trans (by decide)
  have hsame : decimalScale * decimalScale / price.atomics =
      inverse Decimal.fractional price.atomics := rfl
  unfold inverseAtomics
  rw [if_neg hne, if_pos hfits, hsame]
  by_cases hzero : inverse Decimal.fractional price.atomics = 0
  · rw [if_pos hzero, hzero]
    rfl
  · rw [if_neg hzero]
    simp [Nat.pos_of_ne_zero hzero]

theorem rowFillable_eq (side : LimitOrderSide) (hn : n ≠ 0) (hp : price.isZero = false)
    (hinv : inverse Decimal.fractional price.atomics ≠ 0) :
    (rowFillable side.sideStr n price.atomics (inverse Decimal.fractional price.atomics)).getD
      false = isLimitOrderFillable side n price := by
  rw [Bool.eq_iff_iff, isLimitOrderFillable_iff]
  unfold rowFillable
  cases side with
  | ask =>
      have hbid : LimitOrderSide.ask.sideStr ≠ "bid" := by decide
      have hask : LimitOrderSide.ask.sideStr = "ask" := rfl
      rw [if_neg hbid, if_pos hask, Option.getD_some, decide_eq_true_iff]
      exact ⟨fun h => ⟨hn, hp, hinv, h⟩, fun h => h.2.2.2⟩
  | bid =>
      have hbid : LimitOrderSide.bid.sideStr = "bid" := rfl
      rw [if_pos hbid, mulFloorAtomics_inverse]
      by_cases hbuys : price.buys n ≤ u128Max
      · rw [if_pos hbuys, Option.bind_eq_bind, Option.bind_some, mulFloorAtomics_eq]
        by_cases hcost : price.costs (price.buys n) ≤ u128Max
        · have hle : price.costs (price.buys n) ≤ n := Decimal.costs_le le_rfl
          have hcapacity : price.costs (price.buys n) ≠ 0 → 0 < price.buys n := by
            intro hne
            rcases Nat.eq_zero_or_pos (price.buys n) with hzero | hpos
            · rw [hzero] at hne
              exact absurd cost_zero hne
            · exact hpos
          rw [checkedMulFloor_eq hcost]
          simp only [Option.bind_some, Option.pure_def, Option.getD_some, decide_eq_true_eq]
          constructor
          · exact fun h => ⟨hn, hp, hinv, hbuys, hcost, h.2.1.ne'⟩
          · rintro ⟨-, -, -, -, -, hne⟩
            exact ⟨hcapacity hne, Nat.pos_of_ne_zero hne, hle⟩
        · have hnone : Decimal.checkedMulFloor (price.buys n) price = none := by
            cases hc : Decimal.checkedMulFloor (price.buys n) price with
            | none => rfl
            | some c => exact absurd (Decimal.checkedMulFloor_eq_some.1 hc).1 hcost
          rw [hnone]
          constructor
          · intro h
            cases h
          · exact fun h => absurd h.2.2.2.2.1 hcost
      · rw [if_neg hbuys]
        constructor
        · intro h
          cases h
        · exact fun h => absurd h.2.2.2.1 hbuys

/-- The two fillability tests agree, and the decoded terms are the order's. -/
theorem economicOrderTerms_eq (h : row.Mirrors t) : economicOrderTerms row =
    if isLimitOrderFillable t.side t.remaining t.price then
      some (t.remaining, t.price.atomics, inverse Decimal.fractional t.price.atomics)
    else none := by
  have hno : ¬(t.remaining ≠ 0 ∧ t.price.isZero = false ∧
      inverse Decimal.fractional t.price.atomics ≠ 0) →
      ¬isLimitOrderFillable t.side t.remaining t.price = true := by
    intro hbad hfill
    obtain ⟨hrem, hp, hinv, -⟩ := isLimitOrderFillable_iff.1 hfill
    exact hbad ⟨hrem, hp, hinv⟩
  unfold economicOrderTerms
  rw [remaining_eq h, priceAtomics_eq h, h.side]
  by_cases hrem : t.remaining = 0
  · rw [if_pos hrem, if_neg (hno fun hok => hok.1 hrem)]
    rfl
  rw [if_neg hrem]
  cases hp : t.price.isZero with
  | true =>
      have hbad : ¬isLimitOrderFillable t.side t.remaining t.price = true := by
        apply hno
        rintro ⟨-, hfalse, -⟩
        rw [hp] at hfalse
        cases hfalse
      rw [if_neg hbad]
      rfl
  | false =>
      by_cases hinv : inverse Decimal.fractional t.price.atomics = 0
      · rw [if_neg (hno fun hok => hok.2.2 hinv)]
        simp [inverseAtomics_eq hp, hinv]
      · have hrow := rowFillable_eq t.side hrem hp hinv
        rw [← hrow]
        simp only [inverseAtomics_eq hp, if_neg hinv, Bool.false_eq_true, if_false,
          Option.bind_eq_bind, Option.bind_some]
        cases rowFillable t.side.sideStr t.remaining t.price.atomics
            (inverse Decimal.fractional t.price.atomics) with
        | none => rfl
        | some fillable => rfl

/-- A fill whose cost fits is taken as it is. -/
theorem pricedLocalFill_eq (hlimit : price.costs n ≤ limit) (hfits : price.costs n ≤ u128Max) :
    pricedLocalFill price.atomics limit n =
      if price.costs n = 0 then none else some (n, price.costs n) := by
  unfold pricedLocalFill
  cases n with
  | zero =>
      have hzero : price.costs 0 = 0 := cost_zero
      rw [if_pos rfl, if_pos hzero]
  | succ n =>
      have hadjust : adjustLocalFill price.atomics limit (n + 1) (price.costs (n + 1)) =
          (n + 1, price.costs (n + 1)) := by
        unfold adjustLocalFill
        rw [if_neg (not_lt.2 hlimit)]
      rw [if_neg (Nat.succ_ne_zero n), mulFloorAtomics_eq, checkedMulFloor_eq hfits,
        Option.getD_some, hadjust]
      simp

/-- On an order that can be filled, the two matchers take the same fill. -/
theorem localFill_eq (hfill : isLimitOrderFillable t.side t.remaining t.price = true)
    (hleft : left ≤ u128Max) :
    planFill t.side left t = .ok (localFill t.side left
      (t.remaining, t.price.atomics, inverse Decimal.fractional t.price.atomics)) := by
  obtain ⟨-, hp, -, hside⟩ := isLimitOrderFillable_iff.1 hfill
  unfold localFill
  cases hs : t.side with
  | bid =>
      rw [hs] at hside
      obtain ⟨hbuys, hcost, -⟩ := hside
      have hle := min_le_right left (t.price.buys t.remaining)
      change bidFill left t = _
      rw [bidFill_eq hp hbuys hcost]
      dsimp only
      rw [mulFloorAtomics_inverse, if_pos hbuys, Option.bind_eq_bind, Option.bind_some,
        pricedLocalFill_eq (Decimal.costs_le hle) ((Decimal.costs_mono hle).trans hcost)]
  | ask =>
      change askFill left t = _
      dsimp only
      rw [mulFloorAtomics_inverse]
      by_cases hbuys : t.price.buys left ≤ u128Max
      · have hle := min_le_right t.remaining (t.price.buys left)
        have hcost := Decimal.costs_le hle
        rw [askFill_eq hp hbuys hleft, if_pos hbuys, Option.bind_eq_bind, Option.bind_some,
          pricedLocalFill_eq hcost (hcost.trans hleft)]
        split_ifs <;> rfl
      · rw [askFill_overflow hp (not_le.1 hbuys), if_neg hbuys]
        rfl

end Products

end Cl8yDex.LocalQuote
