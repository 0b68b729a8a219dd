import Mathlib.Algebra.Order.Field.Rat
import Mathlib.Data.List.Induction
import Mathlib.Tactic.Linarith
import Mathlib.Tactic.Ring
import Mathlib.Tactic.FieldSimp

/-!
# Trader positions

A trader's position on a pair and its profit, updated by every ingested swap and rebuilt by
a replay of the stored swaps. Amounts and quotients are rationals; the numeric columns of the
tables are wide enough for both.
-/

namespace Cl8yDex.TraderPositions

/-- A stored swap, with the base asset of its pair. A swap offers something. -/
structure SwapForPosition where
  pairId : ℕ
  pairAsset0Id : ℕ
  sender : String
  offerAssetId : ℕ
  offerAmount : ℚ
  returnAmount : ℚ
  spreadAmount : Option ℚ
  commissionAmount : Option ℚ
  offer_pos : 0 < offerAmount
  return_nonneg : 0 ≤ returnAmount

structure PositionRow where
  netPositionQuote : ℚ
  avgEntryPrice : ℚ
  totalCostBase : ℚ
  realizedPnl : ℚ
  tradeCount : ℕ
  deriving DecidableEq

structure TraderRow where
  totalRealizedPnl : ℚ
  bestTradePnl : Option ℚ
  worstTradePnl : Option ℚ
  totalFeesPaid : ℚ

structure Tables where
  positions : String → ℕ → Option PositionRow
  traders : String → Option TraderRow

def PositionRow.empty : PositionRow := ⟨0, 0, 0, 0, 0⟩

/-- The position left by a sale, never negative. -/
def netQuoteAfterSell (oldPos offerAmount : ℚ) : ℚ :=
  let raw := oldPos - offerAmount
  if raw < 0 then 0 else raw

namespace SwapForPosition

def buyingQuote (swap : SwapForPosition) : Bool := swap.offerAssetId = swap.pairAsset0Id

def fees (swap : SwapForPosition) : ℚ :=
  swap.spreadAmount.getD 0 + swap.commissionAmount.getD 0

def exitPrice (swap : SwapForPosition) : ℚ :=
  if swap.offerAmount > 0 then swap.returnAmount / swap.offerAmount else 0

end SwapForPosition

namespace PositionRow

/-- Base offered, quote received. -/
def buy (old : PositionRow) (swap : SwapForPosition) : PositionRow :=
  let newPos := old.netPositionQuote + swap.returnAmount
  let newCost := old.totalCostBase + swap.offerAmount
  let newAvg := if newPos > 0 then newCost / newPos else 0
  ⟨newPos, newAvg, newCost, old.realizedPnl, old.tradeCount + 1⟩

def tradePnl (old : PositionRow) (swap : SwapForPosition) : ℚ :=
  (swap.exitPrice - old.avgEntryPrice) * swap.offerAmount

/-- Quote offered, base received. -/
def sell (old : PositionRow) (swap : SwapForPosition) : PositionRow :=
  let newRpnl := old.realizedPnl + old.tradePnl swap
  let newPos := netQuoteAfterSell old.netPositionQuote swap.offerAmount
  let costAvg := if newPos > 0 then (newPos * old.avgEntryPrice, old.avgEntryPrice) else (0, 0)
  ⟨newPos, costAvg.2, costAvg.1, newRpnl, old.tradeCount + 1⟩

def apply (old : PositionRow) (swap : SwapForPosition) : PositionRow :=
  if swap.buyingQuote then old.buy swap else old.sell swap

end PositionRow

namespace TraderRow

/-- The best trade so far. A stored zero beside losses is read as unset. -/
def best (row : TraderRow) (pnl : ℚ) : ℚ :=
  match row.bestTradePnl, row.worstTradePnl with
  | none, worst => max pnl (worst.getD pnl)
  | some best, some worst =>
    if best = 0 ∧ worst < 0 ∧ row.totalRealizedPnl = worst then max pnl worst
    else if best = 0 ∧ worst < 0 ∧ row.totalRealizedPnl < worst then
      max (max pnl worst) (row.totalRealizedPnl - worst)
    else max best pnl
  | some best, none => max best pnl

def addPnl (row : TraderRow) (pnl fees : ℚ) : TraderRow where
  totalRealizedPnl := row.totalRealizedPnl + pnl
  bestTradePnl := some (row.best pnl)
  worstTradePnl := some (row.worstTradePnl.elim pnl fun worst => min worst pnl)
  totalFeesPaid := row.totalFeesPaid + fees

def addFees (row : TraderRow) (fees : ℚ) : TraderRow :=
  { row with totalFeesPaid := row.totalFeesPaid + fees }

def cleared : TraderRow := ⟨0, none, none, 0⟩

end TraderRow

namespace Tables

def upsertPosition (tables : Tables) (sender : String) (pair : ℕ) (row : PositionRow) : Tables :=
  { tables with positions := fun address id =>
      if address = sender ∧ id = pair then some row else tables.positions address id }

def updateTrader (tables : Tables) (sender : String) (update : TraderRow → TraderRow) : Tables :=
  { tables with traders := fun address =>
      if address = sender then (tables.traders address).map update else tables.traders address }

def updatePositionOnSwap (tables : Tables) (swap : SwapForPosition) : Tables :=
  let old := (tables.positions swap.sender swap.pairId).getD .empty
  let tables := tables.upsertPosition swap.sender swap.pairId (old.apply swap)
  if swap.buyingQuote then tables.updateTrader swap.sender fun row => row.addFees swap.fees
  else tables.updateTrader swap.sender fun row => row.addPnl (old.tradePnl swap) swap.fees

/-- The stored swaps, ordered by block and id, replayed over cleared tables. -/
def rebuildAllPositionsFromSwaps (tables : Tables) (swaps : List SwapForPosition) : Tables :=
  swaps.foldl updatePositionOnSwap
    { positions := fun _ _ => none
      traders := fun address => (tables.traders address).map fun _ => TraderRow.cleared }

end Tables

/-- The swaps of one trader on one pair. -/
def historyOf (sender : String) (pair : ℕ) (swaps : List SwapForPosition) :
    List SwapForPosition :=
  swaps.filter fun swap => swap.sender = sender ∧ swap.pairId = pair

/-- The position after a history. -/
def after (history : List SwapForPosition) : PositionRow :=
  history.foldl PositionRow.apply .empty

theorem after_append (history : List SwapForPosition) (swap : SwapForPosition) :
    after (history ++ [swap]) = (after history).apply swap := by
  simp [after]

section Replay

theorem updatePositionOnSwap_positions (tables : Tables) (sender : String) (pair : ℕ)
    (swap : SwapForPosition) :
    (tables.updatePositionOnSwap swap).positions sender pair =
      if sender = swap.sender ∧ pair = swap.pairId then
        some (((tables.positions sender pair).getD .empty).apply swap)
      else tables.positions sender pair := by
  have hpositions : (tables.updatePositionOnSwap swap).positions sender pair =
      if sender = swap.sender ∧ pair = swap.pairId then
        some (((tables.positions swap.sender swap.pairId).getD .empty).apply swap)
      else tables.positions sender pair := by
    unfold Tables.updatePositionOnSwap
    dsimp only
    split <;> rfl
  rw [hpositions]
  split
  case isTrue h => rw [h.1, h.2]
  case isFalse => rfl

/-- The swaps of others do not touch the row of a trader on a pair. -/
theorem foldl_positions (sender : String) (pair : ℕ) (swaps : List SwapForPosition) :
    ∀ tables : Tables, (swaps.foldl Tables.updatePositionOnSwap tables).positions sender pair =
      if historyOf sender pair swaps = [] then tables.positions sender pair
      else some ((historyOf sender pair swaps).foldl PositionRow.apply
        ((tables.positions sender pair).getD .empty)) := by
  induction swaps with
  | nil =>
    intro tables
    rfl
  | cons swap swaps ih =>
    intro tables
    have hupdated := updatePositionOnSwap_positions tables sender pair swap
    rw [List.foldl_cons, ih]
    by_cases hown : sender = swap.sender ∧ pair = swap.pairId
    · have hhistory : historyOf sender pair (swap :: swaps) =
          swap :: historyOf sender pair swaps := by
        simp [historyOf, hown]
      rw [if_pos hown] at hupdated
      rw [hhistory, if_neg (List.cons_ne_nil _ _), hupdated, Option.getD_some, List.foldl_cons]
      split
      case isTrue hempty => rw [hempty, List.foldl_nil]
      case isFalse => rfl
    · have hother : ¬ (swap.sender = sender ∧ swap.pairId = pair) :=
        fun h => hown ⟨h.1.symm, h.2.symm⟩
      have hhistory : historyOf sender pair (swap :: swaps) = historyOf sender pair swaps := by
        simp [historyOf, hother]
      rw [if_neg hown] at hupdated
      rw [hhistory, hupdated]

/-- What the tables hold for a trader on a pair is the position after the trader's own
history, and a rebuild gives the same row. -/
theorem positions_of_history (tables : Tables) (sender : String) (pair : ℕ)
    (swaps : List SwapForPosition)
    (hempty : tables.positions sender pair = none) :
    (swaps.foldl Tables.updatePositionOnSwap tables).positions sender pair =
        (if historyOf sender pair swaps = [] then none
          else some (after (historyOf sender pair swaps))) ∧
      ((swaps.foldl Tables.updatePositionOnSwap tables).rebuildAllPositionsFromSwaps
        swaps).positions sender pair =
          (swaps.foldl Tables.updatePositionOnSwap tables).positions sender pair := by
  have hlive := foldl_positions sender pair swaps tables
  rw [hempty] at hlive
  constructor
  · exact hlive
  · rw [hlive]
    exact foldl_positions sender pair swaps _

end Replay

end Cl8yDex.TraderPositions
