import Cl8yDex.Types

/-!
# The time-weighted price oracle

A ring of observations, each with the integral of the two spot prices up to its timestamp. The
execute paths append to the ring before they change the reserves; `Observe` extrapolates from the
newest observation or interpolates between two of them.
-/

namespace Cl8yDex

open Outcome

structure Observation where
  timestamp : ℕ
  priceACumulative : ℕ
  priceBCumulative : ℕ
  deriving DecidableEq, Repr

structure OracleState where
  cardinality : ℕ
  index : ℕ
  cardinalityInitialized : ℕ
  deriving DecidableEq, Repr

/-- `ORACLE_STATE` together with the `OBSERVATIONS` map. -/
structure Oracle where
  state : OracleState
  observations : ℕ → Option Observation

def maxObservationCardinality : ℕ := 65000
def defaultObservationCardinality : ℕ := 360

def Oracle.initial : Oracle where
  state := ⟨defaultObservationCardinality, 0, 0⟩
  observations _ := none

def oracleErr (reason : String) : ContractError := .oracle reason

/-- How an overflow of a checked 256-bit operation is reported. -/
def overflowText (operation : String) (a b : ℕ) : String :=
  "Cannot " ++ operation ++ " with " ++ toString a ++ " and " ++ toString b

/-- A sum of ring indices; the build aborts when it does not fit sixteen bits. -/
def addU16 (a b : ℕ) : Except ContractError ℕ :=
  if a + b ≤ u16Max then .ok (a + b) else .error (.abort .ringIndex)

def priceTimesDt (price : Decimal) (dt : ℕ) : Except ContractError ℕ :=
  orThrow (checkedMul256 price.atomics dt)
    (oracleErr ("oracle: price × dt overflow: " ++ overflowText "Mul" price.atomics dt))

def addPriceCumulative (last delta : ℕ) (label : String) : Except ContractError ℕ :=
  orThrow (checkedAdd256 last delta)
    (oracleErr (label ++ " overflow: " ++ overflowText "Add" last delta))

/-- The two spot prices, when both can be represented. -/
def spotPrices (reserveA reserveB : ℕ) : Option (Decimal × Decimal) := do
  let priceA ← Decimal.checkedFromRatio reserveB reserveA
  let priceB ← Decimal.checkedFromRatio reserveA reserveB
  return (priceA, priceB)

/-- The cumulatives `dt` seconds after `last` at constant prices. -/
def extrapolate (last : Observation) (prices : Decimal × Decimal) (dt : ℕ) :
    Except ContractError (ℕ × ℕ) := do
  let deltaA ← priceTimesDt prices.1 dt
  let deltaB ← priceTimesDt prices.2 dt
  let cumA ← addPriceCumulative last.priceACumulative deltaA "price_a"
  let cumB ← addPriceCumulative last.priceBCumulative deltaB "price_b"
  return (cumA, cumB)

namespace Oracle

def save (o : Oracle) (i : ℕ) (obs : Observation) : Oracle :=
  { o with observations := Function.update o.observations i (some obs) }

def load (o : Oracle) (i : ℕ) : Except ContractError Observation :=
  orThrow (o.observations i) (.std (.notFound "Observation"))

/-- The observation at offset `k` of `n`, or the newest one beyond the end. -/
def loadBefore (o : Oracle) (n k idx : ℕ) (latest : Observation) :
    Except ContractError Observation :=
  if k < n then o.load idx else .ok latest

/-- Where the next observation goes. -/
def nextIndex (s : OracleState) : Except ContractError ℕ :=
  if s.cardinalityInitialized < s.cardinality then .ok s.cardinalityInitialized
  else do
    let i ← addU16 s.index 1
    return i % s.cardinality

/-- Append the observation of a block that is newer than the last one. -/
def append (o : Oracle) (blockTime : ℕ) (last : Observation) (prices : Decimal × Decimal) :
    Except ContractError Oracle := do
  let (cumA, cumB) ← extrapolate last prices (blockTime - last.timestamp)
  let newIndex ← nextIndex o.state
  let initialized := if o.state.cardinalityInitialized < o.state.cardinality then
    o.state.cardinalityInitialized + 1 else o.state.cardinalityInitialized
  return { o.save newIndex ⟨blockTime, cumA, cumB⟩ with
    state := ⟨o.state.cardinality, newIndex, initialized⟩ }

/-- Record the reserves in force since the last observation. -/
def update (o : Oracle) (blockTime reserveA reserveB : ℕ) : Except ContractError Oracle :=
  if reserveA = 0 ∨ reserveB = 0 then .ok o
  else
    match o.observations o.state.index with
    | none => .ok { o.save o.state.index ⟨blockTime, 0, 0⟩ with
        state := { o.state with cardinalityInitialized := 1 } }
    | some last =>
        if blockTime ≤ last.timestamp then .ok o
        else
          match spotPrices reserveA reserveB with
          | none => .ok o
          | some prices => o.append blockTime last prices

/-- The slot that the ring is read from. -/
def oldestIdx (s : OracleState) : Except ContractError ℕ :=
  if s.cardinalityInitialized < s.cardinality then .ok 0
  else do
    let i ← addU16 s.index 1
    return i % s.cardinality

/-- The slot of the ring at `offset` from the oldest one. -/
def ringIdx (s : OracleState) (oldest offset : ℕ) : Except ContractError ℕ := do
  let i ← addU16 oldest offset
  return i % s.cardinality

/-- The offset of the last observation not newer than `target`, by binary search. -/
def search (o : Oracle) (target oldest lo hi : ℕ) : Except ContractError ℕ :=
  if lo < hi then do
    let mid := lo + (hi - lo + 1) / 2
    let midIdx ← ringIdx o.state oldest mid
    let obs ← o.load midIdx
    if obs.timestamp ≤ target then o.search target oldest mid hi
    else o.search target oldest lo (mid - 1)
  else .ok lo
termination_by hi - lo
decreasing_by all_goals omega

def interpolateText (label text : String) : ContractError :=
  oracleErr (label ++ " interpolate: " ++ text)

/-- One cumulative between two observations, in proportion to the time. -/
def interpolateOne (label : String) (before after dt timeSpan : ℕ) : Except ContractError ℕ := do
  let diff ← orThrow (if before ≤ after then some (after - before) else none)
    (interpolateText label (overflowText "Sub" after before))
  let step ← orThrow (checkedMultiplyRatio256 diff dt timeSpan)
    (interpolateText label "Multiplication overflow")
  orThrow (checkedAdd256 before step) (interpolateText label (overflowText "Add" before step))

def interpolate (before after : Observation) (target : ℕ) : Except ContractError (ℕ × ℕ) := do
  let timeSpan := after.timestamp - before.timestamp
  let dt := target - before.timestamp
  ensure (timeSpan ≠ 0) (oracleErr "observation timestamps are not ordered")
  let a ← interpolateOne "price_a" before.priceACumulative after.priceACumulative dt timeSpan
  let b ← interpolateOne "price_b" before.priceBCumulative after.priceBCumulative dt timeSpan
  return (a, b)

/-- The bracket of a target older than the newest observation. -/
def observeWindow (o : Oracle) (blockTime secondsAgo target : ℕ) (latest : Observation) :
    Except ContractError (ℕ × ℕ) := do
  let n := o.state.cardinalityInitialized
  ensure (2 ≤ n) (oracleErr "not enough observations for the requested window")
  let oldest ← oldestIdx o.state
  let first ← o.load oldest
  ensure (first.timestamp ≤ target) (oracleErr ("observation window too old: requested " ++
    toString secondsAgo ++ "s ago but oldest is " ++ toString (blockTime - first.timestamp) ++
    "s ago"))
  let lo ← o.search target oldest 0 (n - 1)
  let beforeIdx ← ringIdx o.state oldest lo
  let before ← o.load beforeIdx
  if before.timestamp = target then
    return (before.priceACumulative, before.priceBCumulative)
  else
    let i ← addU16 oldest lo
    let afterIdx ← ringIdx o.state i 1
    let after ← o.loadBefore n (lo + 1) afterIdx latest
    interpolate before after target

/-- `Observe` for one horizon. -/
def observeSingle (o : Oracle) (blockTime secondsAgo : ℕ) (latest : Observation)
    (reserveA reserveB : ℕ) : Except ContractError (ℕ × ℕ) := do
  let target ← orThrow (if secondsAgo ≤ blockTime then some (blockTime - secondsAgo) else none)
    (oracleErr "seconds_ago exceeds block timestamp")
  if secondsAgo = 0 ∨ latest.timestamp ≤ target then
    if target = latest.timestamp ∨ reserveA = 0 ∨ reserveB = 0 then
      return (latest.priceACumulative, latest.priceBCumulative)
    else
      match spotPrices reserveA reserveB with
      | none => return (latest.priceACumulative, latest.priceBCumulative)
      | some prices => extrapolate latest prices (target - latest.timestamp)
  else
    o.observeWindow blockTime secondsAgo target latest

/-- The `Observe` query: one answer for each requested horizon. -/
def queryObserve (o : Oracle) (blockTime reserveA reserveB : ℕ) (secondsAgo : List ℕ) :
    Except ContractError (List (ℕ × ℕ)) := do
  ensure (o.state.cardinalityInitialized ≠ 0) (oracleErr "no observations recorded yet")
  let latest ← o.load o.state.index
  secondsAgo.mapM fun sa => o.observeSingle blockTime sa latest reserveA reserveB

/-- Grow the ring. Anyone may do so. -/
def increaseObservationCardinality (o : Oracle) (newCardinality : ℕ) :
    Except ContractError Oracle := do
  ensure (newCardinality ≤ maxObservationCardinality)
    (oracleErr ("cardinality exceeds maximum (" ++ toString maxObservationCardinality ++ ")"))
  ensure (o.state.cardinality < newCardinality)
    (oracleErr "new cardinality must be greater than current")
  return { o with state := { o.state with cardinality := newCardinality } }

end Oracle

end Cl8yDex
