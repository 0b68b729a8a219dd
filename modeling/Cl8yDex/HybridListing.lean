import Cl8yDex.Arithmetic
import Cl8yDex.StableGroups
import Mathlib.Data.Rat.Floor

/-!
# The hybrid listing

The levels of the simulated pool and of the resting limits are merged into one side of a listed
book. A level is a pair of texts; the decimal library that reads and divides prices is a parameter.
-/

namespace Cl8yDex.Listing

structure BigDecimals where
  parse : String → Option ℚ
  quotient : ℚ → ℚ → ℚ
  print : ℚ → String

structure BookLevel where
  price : String
  quantity : String
  deriving DecidableEq

structure OrderbookData where
  bids : List BookLevel
  asks : List BookLevel

structure LimitBookOrderItem where
  side : String
  price : String
  remaining : String

def digitsValue (ds : List Char) : Option ℕ :=
  if ds ≠ [] ∧ ds.all Char.isDigit ∧ Nat.ofDigitChars 10 ds 0 ≤ u128Max then
    some (Nat.ofDigitChars 10 ds 0)
  else none

/-- Decimal digits, after at most one plus sign. -/
def parseU128 (s : String) : Option ℕ :=
  match s.toList with
  | '+' :: ds => digitsValue ds
  | ds => digitsValue ds

def saturatingAdd (a b : ℕ) : ℕ := min (a + b) u128Max

section Levels

variable (big : BigDecimals)

def limitOrderToLevel (side price remaining : String) : Option BookLevel := do
  let rem ← (parseU128 remaining).filter fun v => 0 < v
  let priceBd ← (big.parse price).filter fun p => 0 < p
  let qty ←
    if side.toLower = "bid" then
      -- the escrow of a bid is quote, its listed quantity is base
      (parseU128 (big.print ⌊big.quotient rem priceBd⌋)).filter fun v => 0 < v
    else some rem
  return ⟨price, toString qty⟩

def parseLevelPrice (level : BookLevel) : Option ℚ := big.parse level.price

end Levels

/-- The order of a side of the book: the best price first. -/
def bookOrder (bids : Bool) (p q : ℚ) : Prop := if bids then q ≤ p else p ≤ q

instance (bids : Bool) : DecidableRel (bookOrder bids) := fun p q =>
  inferInstanceAs (Decidable (if bids then q ≤ p else p ≤ q))

section Merge

variable (big : BigDecimals)

def levelPrice (level : BookLevel) : ℚ := (parseLevelPrice big level).getD 0

def levelQuantity (level : BookLevel) : ℕ := (parseU128 level.quantity).getD 0

def sortLevels (bids : Bool) (levels : List BookLevel) : List BookLevel :=
  StableGroups.sortBy (bookOrder bids) (levelPrice big) levels

def absorb (last level : BookLevel) : BookLevel :=
  { last with quantity := toString (saturatingAdd (levelQuantity last) (levelQuantity level)) }

/-- The levels are taken in order until `depth` of them have been listed. -/
def mergeLevels (depth : ℕ) : List BookLevel → List BookLevel → List BookLevel
  | merged, [] => merged
  | merged, level :: rest =>
      match merged.getLast? with
      | some last =>
          if last.price = level.price then
            mergeLevels depth (merged.dropLast ++ [absorb last level]) rest
          else if depth ≤ merged.length + 1 then merged ++ [level]
          else mergeLevels depth (merged ++ [level]) rest
      | none =>
          if depth ≤ merged.length + 1 then merged ++ [level]
          else mergeLevels depth (merged ++ [level]) rest

def mergeOrderbookSides (poolLevels limitLevels : List BookLevel) (depth : ℕ) (bids : Bool) :
    List BookLevel :=
  let combined := poolLevels ++ limitLevels
  if combined = [] then []
  else mergeLevels (max depth 1) [] (sortLevels big bids combined)

def buildHybridBook (pool : OrderbookData) (bidLimits askLimits : List LimitBookOrderItem)
    (depth : ℕ) : OrderbookData :=
  let levels := List.filterMap fun o : LimitBookOrderItem =>
    limitOrderToLevel big o.side o.price o.remaining
  { bids := mergeOrderbookSides big pool.bids (levels bidLimits) depth true
    asks := mergeOrderbookSides big pool.asks (levels askLimits) depth false }

end Merge

end Cl8yDex.Listing

/-!
## The listed pool ladder

A pool is listed as steps along its curve, all measured from the untouched reserves. The arithmetic
is that of machine integers, which saturates where a product does not fit. A level is kept as the
number its price text is printed from.
-/

namespace Cl8yDex.Listing

def saturatingMul (a b : ℕ) : ℕ := min (a * b) u128Max

/-- The callers divide by a positive reserve. -/
def ceilDiv (numerator denominator : ℕ) : ℕ :=
  let q := numerator / denominator
  if saturatingMul q denominator < numerator then q + 1 else q

def swapFeeAmount (grossOutput feeBps : ℕ) : ℕ :=
  if feeBps = 0 ∨ grossOutput = 0 then 0
  else
    -- split before multiplying, so that no product saturates
    grossOutput / 10000 * min feeBps 10000 + grossOutput % 10000 * min feeBps 10000 / 10000

def maxStepNumerator : ℕ := 10

def maxStepDenominator : ℕ := 100

def stepBaseAmount (reserve0 stepIndex depth : ℕ) : ℕ :=
  let depth := max depth 1
  let i := max stepIndex 1
  saturatingMul (saturatingMul reserve0 i) maxStepNumerator /
    saturatingMul depth maxStepDenominator

structure AmmLevel where
  price : ℚ
  quantity : ℕ
  deriving DecidableEq

structure AmmBook where
  bids : List AmmLevel
  asks : List AmmLevel
  deriving DecidableEq

section Walk

variable (big : BigDecimals)

def AmmLevel.text (level : AmmLevel) : BookLevel := ⟨big.print level.price, toString level.quantity⟩

def formatPrice (quoteAmount baseAmount : ℕ) : ℚ :=
  if baseAmount = 0 then 0 else big.quotient quoteAmount baseAmount

def simulateBidLevel (reserve0 reserve1 k dx feeBps : ℕ) : Option AmmLevel := do
  let newReserve0 ← checkedAdd reserve0 dx
  let newReserve1 := ceilDiv k newReserve0
  let grossQuote ← checkedSub reserve1 newReserve1
  guard (grossQuote ≠ 0)
  let fee := swapFeeAmount grossQuote feeBps
  let netQuote ← checkedSub grossQuote fee
  guard (netQuote ≠ 0)
  return ⟨formatPrice big netQuote dx, dx⟩

def simulateAskLevel (reserve0 reserve1 k dx feeBps : ℕ) : Option AmmLevel := do
  guard (dx < reserve0)
  let newReserve0 ← checkedSub reserve0 dx
  let newReserve1 := ceilDiv k newReserve0
  let quoteCost ← checkedSub newReserve1 reserve1
  guard (quoteCost ≠ 0)
  let fee := swapFeeAmount dx feeBps
  let netBase ← checkedSub dx fee
  guard (netBase ≠ 0)
  return ⟨formatPrice big quoteCost netBase, dx⟩

/-- The levels of the walk, before they are printed. -/
def walkLevels (reserve0 reserve1 depth feeBps : ℕ) : AmmBook :=
  if reserve0 = 0 ∨ reserve1 = 0 then ⟨[], []⟩
  else
    let depth := max depth 1
    let k := saturatingMul reserve0 reserve1
    let side (level : ℕ → Option AmmLevel) := (List.range' 1 depth).filterMap fun step =>
      let dx := stepBaseAmount reserve0 step depth
      if dx = 0 then none else level dx
    { bids := side fun dx => simulateBidLevel big reserve0 reserve1 k dx feeBps
      asks := side fun dx => simulateAskLevel big reserve0 reserve1 k dx feeBps }

def walkAmmBook (reserve0 reserve1 depth feeBps : ℕ) : OrderbookData :=
  let book := walkLevels big reserve0 reserve1 depth feeBps
  { bids := book.bids.map (AmmLevel.text big), asks := book.asks.map (AmmLevel.text big) }

end Walk

end Cl8yDex.Listing
