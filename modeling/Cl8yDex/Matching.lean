import Cl8yDex.PlacementRules
import Cl8yDex.Book

/-!
# Greedy comparison with the residual pool

A maker is taken when the rate it nets the taker strictly beats the pool spot after fees. Rates
that cannot be formed are skipped rather than treated as a stop.
-/

namespace Cl8yDex

structure GreedyPoolRef where
  inputReserve : ℕ
  outputReserve : ℕ
  poolFeeBps : ℕ
  deriving DecidableEq

inductive GreedyBeats
  | yes
  | no
  | skip
  deriving DecidableEq

def tryPriceInverse (price : Decimal) : Option Decimal := Decimal.one.checkedDiv price

def poolSpotNet (pool : GreedyPoolRef) : Option Decimal :=
  if pool.inputReserve = 0 ∨ pool.outputReserve = 0 then none
  else do
    let spot ← Decimal.checkedFromRatio pool.outputReserve pool.inputReserve
    let keep ← Decimal.checkedFromRatio (10000 - pool.poolFeeBps) 10000
    spot.checkedMul keep

def feeKeep (bps : ℕ) : Decimal := ⟨(10000 - bps) * Decimal.fractional / 10000⟩

def bidMakerNet (price : Decimal) (takerBps : ℕ) : Option Decimal :=
  if price.isZero then none else price.checkedMul (feeKeep takerBps)

def askMakerNet (price : Decimal) (takerBps : ℕ) : Option Decimal :=
  if price.isZero then none
  else do
    let inv ← tryPriceInverse price
    inv.checkedMul (feeKeep takerBps)

def compareRate (makerNet : Option Decimal) (pool : GreedyPoolRef) : GreedyBeats :=
  match makerNet, poolSpotNet pool with
  | some maker, some spot => if spot < maker then .yes else .no
  | _, _ => .skip

def bidBeatsResidualPool (price : Decimal) (takerBps : ℕ) (pool : GreedyPoolRef) : GreedyBeats :=
  compareRate (bidMakerNet price takerBps) pool

def askBeatsResidualPool (price : Decimal) (takerBps : ℕ) (pool : GreedyPoolRef) : GreedyBeats :=
  compareRate (askMakerNet price takerBps) pool

/-- Why a greedy walk ended; the order of the tests is the priority of the reasons. -/
def greedyStopAfterWalk (greedy stoppedWorse scanCapped : Bool) (makersUsed cap offerLeft : ℕ) :
    Option GreedyStopReason :=
  if ¬greedy then none
  else if stoppedWorse then some .worseThanPool
  else if scanCapped then some .scanCap
  else if offerLeft = 0 ∧ 0 < makersUsed then some .filled
  else if makersUsed = 0 then some .empty
  else if cap ≤ makersUsed then some .maxMakers
  else some .remainderToPool

end Cl8yDex

/-!
## Matching a taker against the limit book

`match_bids`, `match_asks` and their two read-only simulations share the order in which they look
at a resting order, so the verdict on an order (`visitOrder`) is one function of its terms. The
executing walk edits the book as it goes; the simulated one only adds up.
-/

namespace Cl8yDex

open Outcome

/-- The trading-blacklist probe for one wallet; `none` is a failed factory query. -/
abbrev TradeBlacklistGate := Addr → Option Bool

def makerOwnerIsTradeBlacklisted (gate : Option TradeBlacklistGate) (owner : Addr) :
    Except ContractError Bool :=
  match gate with
  | some gate => orThrow (gate owner) .blacklistGuardUnavailable
  | none => .ok false

def shouldFlushDust (remaining : ℕ) : Bool :=
  remaining ≠ 0 ∧ remaining < limitOrderDustFlushThreshold

def isTimeExpired (expiresAt : Option ℕ) (now : ℕ) : Bool :=
  expiresAt.any fun e => e ≤ now

/-- Lower the token0 amount until its cost fits the limit; `none` when a price product overflows. -/
def adjustFill (price : Decimal) (limit : ℕ) : ℕ → ℕ → Option (ℕ × ℕ)
  | 0, cost => some (0, cost)
  | fill + 1, cost =>
      if limit < cost then
        if fill = 0 then some (0, cost)
        else (Decimal.checkedMulFloor fill price).bind fun adjusted =>
          adjustFill price limit fill adjusted
      else some (fill + 1, cost)

/-- A token0 amount of at most `maxFill` and its token1 cost of at most `limit`. -/
def pricedFill (price : Decimal) (limit maxFill : ℕ) : Option (ℕ × ℕ) :=
  if maxFill = 0 then none
  else do
    let cost ← Decimal.checkedMulFloor maxFill price
    let (fill, cost) ← adjustFill price limit maxFill cost
    if fill = 0 ∨ cost = 0 then none else some (fill, cost)

/-- The token0 that an amount of token1 buys at `price`, through the truncated reciprocal. -/
def token0Capacity (amount : ℕ) (price : Decimal) : Option ℕ := do
  let inv ← tryPriceInverse price
  Decimal.checkedMulFloor amount inv

/-- A bid absorbs token0 and pays token1: the cost must fit the maker's remainder. The answer is
the offer it absorbs and the escrow it pays out, or `none` when the order is skipped. -/
def bidFill (token0Left : ℕ) (order : OrderTerms) : Except ContractError (Option (ℕ × ℕ)) := do
  ensure (¬order.price.isZero) (.invariantViolation .zeroBidPrice)
  return (token0Capacity order.remaining order.price).bind fun maxFillFromBid =>
    pricedFill order.price order.remaining (min token0Left maxFillFromBid)

/-- An ask absorbs token1 and pays token0: the cost must fit the taker's budget. -/
def askFill (token1Left : ℕ) (order : OrderTerms) : Except ContractError (Option (ℕ × ℕ)) :=
  .ok (
    if order.price.isZero then none
    else do
      let maxFillFromBudget ← token0Capacity token1Left order.price
      let (fillT0, cost) ← pricedFill order.price token1Left (min order.remaining maxFillFromBudget)
      return (cost, fillT0))

def planFill : LimitOrderSide → ℕ → OrderTerms → Except ContractError (Option (ℕ × ℕ))
  | .bid => bidFill
  | .ask => askFill

def beatsResidualPool : LimitOrderSide → Decimal → ℕ → GreedyPoolRef → GreedyBeats
  | .bid => bidBeatsResidualPool
  | .ask => askBeatsResidualPool

/-- The fixed inputs of one walk. -/
structure WalkParams where
  side : LimitOrderSide
  now : ℕ
  cap : ℕ
  takerBps : ℕ
  gate : Option TradeBlacklistGate
  greedyPool : Option GreedyPoolRef

/-- The verdict on one resting order. `exhausted` and `worse` end the walk. -/
inductive Visit
  | wrongSide
  | expired
  | blacklisted
  | unfillable
  | exhausted
  | skip
  | worse
  | fill (offer taken : ℕ)
  deriving DecidableEq

/-- The greedy test that stands between a possible fill and taking it. -/
def WalkParams.admitFill (w : WalkParams) (price : Decimal) (offer taken : ℕ) : Visit :=
  match w.greedyPool with
  | none => .fill offer taken
  | some pool =>
      match beatsResidualPool w.side price w.takerBps pool with
      | .skip => .skip
      | .no => .worse
      | .yes => .fill offer taken

def visitOrder (w : WalkParams) (left : ℕ) (order : OrderTerms) : Except ContractError Visit :=
  if order.side ≠ w.side then .ok .wrongSide
  else if isTimeExpired order.expiresAt w.now then .ok .expired
  else do
    let blacklisted ← makerOwnerIsTradeBlacklisted w.gate order.owner
    if blacklisted then return .blacklisted
    else if ¬isLimitOrderFillable order.side order.remaining order.price then
      return .unfillable
    else if left = 0 then return .exhausted
    else
      let plan ← planFill w.side left order
      return match plan with
        | none => .skip
        | some (offer, taken) => w.admitFill order.price offer taken

/-- The running totals of a walk, in the taker's offer and ask assets. -/
structure Tally where
  left : ℕ
  outTotal : ℕ
  commissionTotal : ℕ
  makersUsed : ℕ
  deriving DecidableEq

/-- How a walk ended. -/
structure WalkEnd where
  scanStepsCapped : Bool
  greedyStoppedWorse : Bool
  deriving DecidableEq

def WalkEnd.done : WalkEnd := ⟨false, false⟩
def WalkEnd.capped : WalkEnd := ⟨true, false⟩
def WalkEnd.stoppedWorse : WalkEnd := ⟨false, true⟩

/-- The ask-side amount of a fill: what leaves a bid's escrow, or the token0 of an ask. The taker
commission is taken from it. -/
def Tally.addFill (tally : Tally) (takerBps offer taken : ℕ) :
    Except ContractError (Tally × ℕ) := do
  let scaled ← mulOrOverflow taken takerBps
  let commission ← divOrZero scaled 10000
  let netToTaker ← subOrOverflow taken commission
  let commissionTotal ← addOrOverflow tally.commissionTotal commission
  let left ← subOrOverflow tally.left offer
  let outTotal ← addOrOverflow tally.outTotal netToTaker
  return (⟨left, outTotal, commissionTotal, tally.makersUsed + 1⟩, commission)

inductive MatchEvent
  | limitOrderFill (orderId : OrderId) (side : LimitOrderSide) (maker : Addr) (price : Decimal)
      (token0Amount token1Amount commissionAmount : ℕ)
  | limitOrderExpiredParked (orderId : OrderId) (maker : Addr) (side : LimitOrderSide)
      (remaining : ℕ) (reason : ExpiredLimitParkReason)
  deriving DecidableEq

/-- The fill event names the two legs by token, whichever side the maker is on. -/
def limitOrderFillEvent (orderId : OrderId) (order : OrderTerms) (offer taken commission : ℕ) :
    MatchEvent :=
  match order.side with
  | .bid => .limitOrderFill orderId .bid order.owner order.price offer taken commission
  | .ask => .limitOrderFill orderId .ask order.owner order.price taken offer commission

def parkLimitOrderForClean (b : Book) (orderId : OrderId) (reason : ExpiredLimitParkReason)
    (refundExpiresAt : Option ℕ) : Except ContractError (Book × MatchEvent) := do
  ensure (b.expiredLimitClaims orderId = none) (.invariantViolation .claimExists)
  let (b, removed) ← unlinkOrder b orderId
  let row : ExpiredLimitRefund :=
    { owner := removed.owner
      side := removed.side
      remaining := removed.remaining
      expiresAt := refundExpiresAt
      reason := some reason }
  return (b.saveClaim orderId (some row),
    .limitOrderExpiredParked orderId removed.owner removed.side removed.remaining reason)

def parkExpiredLimitOrderForClaim (b : Book) (orderId : OrderId) (now : ℕ) :
    Except ContractError (Book × MatchEvent) := do
  let order ← b.load orderId
  ensure (isTimeExpired order.expiresAt now) (.invariantViolation .parkNonExpired)
  parkLimitOrderForClean b orderId .expired order.expiresAt

/-- Unlink a filled order, park a remainder nobody can fill, or save a partial fill. -/
def finalizeOrderAfterFill (b : Book) (oid : OrderId) (order : LimitOrder) :
    Except ContractError (Book × Option MatchEvent) :=
  if order.remaining = 0 then do
    let (b, _) ← unlinkOrder b oid
    return (b, none)
  else if shouldFlushDust order.remaining ∨
      ¬isLimitOrderFillable order.side order.remaining order.price then do
    let (b, event) ← parkLimitOrderForClean (b.save oid order) oid
      (if shouldFlushDust order.remaining then .dustFilled else .unfillable) none
    return (b, some event)
  else
    .ok (b.save oid order, none)

/-- Maker payouts by owner, kept in ascending order of the owner. -/
def creditMaker : List (Addr × ℕ) → Addr → ℕ → Except ContractError (List (Addr × ℕ))
  | [], owner, amount => do
      let total ← addOrOverflow 0 amount
      return [(owner, total)]
  | (a, n) :: l, owner, amount =>
      if owner < a then do
        let total ← addOrOverflow 0 amount
        return (owner, total) :: (a, n) :: l
      else if owner = a then do
        let total ← addOrOverflow n amount
        return (a, total) :: l
      else do
        let l ← creditMaker l owner amount
        return (a, n) :: l

structure MatchState where
  book : Book
  tally : Tally
  expiredParks : ℕ
  expiredParksSkipped : ℕ
  escrowSubTotal : ℕ
  makerPayouts : List (Addr × ℕ)
  fillEvents : List MatchEvent

/-- Park under the budget shared by expired, blacklisted and unfillable orders, else count it. -/
def MatchState.parkUnderCap (st : MatchState)
    (park : Book → Except ContractError (Book × MatchEvent)) : Except ContractError MatchState :=
  if st.expiredParks < maxExpiredParksPerSwap then do
    let (b, ev) ← park st.book
    return { st with
      book := b
      fillEvents := st.fillEvents ++ [ev]
      expiredParks := st.expiredParks + 1 }
  else
    .ok { st with expiredParksSkipped := st.expiredParksSkipped + 1 }

def MatchState.applyFill (st : MatchState) (w : WalkParams) (oid : OrderId) (order : LimitOrder)
    (offer taken : ℕ) : Except ContractError MatchState := do
  let (tally, commission) ← st.tally.addFill w.takerBps offer taken
  let makerPayouts ← creditMaker st.makerPayouts order.owner offer
  let escrowSubTotal ← addOrOverflow st.escrowSubTotal taken
  let remaining ← subOrOverflow order.remaining taken
  let (b, parked) ← finalizeOrderAfterFill st.book oid { order with remaining := remaining }
  return { st with
    book := b
    tally := tally
    escrowSubTotal := escrowSubTotal
    makerPayouts := makerPayouts
    fillEvents := st.fillEvents ++
      limitOrderFillEvent oid order.toOrderTerms offer taken commission :: parked.toList }

/-- One visited order of the executing walk: the new state, or the end of the walk. -/
def matchStep (w : WalkParams) (st : MatchState) (oid : OrderId) (order : LimitOrder) :
    Except ContractError (MatchState × Option WalkEnd) := do
  match ← visitOrder w st.tally.left order.toOrderTerms with
  | .wrongSide => return (st, none)
  | .expired =>
      let st ← st.parkUnderCap fun b => parkExpiredLimitOrderForClaim b oid w.now
      return (st, none)
  | .blacklisted =>
      let st ← st.parkUnderCap fun b => parkLimitOrderForClean b oid .blacklisted none
      return (st, none)
  | .unfillable =>
      let st ← st.parkUnderCap fun b => parkLimitOrderForClean b oid .unfillable none
      return (st, none)
  | .exhausted => return (st, some .done)
  | .skip => return (st, none)
  | .worse => return (st, some .stoppedWorse)
  | .fill offer taken =>
      let st ← st.applyFill w oid order offer taken
      return (st, none)

/-- The executing walk. The recursion is on the scan steps left of `maxScanSteps`. -/
def matchWalk (w : WalkParams) :
    ℕ → Option OrderId → MatchState → Except ContractError (MatchState × WalkEnd)
  | 0, _, st => .ok (st, if st.tally.makersUsed < w.cap then .capped else .done)
  | scanLeft + 1, cur, st =>
      if st.tally.makersUsed < w.cap then
        match cur with
        | none => .ok (st, .done)
        | some oid => do
            let order ← st.book.load oid
            match ← matchStep w st oid order with
            | (st, some fin) => return (st, fin)
            | (st, none) => matchWalk w scanLeft order.next st
      else .ok (st, .done)

/-- One visited order of the simulated walk. -/
def simulateStep (w : WalkParams) (tally : Tally) (order : OrderTerms) :
    Except ContractError (Tally × Option WalkEnd) := do
  match ← visitOrder w tally.left order with
  | .exhausted => return (tally, some .done)
  | .worse => return (tally, some .stoppedWorse)
  | .fill offer taken =>
      let (tally, _) ← tally.addFill w.takerBps offer taken
      let _ ← subOrOverflow order.remaining taken
      return (tally, none)
  | _ => return (tally, none)

/-- The simulated walk reads the book that the executing one would edit. -/
def simulateWalk (w : WalkParams) (b : Book) :
    ℕ → Option OrderId → Tally → Except ContractError (Tally × WalkEnd)
  | 0, _, tally => .ok (tally, if tally.makersUsed < w.cap then .capped else .done)
  | scanLeft + 1, cur, tally =>
      if tally.makersUsed < w.cap then
        match cur with
        | none => .ok (tally, .done)
        | some oid => do
            let order ← b.load oid
            match ← simulateStep w tally order.toOrderTerms with
            | (tally, some fin) => return (tally, fin)
            | (tally, none) => simulateWalk w b scanLeft order.next tally
      else .ok (tally, .done)

/-- Start at the hint when it is an order of the expected side, else at the head. -/
def resolveMatchStartHint (b : Book) (bookStartHint : Option OrderId)
    (expectedSide : LimitOrderSide) : Option OrderId :=
  match bookStartHint with
  | some h => if (b.orderOnSide expectedSide h).isSome then some h else b.head expectedSide
  | none => b.head expectedSide

structure BookMatchResult where
  returnNet : ℕ
  offerConsumed : ℕ
  makersUsed : ℕ
  expiredParks : ℕ
  expiredParksSkipped : ℕ
  scanStepsCapped : Bool
  greedyStop : Option GreedyStopReason
  commissionTotal : ℕ
  makerPayouts : List (Addr × ℕ)
  fillEvents : List MatchEvent
  deriving DecidableEq

structure BookSimulateResult where
  returnNet : ℕ
  offerConsumed : ℕ
  makersUsed : ℕ
  scanStepsCapped : Bool
  greedyStop : Option GreedyStopReason
  commissionTotal : ℕ
  deriving DecidableEq

def walkParams (side : LimitOrderSide) (now maxMakerFills effectiveFeeBps : ℕ)
    (gate : Option TradeBlacklistGate) (greedyPool : Option GreedyPoolRef) : WalkParams where
  side := side
  now := now
  cap := min maxMakerFills maxMakerFillsHardCap
  takerBps := takerFeeBps effectiveFeeBps
  gate := gate
  greedyPool := greedyPool

/-- The body shared by `match_bids` and `match_asks`. -/
def matchSide (w : WalkParams) (b : Book) (budget : ℕ) (bookStartHint : Option OrderId) :
    Except ContractError (Book × BookMatchResult) := do
  let start : MatchState := ⟨b, ⟨budget, 0, 0, 0⟩, 0, 0, 0, [], []⟩
  let (st, fin) ← matchWalk w maxScanSteps (resolveMatchStartHint b bookStartHint w.side) start
  let b ← st.book.escrowSubPending w.side st.escrowSubTotal .matchWalk
  let offerConsumed ← subOrOverflow budget st.tally.left
  return (b,
    { returnNet := st.tally.outTotal
      offerConsumed := offerConsumed
      makersUsed := st.tally.makersUsed
      expiredParks := st.expiredParks
      expiredParksSkipped := st.expiredParksSkipped
      scanStepsCapped := fin.scanStepsCapped
      greedyStop := greedyStopAfterWalk w.greedyPool.isSome fin.greedyStoppedWorse
        fin.scanStepsCapped st.tally.makersUsed w.cap st.tally.left
      commissionTotal := st.tally.commissionTotal
      makerPayouts := st.makerPayouts
      fillEvents := st.fillEvents })

def matchBids (b : Book) (now token0Budget maxMakerFills : ℕ) (bookStartHint : Option OrderId)
    (effectiveFeeBps : ℕ) (gate : Option TradeBlacklistGate)
    (greedyPool : Option GreedyPoolRef) : Except ContractError (Book × BookMatchResult) :=
  matchSide (walkParams .bid now maxMakerFills effectiveFeeBps gate greedyPool) b token0Budget
    bookStartHint

def matchAsks (b : Book) (now token1Budget maxMakerFills : ℕ) (bookStartHint : Option OrderId)
    (effectiveFeeBps : ℕ) (gate : Option TradeBlacklistGate)
    (greedyPool : Option GreedyPoolRef) : Except ContractError (Book × BookMatchResult) :=
  matchSide (walkParams .ask now maxMakerFills effectiveFeeBps gate greedyPool) b token1Budget
    bookStartHint

/-- The body shared by `simulate_match_bids` and `simulate_match_asks`. -/
def simulateSide (w : WalkParams) (b : Book) (budget : ℕ) (bookStartHint : Option OrderId) :
    Except ContractError BookSimulateResult := do
  let (tally, fin) ← simulateWalk w b maxScanSteps (resolveMatchStartHint b bookStartHint w.side)
    ⟨budget, 0, 0, 0⟩
  let offerConsumed ← subOrOverflow budget tally.left
  return {
    returnNet := tally.outTotal
    offerConsumed := offerConsumed
    makersUsed := tally.makersUsed
    scanStepsCapped := fin.scanStepsCapped
    greedyStop := greedyStopAfterWalk w.greedyPool.isSome fin.greedyStoppedWorse
      fin.scanStepsCapped tally.makersUsed w.cap tally.left
    commissionTotal := tally.commissionTotal }

def simulateMatchBids (b : Book) (now token0Budget maxMakerFills : ℕ)
    (bookStartHint : Option OrderId) (effectiveFeeBps : ℕ) (gate : Option TradeBlacklistGate)
    (greedyPool : Option GreedyPoolRef) : Except ContractError BookSimulateResult :=
  simulateSide (walkParams .bid now maxMakerFills effectiveFeeBps gate greedyPool) b token0Budget
    bookStartHint

def simulateMatchAsks (b : Book) (now token1Budget maxMakerFills : ℕ)
    (bookStartHint : Option OrderId) (effectiveFeeBps : ℕ) (gate : Option TradeBlacklistGate)
    (greedyPool : Option GreedyPoolRef) : Except ContractError BookSimulateResult :=
  simulateSide (walkParams .ask now maxMakerFills effectiveFeeBps gate greedyPool) b token1Budget
    bookStartHint

end Cl8yDex
