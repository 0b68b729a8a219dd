import Cl8yDex.Pair

/-!
# Cancel, claim, reprice and clean

A maker takes back a resting order or a parked one, alone or in a batch, or moves it to another
price. Anyone may clean the book, which only parks orders and moves no token.
-/

namespace Cl8yDex

open Outcome

def executeCancelLimitOrder (p : PairStorage) (sender : Addr) (orderId : OrderId) :
    Except ContractError (PairStorage × Response) := do
  let o ← p.book.load orderId
  ensure (o.owner = sender) .unauthorized
  let (b, removed) ← unlinkOrder p.book orderId
  let b ← b.escrowSub removed.side removed.remaining .cancel
  return (
    { p with book := b },
    { messages :=
        [.transfer (p.pairInfo.escrowToken removed.side) removed.owner removed.remaining]
      events := []
      attributes := .cancelLimitOrder orderId removed.owner })

def loadClaim (b : Book) (orderId : OrderId) : Except ContractError ExpiredLimitRefund :=
  orThrow (b.expiredLimitClaims orderId) (.noExpiredLimitClaim orderId)

/-- A row without a remainder is finalized without a transfer. -/
def executeClaimExpiredLimitOrder (p : PairStorage) (sender : Addr) (orderId : OrderId) :
    Except ContractError (PairStorage × Response) := do
  let row ← loadClaim p.book orderId
  ensure (row.owner = sender) .unauthorized
  let b ← p.book.escrowSub row.side row.remaining .claimExpired
  return (
    { p with book := b.saveClaim orderId none },
    { messages := maybeTransfer (p.pairInfo.escrowToken row.side) row.owner row.remaining
      events := []
      attributes := .claimExpiredLimitOrder orderId row.owner })

/-- The first id that occurs twice, if any. -/
def firstRepeated : List OrderId → List OrderId → Option OrderId
  | _, [] => none
  | seen, id :: ids => if id ∈ seen then some id else firstRepeated (id :: seen) ids

def noRepeatedId (orderIds : List OrderId) : Except ContractError Unit :=
  match firstRepeated [] orderIds with
  | some id => .error (.limitBatchDuplicateOrderId id)
  | none => .ok ()

def validateBatchOrderIds (p : PairStorage) (orderIds : List OrderId) :
    Except ContractError Unit := do
  ensure (orderIds ≠ []) .limitBatchEmpty
  ensure (orderIds.length ≤ p.maxBatchRungs) (.limitBatchTooLarge p.maxBatchRungs orderIds.length)
  noRepeatedId orderIds

/-- The book so far and what is owed for the orders taken out of it, by side. -/
structure RefundState where
  book : Book
  refund : LimitOrderSide → ℕ

def RefundState.owe (st : RefundState) (b : Book) (side : LimitOrderSide) (remaining : ℕ) :
    Except ContractError RefundState := do
  let total ← addOrOverflow (st.refund side) remaining
  return ⟨b, Function.update st.refund side total⟩

def cancelOne (owner : Addr) (st : RefundState) (orderId : OrderId) :
    Except ContractError RefundState := do
  let o ← st.book.load orderId
  ensure (o.owner = owner) .unauthorized
  let (b, removed) ← unlinkOrder st.book orderId
  st.owe b removed.side removed.remaining

def claimOne (owner : Addr) (st : RefundState) (orderId : OrderId) :
    Except ContractError RefundState := do
  let row ← loadClaim st.book orderId
  ensure (row.owner = owner) .unauthorized
  st.owe (st.book.saveClaim orderId none) row.side row.remaining

/-- The shape of both batches: take each order out, then settle the two counters once and send at
most one transfer a token. -/
def executeBatchRefund (p : PairStorage) (sender : Addr) (orderIds : List OrderId)
    (takeOut : Addr → RefundState → OrderId → Except ContractError RefundState)
    (path : EscrowPath) (attributes : Attributes) :
    Except ContractError (PairStorage × Response) := do
  validateBatchOrderIds p orderIds
  let st ← orderIds.foldlM (takeOut sender) ⟨p.book, fun _ => 0⟩
  let b ← st.book.escrowSubPending .ask (st.refund .ask) path
  let b ← b.escrowSubPending .bid (st.refund .bid) path
  return (
    { p with book := b },
    { messages := maybeTransfer p.pairInfo.token0 sender (st.refund .ask) ++
        maybeTransfer p.pairInfo.token1 sender (st.refund .bid)
      events := []
      attributes := attributes })

def executeCancelLimitOrders (p : PairStorage) (sender : Addr) (orderIds : List OrderId) :
    Except ContractError (PairStorage × Response) :=
  executeBatchRefund p sender orderIds cancelOne .batchCancel
    (.cancelLimitOrdersBatch orderIds sender)

def executeClaimExpiredLimitOrders (p : PairStorage) (sender : Addr) (orderIds : List OrderId) :
    Except ContractError (PairStorage × Response) :=
  executeBatchRefund p sender orderIds claimOne .batchClaimExpired
    (.claimExpiredLimitOrdersBatch orderIds sender)

def executeUpdateLimitOrderPrice (p : PairStorage) (q : Querier) (env : Env) (sender : Addr)
    (orderId : OrderId) (price : Decimal) (hintAfterOrderId : Option OrderId)
    (maxAdjustSteps : ℕ) : Except ContractError (PairStorage × Response) := do
  let (decimals0, decimals1) ← queryPairAssetDecimals q p.pairInfo
  (validateLimitOrderPrice price decimals0 decimals1).mapError .invalidHybridParams
  let o ← p.book.load orderId
  ensure (o.owner = sender) .unauthorized
  ensure (¬isTimeExpired o.expiresAt env.blockTime) (.invalidHybridParams "order expired")
  (validateLimitOrderFillability o.side o.remaining price).mapError fun _ => .limitOrderUnfillable
  let b ← relinkLimitOrderPrice p.book orderId price hintAfterOrderId maxAdjustSteps
  return ({ p with book := b }, .plain (.updateLimitOrderPrice orderId price))

def isForceDust (remaining minRemaining : ℕ) : Bool := minRemaining ≠ 0 ∧ remaining < minRemaining

/-- Why a visited order is parked by a clean, if it is. -/
def cleanReason (now minRemaining : ℕ) (order : OrderTerms) : Option ExpiredLimitParkReason :=
  if isTimeExpired order.expiresAt now then some .expired
  else if ¬isLimitOrderFillable order.side order.remaining order.price then some .unfillable
  else if isForceDust order.remaining minRemaining then some .forceCleaned
  else none

structure CleanState where
  book : Book
  cleanedCount : ℕ
  timeExpiredCount : ℕ
  forceExpiredCount : ℕ
  events : List MatchEvent

/-- How a clean ended: at the end of the book, or at the first order it did not visit. -/
structure CleanEnd where
  capHit : Bool
  scanCapped : Bool
  resumeCursor : Option OrderId

def CleanState.park (st : CleanState) (orderId : OrderId) (order : LimitOrder)
    (reason : ExpiredLimitParkReason) : Except ContractError CleanState := do
  let (b, ev) ← parkLimitOrderForClean st.book orderId reason
    (if reason = .expired then order.expiresAt else none)
  return {
    book := b
    cleanedCount := st.cleanedCount + 1
    timeExpiredCount := if reason = .expired then st.timeExpiredCount + 1 else st.timeExpiredCount
    forceExpiredCount := if reason = .expired then st.forceExpiredCount
      else st.forceExpiredCount + 1
    events := st.events ++ [ev] }

def cleanStep (now minRemaining : ℕ) (st : CleanState) (orderId : OrderId) (order : LimitOrder) :
    Except ContractError CleanState :=
  match cleanReason now minRemaining order.toOrderTerms with
  | some reason => st.park orderId order reason
  | none => .ok st

/-- The cleaning walk. The recursion is on the steps left of the scan cap. -/
def cleanWalk (now minRemaining cap : ℕ) :
    ℕ → Option OrderId → CleanState → Except ContractError (CleanState × CleanEnd)
  | _, none, st => .ok (st, ⟨false, false, none⟩)
  | 0, some oid, st =>
      if cap ≤ st.cleanedCount then .ok (st, ⟨true, false, some oid⟩)
      else .ok (st, ⟨false, true, some oid⟩)
  | stepsLeft + 1, some oid, st =>
      if cap ≤ st.cleanedCount then .ok (st, ⟨true, false, some oid⟩)
      else do
        let order ← st.book.load oid
        let st ← cleanStep now minRemaining st oid order
        cleanWalk now minRemaining cap stepsLeft order.next st

def clampMaxCleanOrders (maxOrders : ℕ) : ℕ := max 1 (min maxOrders maxLimitCleanOrdersHardCap)

/-- Zero steps ask for the full cap. -/
def clampMaxCleanScanSteps (maxSteps : ℕ) : ℕ :=
  if maxSteps = 0 then maxCleanScanSteps else min maxSteps maxCleanScanSteps

def LimitCleanConfig.minRemainingForSide (config : LimitCleanConfig) : LimitOrderSide → ℕ
  | .ask => config.minRemainingToken0
  | .bid => config.minRemainingToken1

def cleanLimitBook (b : Book) (config : LimitCleanConfig) (now : ℕ) (side : LimitOrderSide)
    (maxOrders maxSteps : ℕ) (startHint : Option OrderId) :
    Except ContractError (CleanState × CleanEnd) := do
  ensure (maxOrders ≠ 0) (.invalidHybridParams "max_orders must be at least 1")
  ensure (maxOrders ≤ maxLimitCleanOrdersHardCap)
    (.limitCleanMaxOrdersExceeded maxLimitCleanOrdersHardCap maxOrders)
  cleanWalk now (config.minRemainingForSide side) (clampMaxCleanOrders maxOrders)
    (clampMaxCleanScanSteps maxSteps) (resolveMatchStartHint b startHint side) ⟨b, 0, 0, 0, []⟩

def executeCleanLimitBook (p : PairStorage) (env : Env) (side : LimitOrderSide) (maxOrders : ℕ)
    (startHint : Option OrderId) (maxSteps : Option ℕ) :
    Except ContractError (PairStorage × Response) := do
  let (st, fin) ← cleanLimitBook p.book p.limitCleanConfig env.blockTime side maxOrders
    (maxSteps.getD 0) startHint
  return (
    { p with book := st.book },
    { messages := []
      events := st.events.map fun ev => ⟨ev, none⟩
      attributes := .cleanLimitBook
        { side := side
          cleanedCount := st.cleanedCount
          timeExpiredCount := st.timeExpiredCount
          forceExpiredCount := st.forceExpiredCount
          capHit := fin.capHit
          scanCapped := fin.scanCapped
          resumeCursor := fin.resumeCursor } })

end Cl8yDex
