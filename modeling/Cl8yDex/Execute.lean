import Cl8yDex.Pair
import Cl8yDex.LimitOrders
import Cl8yDex.Liquidity
import Cl8yDex.Swap
import Mathlib.Data.List.Sort

/-!
# Batch and ladder placement

The rungs of a batch take consecutive ids in input order and are inserted in book order, each from
where the previous one went in. A rung whose search runs out of steps is skipped and refunded.
-/

namespace Cl8yDex

open Outcome

structure BatchRungPlan where
  inputIndex : ℕ
  id : OrderId
  item : LimitOrderPlacementItem

/-- Book order on the composite key of price and id; the ids of a batch are distinct. -/
def bookOrderLe (side : LimitOrderSide) (a b : BatchRungPlan) : Prop :=
  ¬before side b.item.price b.id a.item.price a.id

instance (side : LimitOrderSide) : DecidableRel (bookOrderLe side) :=
  fun a b => inferInstanceAs (Decidable (¬before side b.item.price b.id a.item.price a.id))

/-- Pair the rungs with their positions and ids. -/
def numberRungs : ℕ → OrderId → List LimitOrderPlacementItem →
    Except ContractError (List BatchRungPlan)
  | _, _, [] => .ok []
  | index, id, item :: items => do
      ensure (id + 1 ≤ u64Max) (.invariantViolation .orderIdOverflow)
      let rest ← numberRungs (index + 1) (id + 1) items
      return ⟨index, id, item⟩ :: rest

def validatePlacementItem (item : LimitOrderPlacementItem) (now decimals0 decimals1 : ℕ) :
    Except ContractError Unit := do
  ensure (item.amount ≠ 0) .zeroAmount
  (validateLimitOrderPrice item.price decimals0 decimals1).mapError .invalidHybridParams
  ensure (¬isTimeExpired item.expiresAt now)
    (.invalidHybridParams "expires_at must be in the future")

/-- The maker fee of a rung and what is left of it for the book. -/
def rungAmounts (amount makerBps : ℕ) : Except ContractError (ℕ × ℕ) := do
  let scaled ← mulOrOverflow amount makerBps
  let makerFee ← divOrZero scaled 10000
  ensure (makerFee < amount) .limitOrderMakerFeeExceedsAmount
  let remainingForBook ← subOrOverflow amount makerFee
  ensure (minLimitPlaceRemaining ≤ remainingForBook)
    (.limitOrderAmountTooSmall minLimitPlaceRemaining remainingForBook)
  return (makerFee, remainingForBook)

/-- The fixed inputs of one batch. -/
structure BatchParams where
  side : LimitOrderSide
  owner : Addr
  now : ℕ
  decimals0 : ℕ
  decimals1 : ℕ
  makerBps : ℕ

structure BatchState where
  book : Book
  placedByInput : List (Option PlacedRung)
  skippedCount : ℕ
  placedAmountSum : ℕ
  placedEscrowRemaining : ℕ
  totalMakerFee : ℕ
  threadCursor : Option InsertThreadCursor
  lastPlacedHint : Option OrderId

def BatchParams.terms (c : BatchParams) (item : LimitOrderPlacementItem) (remaining : ℕ) :
    OrderTerms := ⟨c.owner, item.price, remaining, c.side, item.expiresAt⟩

def insertForBatch (c : BatchParams) (b : Book) (plan : BatchRungPlan) (remaining : ℕ)
    (threadCursor : Option InsertThreadCursor) (hintAfter : Option OrderId) :
    Except ContractError (Book × BatchInsertOutcome) :=
  match c.side with
  | .bid => insertBidWithIdForBatch b plan.id plan.item.price remaining c.owner threadCursor
      hintAfter plan.item.maxAdjustSteps plan.item.expiresAt
  | .ask => insertAskWithIdForBatch b plan.id plan.item.price remaining c.owner threadCursor
      hintAfter plan.item.maxAdjustSteps plan.item.expiresAt

def BatchState.recordPlaced (st : BatchState) (plan : BatchRungPlan) (makerFee remaining : ℕ)
    (b : Book) (outcome : BatchInsertOutcome) : Except ContractError BatchState := do
  let totalMakerFee ← addOrOverflow st.totalMakerFee makerFee
  let placedAmountSum ← addOrOverflow st.placedAmountSum plan.item.amount
  let placedEscrowRemaining ← addOrOverflow st.placedEscrowRemaining remaining
  return {
    book := b
    placedByInput := st.placedByInput.set plan.inputIndex
      (some ⟨outcome.id, makerFee, plan.item.price⟩)
    skippedCount := st.skippedCount
    placedAmountSum := placedAmountSum
    placedEscrowRemaining := placedEscrowRemaining
    totalMakerFee := totalMakerFee
    threadCursor := some outcome.threadCursor
    lastPlacedHint := some outcome.id }

/-- What becomes of an insert: placed, skipped for lack of steps, or an error of the batch. -/
def BatchState.settleInsert (st : BatchState) (plan : BatchRungPlan) (makerFee remaining : ℕ) :
    Except ContractError (Book × BatchInsertOutcome) → Except ContractError BatchState
  | .ok (b, outcome) => st.recordPlaced plan makerFee remaining b outcome
  | .error (.limitInsertStepsExceeded _) => .ok { st with skippedCount := st.skippedCount + 1 }
  | .error e => .error e

def placeRung (c : BatchParams) (st : BatchState) (plan : BatchRungPlan) :
    Except ContractError BatchState := do
  validatePlacementItem plan.item c.now c.decimals0 c.decimals1
  let (makerFee, remaining) ← rungAmounts plan.item.amount c.makerBps
  (validateLimitOrderFillability c.side remaining plan.item.price).mapError
    fun _ => .limitOrderUnfillable
  let hintAfter := plan.item.hintAfterOrderId.or st.lastPlacedHint
  st.settleInsert plan makerFee remaining
    (insertForBatch c st.book plan remaining st.threadCursor hintAfter)

def sumAmounts : ℕ → List LimitOrderPlacementItem → Except ContractError ℕ
  | acc, [] => .ok acc
  | acc, item :: items => do
      let acc ← addOrOverflow acc item.amount
      sumAmounts acc items

def checkBatchSize (p : PairStorage) (sendAmount : ℕ) (orders : List LimitOrderPlacementItem) :
    Except ContractError Unit := do
  ensure (orders ≠ []) .limitBatchEmpty
  ensure (orders.length ≤ p.maxBatchRungs) (.limitBatchTooLarge p.maxBatchRungs orders.length)
  let expectedSend ← sumAmounts 0 orders
  ensure (sendAmount = expectedSend) (.limitBatchAmountMismatch expectedSend sendAmount)

/-- Place all rungs on a book that has just handed out their ids. -/
def placeRungs (c : BatchParams) (b : Book) (firstId : OrderId)
    (orders : List LimitOrderPlacementItem) : Except ContractError BatchState := do
  let plans ← numberRungs 0 firstId orders
  let start : BatchState := ⟨b, List.replicate orders.length none, 0, 0, 0, 0, none, none⟩
  (plans.insertionSort (bookOrderLe c.side)).foldlM (placeRung c) start

/-- Count the placed escrow at once. -/
def BatchState.bookEscrow (st : BatchState) (side : LimitOrderSide) : Except ContractError Book :=
  if st.placedEscrowRemaining = 0 then .ok st.book
  else st.book.escrowAdd side st.placedEscrowRemaining

/-- `execute_place_limit_orders_batch`. The sent tokens have already arrived. -/
def executePlaceLimitOrdersBatch (p : PairStorage) (q : Querier) (env : Env)
    (offerToken owner : Addr) (sendAmount : ℕ) (side : LimitOrderSide)
    (orders : List LimitOrderPlacementItem) : Except ContractError (PairStorage × Response) := do
  checkBatchSize p sendAmount orders
  let (decimals0, decimals1) ← queryPairAssetDecimals q p.pairInfo
  let (cache, effectiveFeeBps, deregisterMsgs) ← effectiveFeeBpsWithDiscountMsgs q
    p.discountCache env.blockTime p.feeConfig.feeBps p.discountRegistry owner
  ensure (offerToken = p.pairInfo.escrowToken side) .invalidToken
  let (b, firstId) ← p.book.reserveOrderIdBlock orders.length
  let st ← placeRungs
    ⟨side, owner, env.blockTime, decimals0, decimals1, makerFeeBps effectiveFeeBps⟩ b firstId orders
  let b ← st.bookEscrow side
  let placed := st.placedByInput.reduceOption
  ensure (placed ≠ []) (.limitBatchNoRungsPlaced st.skippedCount)
  let refund ← subOrOverflow sendAmount st.placedAmountSum
  return (
    { p with book := b, discountCache := cache },
    { messages := deregisterMsgs ++ maybeTransfer offerToken owner refund ++
        maybeTransfer offerToken p.feeConfig.treasury st.totalMakerFee
      events := []
      attributes := .placeLimitOrderBatch
        { placed := placed
          skippedCount := st.skippedCount
          refund := refund
          side := side
          totalMakerFee := st.totalMakerFee
          effectiveFeeBps := effectiveFeeBps
          owner := owner } })

def executePlaceLimitOrderLadder (p : PairStorage) (q : Querier) (env : Env)
    (offerToken owner : Addr) (sendAmount : ℕ) (ladder : LimitOrderLadderSpec) :
    Except ContractError (PairStorage × Response) := do
  let (decimals0, decimals1) ← queryPairAssetDecimals q p.pairInfo
  let orders ← (expandLimitLadder ladder p.maxBatchRungs decimals0 decimals1).mapError
    .limitLadderInvalid
  executePlaceLimitOrdersBatch p q env offerToken owner sendAmount ladder.side orders

end Cl8yDex

/-!
## Governance operations and the dispatcher

The factory changes fees, hooks, caps and the pause flag, and sweeps what the pair holds beyond its
reserves and its makers' escrow. `execute` runs the gates of each message before its handler; an
error of either leaves the storage as it was.
-/

namespace Cl8yDex

open Outcome

def executeUpdateFee (p : PairStorage) (sender : Addr) (feeBps : ℕ) :
    Except ContractError (PairStorage × Response) := do
  p.assertFactory sender
  ensure (feeBps ≤ 10000) (.invalidFee "fee_bps must be <= 10000")
  return ({ p with feeConfig := { p.feeConfig with feeBps := feeBps } }, .plain (.updateFee feeBps))

def executeUpdateTreasury (p : PairStorage) (q : Querier) (sender treasury : Addr) :
    Except ContractError (PairStorage × Response) := do
  p.assertFactory sender
  let treasury ← q.addrValidate treasury
  return ({ p with feeConfig := { p.feeConfig with treasury := treasury } },
    .plain (.updateTreasury treasury))

def executeUpdateHooks (p : PairStorage) (q : Querier) (sender : Addr) (hooks : List Addr) :
    Except ContractError (PairStorage × Response) := do
  p.assertFactory sender
  let validated ← validatePairHooks q hooks
  return ({ p with hooks := validated }, .plain (.updateHooks validated.length))

def executeIncreaseObservationCardinality (p : PairStorage) (newCardinality : ℕ) :
    Except ContractError (PairStorage × Response) := do
  let oracle ← p.oracle.increaseObservationCardinality newCardinality
  return ({ p with oracle := oracle }, .plain (.increaseObservationCardinality newCardinality))

def executeSetDiscountRegistry (p : PairStorage) (q : Querier) (sender : Addr)
    (registry : Option Addr) : Except ContractError (PairStorage × Response) := do
  p.assertFactory sender
  let validated ← registry.mapM q.addrValidate
  return ({ p with discountRegistry := validated }, .plain (.setDiscountRegistry validated))

def executeRefreshAssetCodeIds (p : PairStorage) (q : Querier) (sender : Addr) :
    Except ContractError (PairStorage × Response) := do
  p.assertFactory sender
  let codeIds ← refreshAssetCodeIds q p.pairInfo
  return ({ p with assetCodeIds := some codeIds }, .plain (.refreshAssetCodeIds codeIds))

def executeSetPaused (p : PairStorage) (sender : Addr) (paused : Bool) :
    Except ContractError (PairStorage × Response) := do
  p.assertFactory sender
  return ({ p with paused := paused }, .plain (.setPaused paused))

/-- What the storage owes of a token: its reserve and its pending escrow. -/
def PairStorage.reserveForToken (p : PairStorage) (token : Addr) : ℕ :=
  if token = p.pairInfo.token0 then p.reserves.1
  else if token = p.pairInfo.token1 then p.reserves.2
  else 0

def PairStorage.pendingEscrowForToken (p : PairStorage) (token : Addr) : ℕ :=
  if token = p.pairInfo.token0 then p.book.pendingEscrow .ask
  else if token = p.pairInfo.token1 then p.book.pendingEscrow .bid
  else 0

def executeSweep (p : PairStorage) (q : Querier) (env : Env) (sender token recipient : Addr) :
    Except ContractError (PairStorage × Response) := do
  p.assertFactory sender
  let token ← q.addrValidate token
  let recipient ← q.addrValidate recipient
  let balance ← orThrow (q.balance token env.contract) queryErr
  let excess := balance - p.reserveForToken token - p.pendingEscrowForToken token
  ensure (excess ≠ 0) (.nothingToSweep token)
  return (p, ⟨[.transfer token recipient excess], [], .sweep token recipient excess⟩)

def executeSetLpAdmin (p : PairStorage) (q : Querier) (sender newAdmin : Addr) :
    Except ContractError (PairStorage × Response) := do
  p.assertFactory sender
  let admin ← q.addrValidate newAdmin
  return (p, ⟨[.updateAdmin p.pairInfo.lpToken admin], [], .setLpAdmin admin⟩)

def executeUpdateLimitOrderConfig (p : PairStorage) (sender : Addr) (maxBatchRungs : ℕ) :
    Except ContractError (PairStorage × Response) := do
  p.assertFactory sender
  ensure (maxBatchRungs ≠ 0) (.limitBatchConfigInvalid "max_batch_rungs must be at least 1")
  return ({ p with maxBatchRungs := clampMaxBatchRungs maxBatchRungs },
    .plain (.updateLimitOrderConfig (clampMaxBatchRungs maxBatchRungs)))

def executeUpdateLimitCleanConfig (p : PairStorage) (sender : Addr) (config : LimitCleanConfig) :
    Except ContractError (PairStorage × Response) := do
  p.assertFactory sender
  return ({ p with limitCleanConfig := config }, .plain (.updateLimitCleanConfig config))

/-- The messages that arrive with tokens. -/
inductive Cw20HookMsg
  | swap (args : SwapArgs) (deadline : Option ℕ)
  | placeLimitOrderBatch (side : LimitOrderSide) (orders : List LimitOrderPlacementItem)
  | placeLimitOrderLadder (ladder : LimitOrderLadderSpec)
  | withdrawLiquidity (minAssets : Option (ℕ × ℕ))

structure Cw20ReceiveMsg where
  sender : Addr
  amount : ℕ
  msg : Cw20HookMsg

inductive ExecuteMsg
  | receive (msg : Cw20ReceiveMsg)
  | provideLiquidity (assets : Asset × Asset) (slippageTolerance : Option Decimal)
      (receiver : Option Addr) (deadline : Option ℕ)
  | swap (offerAsset : Asset)
  | updateFee (feeBps : ℕ)
  | updateTreasury (treasury : Addr)
  | updateHooks (hooks : List Addr)
  | increaseObservationCardinality (newCardinality : ℕ)
  | setDiscountRegistry (registry : Option Addr)
  | refreshAssetCodeIds
  | setPaused (paused : Bool)
  | sweep (token recipient : Addr)
  | setLpAdmin (admin : Addr)
  | cancelLimitOrder (orderId : OrderId)
  | cancelLimitOrders (orderIds : List OrderId)
  | claimExpiredLimitOrder (orderId : OrderId)
  | claimExpiredLimitOrders (orderIds : List OrderId)
  | updateLimitOrderPrice (orderId : OrderId) (price : Decimal)
      (hintAfterOrderId : Option OrderId) (maxAdjustSteps : ℕ)
  | updateLimitOrderConfig (maxBatchRungs : ℕ)
  | cleanLimitBook (side : LimitOrderSide) (maxOrders : ℕ) (startHint : Option OrderId)
      (maxSteps : Option ℕ)
  | updateLimitCleanConfig (config : LimitCleanConfig)

/-- The wallets that a token message is checked for: its sender and a named trader. -/
def receiveWallets (q : Querier) (tokenSender : Addr) : Cw20HookMsg →
    Except ContractError (List Addr)
  | .swap args _ =>
      match args.trader with
      | some t => do
          let t ← q.addrValidate t
          return [tokenSender, t]
      | none => .ok [tokenSender]
  | _ => .ok [tokenSender]

def receiveHandler (p : PairStorage) (q : Querier) (env : Env) (token tokenSender : Addr)
    (amount : ℕ) : Cw20HookMsg → Except ContractError (PairStorage × Response)
  | .swap args deadline => do
      assertDeadline env deadline
      executeSwap p q env token tokenSender amount args
  | .placeLimitOrderBatch side orders =>
      executePlaceLimitOrdersBatch p q env token tokenSender amount side orders
  | .placeLimitOrderLadder ladder =>
      executePlaceLimitOrderLadder p q env token tokenSender amount ladder
  | .withdrawLiquidity minAssets =>
      executeWithdrawLiquidity p env token tokenSender amount minAssets

def executeReceive (p : PairStorage) (q : Querier) (env : Env) (token : Addr)
    (msg : Cw20ReceiveMsg) : Except ContractError (PairStorage × Response) := do
  let tokenSender ← q.addrValidate msg.sender
  let wallets ← receiveWallets q tokenSender msg.msg
  p.gateTradingBlacklist q env wallets [token]
  p.gateAssetCodeIds q
  receiveHandler p q env token tokenSender msg.amount msg.msg

/-- The gates of the makers' own operations. -/
def makerGate (p : PairStorage) (q : Querier) (env : Env) (sender : Addr) :
    Except ContractError Unit := do
  p.assertNotPaused
  p.gateTradingBlacklist q env [sender] []
  p.gateAssetCodeIds q

def directSwap (offerAsset : Asset) : Except ContractError (PairStorage × Response) :=
  match offerAsset.info with
  | .nativeToken _ => .error .nativeTokenNotSupported
  | .token _ => .error (stdErr
      ("Direct Swap execute is not supported for CW20 tokens; use CW20 Send with " ++
        "Cw20HookMsg::Swap instead"))

/-- The entry point of the pair. -/
def execute (p : PairStorage) (q : Querier) (env : Env) (sender : Addr) :
    ExecuteMsg → Except ContractError (PairStorage × Response)
  | .receive msg => do
      p.assertNotPaused
      executeReceive p q env sender msg
  | .provideLiquidity assets slippageTolerance receiver deadline => do
      p.assertNotPaused
      assertDeadline env deadline
      p.gateTradingBlacklist q env [sender] []
      p.gateAssetCodeIds q
      executeProvideLiquidity p q env sender assets slippageTolerance receiver
  | .swap offerAsset => directSwap offerAsset
  | .updateFee feeBps => executeUpdateFee p sender feeBps
  | .updateTreasury treasury => executeUpdateTreasury p q sender treasury
  | .updateHooks hooks => executeUpdateHooks p q sender hooks
  | .increaseObservationCardinality n => executeIncreaseObservationCardinality p n
  | .setDiscountRegistry registry => executeSetDiscountRegistry p q sender registry
  | .refreshAssetCodeIds => executeRefreshAssetCodeIds p q sender
  | .setPaused paused => executeSetPaused p sender paused
  | .sweep token recipient => executeSweep p q env sender token recipient
  | .setLpAdmin admin => executeSetLpAdmin p q sender admin
  | .cancelLimitOrder orderId => do
      makerGate p q env sender
      executeCancelLimitOrder p sender orderId
  | .cancelLimitOrders orderIds => do
      makerGate p q env sender
      executeCancelLimitOrders p sender orderIds
  | .claimExpiredLimitOrder orderId => do
      makerGate p q env sender
      executeClaimExpiredLimitOrder p sender orderId
  | .claimExpiredLimitOrders orderIds => do
      makerGate p q env sender
      executeClaimExpiredLimitOrders p sender orderIds
  | .updateLimitOrderPrice orderId price hintAfterOrderId maxAdjustSteps => do
      makerGate p q env sender
      executeUpdateLimitOrderPrice p q env sender orderId price hintAfterOrderId maxAdjustSteps
  | .updateLimitOrderConfig maxBatchRungs => executeUpdateLimitOrderConfig p sender maxBatchRungs
  | .cleanLimitBook side maxOrders startHint maxSteps => do
      p.assertNotPaused
      p.gateAssetCodeIds q
      executeCleanLimitBook p env side maxOrders startHint maxSteps
  | .updateLimitCleanConfig config => executeUpdateLimitCleanConfig p sender config

end Cl8yDex
