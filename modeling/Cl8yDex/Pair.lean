import Cl8yDex.FeeDiscount
import Cl8yDex.HookSettlement
import Cl8yDex.Matching
import Cl8yDex.Oracle

/-!
# The pair's storage, its guards and what it reports

Everything a pair keeps between two messages, the gates that stand in front of its entry points,
and the response of an entry point: the messages it sends, in order, the events of the book and the
attributes of its action.
-/

namespace Cl8yDex

open Outcome

/-- The address that `Addr::unchecked("")` stands for. -/
def emptyAddr : Addr := 0

/-- `PAIR_INFO`. Both assets are CW20 contracts: `instantiate` rejects a native one. -/
structure PairInfo where
  token0 : Addr
  token1 : Addr
  lpToken : Addr
  factory : Addr
  deriving DecidableEq

namespace PairInfo

/-- The token that orders of a side escrow; it is also what a taker of that side receives. -/
def escrowToken (info : PairInfo) : LimitOrderSide → Addr
  | .bid => info.token1
  | .ask => info.token0

/-- The side of the book that an offered token trades against. -/
def takenSide (info : PairInfo) (offerToken : Addr) : Except ContractError LimitOrderSide :=
  if offerToken = info.token0 then .ok .bid
  else if offerToken = info.token1 then .ok .ask
  else .error .invalidToken

end PairInfo

structure LimitCleanConfig where
  minRemainingToken0 : ℕ
  minRemainingToken1 : ℕ
  deriving DecidableEq

structure TxSwapScope where
  height : ℕ
  txIndex : ℕ
  deriving DecidableEq

structure PairStorage where
  pairInfo : PairInfo
  assetCodeIds : Option (ℕ × ℕ)
  reserves : ℕ × ℕ
  feeConfig : FeeConfig
  hooks : List Addr
  totalLpSupply : ℕ
  oracle : Oracle
  paused : Bool
  discountRegistry : Option Addr
  discountCache : DiscountCache
  book : Book
  maxBatchRungs : ℕ
  limitCleanConfig : LimitCleanConfig
  txSwapScope : Option TxSwapScope
  txSwapCounter : ℕ

/-- The pool's reserve of the token that a side escrows. -/
def outputReserve (reserves : ℕ × ℕ) : LimitOrderSide → ℕ
  | .bid => reserves.2
  | .ask => reserves.1

def inputReserve (reserves : ℕ × ℕ) (side : LimitOrderSide) : ℕ := outputReserve reserves side.other

/-- An event of the book, with the ordinal of the swap when it is a fill. -/
structure BookEvent where
  event : MatchEvent
  swapIndex : Option ℕ
  deriving DecidableEq

/-- The amounts a swap reports. The fields from `limitBookOfferConsumed` on are emitted only when
part of the offer was sent to the book. -/
structure SwapReport where
  sender : Addr
  receiver : Addr
  offerToken : Addr
  askToken : Addr
  offerAmount : ℕ
  returnAmount : ℕ
  netReturnAmount : ℕ
  hookFeeAmount : ℕ
  poolReturnAmount : ℕ
  bookReturnAmount : ℕ
  spreadAmount : ℕ
  commissionAmount : ℕ
  effectiveFeeBps : ℕ
  limitBookOfferConsumed : ℕ
  bookCommissionAmount : ℕ
  expiredParks : ℕ
  expiredParksSkipped : ℕ
  scanStepsCapped : Bool
  greedyStop : Option GreedyStopReason
  deriving DecidableEq

structure PlacedRung where
  id : OrderId
  makerFee : ℕ
  price : Decimal
  deriving DecidableEq

structure PlacementReport where
  placed : List PlacedRung
  skippedCount : ℕ
  refund : ℕ
  side : LimitOrderSide
  totalMakerFee : ℕ
  effectiveFeeBps : ℕ
  owner : Addr
  deriving DecidableEq

structure CleanReport where
  side : LimitOrderSide
  cleanedCount : ℕ
  timeExpiredCount : ℕ
  forceExpiredCount : ℕ
  capHit : Bool
  scanCapped : Bool
  resumeCursor : Option OrderId
  deriving DecidableEq

/-- The attributes of a response, by its action. -/
inductive Attributes
  | swap (report : SwapReport)
  | placeLimitOrderBatch (report : PlacementReport)
  | cancelLimitOrder (orderId : OrderId) (owner : Addr)
  | cancelLimitOrdersBatch (orderIds : List OrderId) (owner : Addr)
  | claimExpiredLimitOrder (orderId : OrderId) (owner : Addr)
  | claimExpiredLimitOrdersBatch (orderIds : List OrderId) (owner : Addr)
  | updateLimitOrderPrice (orderId : OrderId) (price : Decimal)
  | cleanLimitBook (report : CleanReport)
  | provideLiquidity (sender receiver : Addr) (amountA amountB share minimumLiquidityBurned : ℕ)
  | withdrawLiquidity (sender : Addr) (withdrawnShare refundA refundB : ℕ)
  | updateFee (feeBps : ℕ)
  | updateTreasury (treasury : Addr)
  | updateHooks (hooksCount : ℕ)
  | increaseObservationCardinality (newCardinality : ℕ)
  | setDiscountRegistry (registry : Option Addr)
  | refreshAssetCodeIds (codeIds : ℕ × ℕ)
  | setPaused (paused : Bool)
  | sweep (token recipient : Addr) (amount : ℕ)
  | setLpAdmin (newAdmin : Addr)
  | updateLimitOrderConfig (maxBatchRungs : ℕ)
  | updateLimitCleanConfig (config : LimitCleanConfig)
  | instantiate (token0 token1 : Addr)
  | lpTokenReply (lpToken : Addr)
  deriving DecidableEq

structure Response where
  messages : List CosmosMsg
  events : List BookEvent
  attributes : Attributes

/-- A response without messages or book events. -/
def Response.plain (attributes : Attributes) : Response := ⟨[], [], attributes⟩

def assertDeadline (env : Env) (deadline : Option ℕ) : Except ContractError Unit :=
  match deadline with
  | some dl => ensure (env.blockTime ≤ dl) (.deadlineExceeded dl env.blockTime)
  | none => .ok ()

/-- The probed tokens: both assets and whatever else is not one of them. -/
def blacklistTokens (info : PairInfo) (extraTokens : List Addr) : List Addr :=
  extraTokens.foldl (fun tokens t => if t ∈ tokens then tokens else tokens ++ [t])
    [info.token0, info.token1]

/-- One probe of the factory. A failed query blocks like a listed wallet does. -/
def probeFactoryBlacklist (q : Querier) (info : PairInfo) (check : BlacklistCheck) :
    Except ContractError Unit := do
  let resp ← orThrow (q.blacklistCheck info.factory check) .blacklistGuardUnavailable
  ensure (resp.blocked = false) (.blacklisted resp.walletBlacklisted resp.pairBlacklisted
    resp.blacklistedTokens resp.blacklistedPairs)

def assertTradeNotBlacklisted (q : Querier) (info : PairInfo) (pairContract : Addr)
    (wallets extraTokens : List Addr) : Except ContractError Unit :=
  let tokens := blacklistTokens info extraTokens
  match wallets with
  | [] => probeFactoryBlacklist q info ⟨none, tokens, some pairContract⟩
  | wallets => wallets.forM fun wallet =>
      probeFactoryBlacklist q info ⟨some wallet, tokens, some pairContract⟩

/-- The gate that a match walk asks about each maker. -/
def tradeBlacklistGate (q : Querier) (info : PairInfo) (pairContract : Addr) :
    TradeBlacklistGate := fun wallet =>
  (q.blacklistCheck info.factory ⟨some wallet, blacklistTokens info [], some pairContract⟩).map
    BlacklistCheckResponse.blocked

def liveCodeId (q : Querier) (token : Addr) : Except ContractError ℕ :=
  orThrow (q.codeId token) .assetCodeIdGuardUnavailable

def assertWhitelisted (q : Querier) (info : PairInfo) (token : Addr) (codeId : ℕ) :
    Except ContractError Unit := do
  let whitelisted ← orThrow (q.isCodeIdWhitelisted info.factory codeId)
    .assetCodeIdGuardUnavailable
  ensure (whitelisted = true) (.assetCodeIdNotWhitelisted token codeId)

def assertPinAndWhitelist (q : Querier) (info : PairInfo) (token : Addr) (pinned : ℕ) :
    Except ContractError Unit := do
  let live ← liveCodeId q token
  ensure (live = pinned) (.assetCodeIdDrift token pinned live)
  assertWhitelisted q info token live

def snapshotAssetCodeIds (q : Querier) (info : PairInfo) : Except ContractError (ℕ × ℕ) := do
  let live0 ← liveCodeId q info.token0
  let live1 ← liveCodeId q info.token1
  return (live0, live1)

def refreshAssetCodeIds (q : Querier) (info : PairInfo) : Except ContractError (ℕ × ℕ) := do
  let live ← snapshotAssetCodeIds q info
  assertWhitelisted q info info.token0 live.1
  assertWhitelisted q info info.token1 live.2
  return live

def queryPairAssetDecimals (q : Querier) (info : PairInfo) : Except ContractError (ℕ × ℕ) := do
  let decimals0 ← orThrow (q.decimals info.token0) queryErr
  let decimals1 ← orThrow (q.decimals info.token1) queryErr
  return (decimals0, decimals1)

namespace PairStorage

def assertNotPaused (p : PairStorage) : Except ContractError Unit := ensure (¬p.paused) .paused

def gateTradingBlacklist (p : PairStorage) (q : Querier) (env : Env)
    (wallets extraTokens : List Addr) : Except ContractError Unit :=
  assertTradeNotBlacklisted q p.pairInfo env.contract wallets extraTokens

def gateAssetCodeIds (p : PairStorage) (q : Querier) : Except ContractError Unit := do
  let pinned ← orThrow p.assetCodeIds .assetCodeIdUnpinned
  assertPinAndWhitelist q p.pairInfo p.pairInfo.token0 pinned.1
  assertPinAndWhitelist q p.pairInfo p.pairInfo.token1 pinned.2

/-- Only the factory may call. -/
def assertFactory (p : PairStorage) (sender : Addr) : Except ContractError Unit :=
  ensure (sender = p.pairInfo.factory) .unauthorized

def updateOracle (p : PairStorage) (env : Env) : Except ContractError PairStorage := do
  let oracle ← p.oracle.update env.blockTime p.reserves.1 p.reserves.2
  return { p with oracle := oracle }

def txSwapScopeOf (env : Env) : TxSwapScope := ⟨env.height, env.txIndex⟩

/-- `current_tx_swap_index`: a new transaction starts counting from zero. -/
def openTxSwapScope (p : PairStorage) (env : Env) : PairStorage :=
  if p.txSwapScope = some (txSwapScopeOf env) then p
  else { p with txSwapScope := some (txSwapScopeOf env), txSwapCounter := 0 }

def advanceTxSwapIndex (p : PairStorage) (env : Env) : PairStorage :=
  if p.txSwapScope = some (txSwapScopeOf env) then { p with txSwapCounter := p.txSwapCounter + 1 }
  else p

end PairStorage

/-- Only fill events carry the swap's ordinal. -/
def stampSwapIndexOnFillEvents (events : List MatchEvent) (swapIndex : ℕ) : List BookEvent :=
  events.map fun ev =>
    match ev with
    | .limitOrderFill .. => ⟨ev, some swapIndex⟩
    | .limitOrderExpiredParked .. => ⟨ev, none⟩

structure InstantiateMsg where
  assetInfos : AssetInfo × AssetInfo
  feeBps : ℕ
  treasury : Addr
  factory : Addr
  maxBatchRungs : ℕ
  discountRegistry : Option Addr

def AssetInfo.assertIsToken : AssetInfo → Except ContractError Addr
  | token contractAddr => .ok contractAddr
  | nativeToken _ => .error (stdErr
      "Native tokens are not supported; use CW20 wrapped tokens instead")

/-- The LP token is created by a submessage and filled in by `reply`. -/
def instantiate (q : Querier) (msg : InstantiateMsg) :
    Except ContractError (PairStorage × Response) := do
  let token0 ← msg.assetInfos.1.assertIsToken
  let token1 ← msg.assetInfos.2.assertIsToken
  let info : PairInfo := ⟨token0, token1, emptyAddr, msg.factory⟩
  let discountRegistry ← msg.discountRegistry.mapM q.addrValidate
  let pinned ← snapshotAssetCodeIds q info
  return (
    { pairInfo := info
      assetCodeIds := some pinned
      reserves := (0, 0)
      feeConfig := ⟨msg.feeBps, msg.treasury⟩
      hooks := []
      totalLpSupply := 0
      oracle := Oracle.initial
      paused := false
      discountRegistry := discountRegistry
      discountCache := fun _ _ => none
      book := Book.initial
      maxBatchRungs := clampMaxBatchRungs msg.maxBatchRungs
      limitCleanConfig := ⟨0, 0⟩
      txSwapScope := none
      txSwapCounter := 0 },
    .plain (.instantiate token0 token1))

/-- The reply to the creation of the LP token. -/
def reply (p : PairStorage) (q : Querier) (contractAddress : Addr) :
    Except ContractError (PairStorage × Response) := do
  let lpToken ← q.addrValidate contractAddress
  return ({ p with pairInfo := { p.pairInfo with lpToken := lpToken } },
    .plain (.lpTokenReply lpToken))

end Cl8yDex
