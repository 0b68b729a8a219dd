import Cl8yDex.MaxSpread
import Cl8yDex.Pair
import Cl8yDex.PoolMath

/-!
# The swap and its quote

`execute_swap` sends the book leg through the matching walk and the rest through the pool, checks
the user's limits, and answers with one ordered list of transfers followed by the hook calls. The
quote repeats the arithmetic on a state it does not change.
-/

namespace Cl8yDex

open Outcome

/-- What the user signed. -/
structure SwapArgs where
  beliefPrice : Option Decimal
  maxSpread : Option Decimal
  minReturn : Option ℕ
  toAddr : Option Addr
  trader : Option Addr
  hybrid : Option HybridSwapParams
  greedy : Option GreedySwapParams

/-- How an offer is divided between the pool and the book. -/
structure SwapPlan where
  poolLeg : ℕ
  bookLeg : ℕ
  maxMakers : ℕ
  bookHint : Option OrderId
  greedyEnabled : Bool

def resolveMode (hybrid : Option HybridSwapParams) (greedy : Option GreedySwapParams) :
    Except ContractError SwapHybridMode :=
  (resolveSwapHybridMode hybrid greedy).mapError ContractError.invalidHybridParams

def checkDeclaredSplit (inputAmount : ℕ) (h : HybridSwapParams) : Except ContractError Unit := do
  let total ← addOrOverflow h.poolInput h.bookInput
  ensure (total = inputAmount) .hybridSplitMismatch
  ensure (¬(0 < h.bookInput ∧ h.maxMakerFills = 0))
    (.invalidHybridParams "max_maker_fills must be > 0 when book_input > 0")

/-- A declared split without a belief price needs a material pool leg. -/
def checkDeclaredPoolLeg (inputAmount : ℕ) (beliefPrice : Option Decimal) (h : HybridSwapParams) :
    Except ContractError Unit :=
  if beliefPrice = none then
    liftSpread (validateDeclaredHybridPoolLegForNoBelief inputAmount h.poolInput h.bookInput)
  else .ok ()

def checkDeclaredFloor (beliefPrice : Option Decimal) (minReturn : Option ℕ)
    (h : HybridSwapParams) : Except ContractError Unit :=
  if beliefPrice = none then
    liftSpread (validateHybridBookRequiresSlippageFloor h.bookInput beliefPrice minReturn)
  else .ok ()

def planPoolOnly (inputAmount : ℕ) : SwapPlan := ⟨inputAmount, 0, 0, none, false⟩

def planDeclared (h : HybridSwapParams) : SwapPlan :=
  ⟨h.poolInput, h.bookInput, h.maxMakerFills, h.bookStartHint, false⟩

def planGreedy (inputAmount : ℕ) (g : GreedySwapParams) : SwapPlan :=
  ⟨0, inputAmount, g.maxMakerFills, g.bookStartHint, true⟩

def planSwap (inputAmount : ℕ) (beliefPrice : Option Decimal) (minReturn : Option ℕ) :
    SwapHybridMode → Except ContractError SwapPlan
  | .poolOnly => .ok (planPoolOnly inputAmount)
  | .declared h => do
      checkDeclaredSplit inputAmount h
      checkDeclaredFloor beliefPrice minReturn h
      checkDeclaredPoolLeg inputAmount beliefPrice h
      return planDeclared h
  | .greedy g => do
      -- a greedy swap always intends book contact, even when the book is empty
      liftSpread (validateHybridBookRequiresSlippageFloor inputAmount beliefPrice minReturn)
      return planGreedy inputAmount g

/-- The quote's plan leaves out the floors, which are not part of its question. -/
def planQuote (inputAmount : ℕ) (beliefPrice : Option Decimal) :
    SwapHybridMode → Except ContractError SwapPlan
  | .poolOnly => .ok (planPoolOnly inputAmount)
  | .declared h => do
      checkDeclaredSplit inputAmount h
      checkDeclaredPoolLeg inputAmount beliefPrice h
      return planDeclared h
  | .greedy g => .ok (planGreedy inputAmount g)

/-- The pool as a greedy walk sees it. -/
def SwapPlan.greedyPool (plan : SwapPlan) (reserves : ℕ × ℕ) (side : LimitOrderSide)
    (effectiveFeeBps : ℕ) : Option GreedyPoolRef :=
  if plan.greedyEnabled then
    some ⟨inputReserve reserves side, outputReserve reserves side, effectiveFeeBps⟩
  else none

def BookMatchResult.none : BookMatchResult :=
  ⟨0, 0, 0, 0, 0, false, Option.none, 0, [], []⟩

def BookSimulateResult.none : BookSimulateResult := ⟨0, 0, 0, false, Option.none, 0⟩

def matchBook : LimitOrderSide → Book → ℕ → ℕ → ℕ → Option OrderId → ℕ →
    Option TradeBlacklistGate → Option GreedyPoolRef → Except ContractError (Book × BookMatchResult)
  | .bid => matchBids
  | .ask => matchAsks

def simulateMatchBook : LimitOrderSide → Book → ℕ → ℕ → ℕ → Option OrderId → ℕ →
    Option TradeBlacklistGate → Option GreedyPoolRef → Except ContractError BookSimulateResult
  | .bid => simulateMatchBids
  | .ask => simulateMatchAsks

/-- What the book and the pool made of an offer. -/
structure SwapLegs where
  book : Book
  bookMatch : BookMatchResult
  pool : PoolLeg
  reserves : ℕ × ℕ

/-- What a quote says about the two legs. -/
structure QuotedLegs where
  bookMatch : BookSimulateResult
  pool : PoolLeg

def settleReserves (reserves : ℕ × ℕ) (poolInput grossOutput : ℕ) :
    LimitOrderSide → Except ContractError (ℕ × ℕ)
  | .bid => do
      let a ← addOrOverflow reserves.1 poolInput
      let b ← subOrOverflow reserves.2 grossOutput
      return (a, b)
  | .ask => do
      let a ← subOrOverflow reserves.1 grossOutput
      let b ← addOrOverflow reserves.2 poolInput
      return (a, b)

/-- The reserves are only written when something went through the pool. -/
def reservesAfter (reserves : ℕ × ℕ) (side : LimitOrderSide) (leg : PoolLeg) :
    Except ContractError (ℕ × ℕ) :=
  if leg.input = 0 then .ok reserves else settleReserves reserves leg.input leg.grossOutput side

/-- Whatever the book leaves of its leg goes to the pool. -/
def poolInputAmount (plan : SwapPlan) (offerConsumed : ℕ) : Except ContractError ℕ := do
  let unfilled ← subOrOverflow plan.bookLeg offerConsumed
  addOrOverflow plan.poolLeg unfilled

section Legs

variable (p : PairStorage) (q : Querier) (env : Env) (side : LimitOrderSide) (plan : SwapPlan)
  (effectiveFeeBps : ℕ)

def executeBookLeg : Except ContractError (Book × BookMatchResult) :=
  if 0 < plan.bookLeg then
    matchBook side p.book env.blockTime plan.bookLeg plan.maxMakers plan.bookHint effectiveFeeBps
      (some (tradeBlacklistGate q p.pairInfo env.contract))
      (plan.greedyPool p.reserves side effectiveFeeBps)
  else .ok (p.book, BookMatchResult.none)

def simulateBookLeg : Except ContractError BookSimulateResult :=
  if 0 < plan.bookLeg then
    simulateMatchBook side p.book env.blockTime plan.bookLeg plan.maxMakers plan.bookHint
      effectiveFeeBps (some (tradeBlacklistGate q p.pairInfo env.contract))
      (plan.greedyPool p.reserves side effectiveFeeBps)
  else .ok BookSimulateResult.none

def executeLegs : Except ContractError SwapLegs := do
  let (book, bookMatch) ← executeBookLeg p q env side plan effectiveFeeBps
  let poolInput ← poolInputAmount plan bookMatch.offerConsumed
  let leg ← executePoolLeg (inputReserve p.reserves side) (outputReserve p.reserves side) poolInput
    effectiveFeeBps
  let reserves ← reservesAfter p.reserves side leg
  return ⟨book, bookMatch, leg, reserves⟩

def simulateLegs : Except ContractError QuotedLegs := do
  let bookMatch ← simulateBookLeg p q env side plan effectiveFeeBps
  let poolInput ← poolInputAmount plan bookMatch.offerConsumed
  let leg ← simulatePoolLeg (inputReserve p.reserves side) (outputReserve p.reserves side)
    poolInput effectiveFeeBps
  return ⟨bookMatch, leg⟩

end Legs

/-- The slippage checks and the fee hooks, on the two totals of a swap. -/
structure Settlement where
  totalReturn : ℕ
  totalCommission : ℕ
  deductions : List HookFeeDeduction
  hookFeeTotal : ℕ
  netReturn : ℕ

def SwapLegs.spreadInputs (legs : SwapLegs) (plan : SwapPlan) (inputAmount : ℕ) :
    MaxSpreadInputs where
  offerAmount := inputAmount
  poolNetReturn := legs.pool.returnAmount
  poolCommission := legs.pool.commissionAmount
  poolSpread := legs.pool.spreadAmount
  bookNetReturn := legs.bookMatch.returnNet
  poolInput := legs.pool.input
  bookInput := legs.bookMatch.offerConsumed
  declaredPoolInput := plan.poolLeg

def assertMaxSpread (args : SwapArgs) (inputs : MaxSpreadInputs) : Except ContractError Unit :=
  liftSpread (checkMaxSpread args.beliefPrice args.maxSpread inputs)

def assertMinReturn (minReturn : Option ℕ) (netReturn : ℕ) : Except ContractError Unit :=
  match minReturn with
  | some minimum => ensure (minimum ≤ netReturn) (.minReturnAssertion minimum netReturn)
  | none => .ok ()

def settleSwap (q : Querier) (hooks : List Addr) (askToken : Addr) (args : SwapArgs)
    (inputAmount : ℕ) (plan : SwapPlan) (legs : SwapLegs) : Except ContractError Settlement := do
  let totalReturn ← addOrOverflow legs.bookMatch.returnNet legs.pool.returnAmount
  let totalCommission ← addOrOverflow legs.bookMatch.commissionTotal legs.pool.commissionAmount
  assertMaxSpread args (legs.spreadInputs plan inputAmount)
  let deductions ← collectFeeHookDeductions q hooks askToken totalReturn
  let hookFeeTotal ← sumDeductions 0 deductions
  ensure (hookFeeTotal ≤ totalReturn) (.hookFeeExceedsReturn hookFeeTotal totalReturn)
  let netReturn ← subOrOverflow totalReturn hookFeeTotal
  assertMinReturn args.minReturn netReturn
  return ⟨totalReturn, totalCommission, deductions, hookFeeTotal, netReturn⟩

def makerPayoutTransferMessages (makerPayouts : List (Addr × ℕ)) (offerToken : Addr) :
    List CosmosMsg :=
  makerPayouts.flatMap fun payout => maybeTransfer offerToken payout.1 payout.2

/-- Maker payouts, fee hooks, the taker's return and the treasury, in this order. -/
def swapTransferMessages (offerToken askToken receiver treasury : Addr)
    (makerPayouts : List (Addr × ℕ)) (s : Settlement) : List CosmosMsg :=
  makerPayoutTransferMessages makerPayouts offerToken ++
    feeSettlementTransferMessages s.deductions ++
    maybeTransfer askToken receiver s.netReturn ++
    maybeTransfer askToken treasury s.totalCommission

def hookMessages (pair sender offerToken askToken : Addr) (inputAmount : ℕ) (s : Settlement)
    (spreadAmount : ℕ) (hooks : List Addr) : List CosmosMsg :=
  hooks.map fun hook => .hook hook
    { pair := pair
      sender := sender
      offerAsset := ⟨.token offerToken, inputAmount⟩
      returnAsset := ⟨.token askToken, s.totalReturn⟩
      commissionAmount := s.totalCommission
      spreadAmount := spreadAmount }

def SwapLegs.report (legs : SwapLegs) (s : Settlement) (sender receiver offerToken askToken : Addr)
    (inputAmount effectiveFeeBps : ℕ) : SwapReport where
  sender := sender
  receiver := receiver
  offerToken := offerToken
  askToken := askToken
  offerAmount := inputAmount
  returnAmount := s.totalReturn
  netReturnAmount := s.netReturn
  hookFeeAmount := s.hookFeeTotal
  poolReturnAmount := legs.pool.returnAmount
  bookReturnAmount := legs.bookMatch.returnNet
  spreadAmount := legs.pool.spreadAmount
  commissionAmount := legs.pool.commissionAmount
  effectiveFeeBps := effectiveFeeBps
  limitBookOfferConsumed := legs.bookMatch.offerConsumed
  bookCommissionAmount := legs.bookMatch.commissionTotal
  expiredParks := legs.bookMatch.expiredParks
  expiredParksSkipped := legs.bookMatch.expiredParksSkipped
  scanStepsCapped := legs.bookMatch.scanStepsCapped
  greedyStop := legs.bookMatch.greedyStop

/-- The checks that come before anything is read from the pool. -/
def validateSwap (p : PairStorage) (inputAmount : ℕ) (args : SwapArgs) :
    Except ContractError SwapPlan := do
  ensure (inputAmount ≠ 0) .zeroAmount
  validateStoredHooks p.hooks
  ensure (p.hooks = [] ∨ hasPositiveFloor args.minReturn) .hookNetMinimumRequired
  let mode ← resolveMode args.hybrid args.greedy
  planSwap inputAmount args.beliefPrice args.minReturn mode

/-- `execute_swap`. The offered tokens have already arrived. -/
def executeSwap (p : PairStorage) (q : Querier) (env : Env) (offerToken sender : Addr)
    (inputAmount : ℕ) (args : SwapArgs) : Except ContractError (PairStorage × Response) := do
  let plan ← validateSwap p inputAmount args
  let p ← p.updateOracle env
  let side ← p.pairInfo.takenSide offerToken
  let askToken := p.pairInfo.escrowToken side
  let receiver ← q.addrValidateOr args.toAddr sender
  let (cache, effectiveFeeBps, deregisterMsgs) ← effectiveFeeBpsWithDeregisterMsgs q
    p.discountCache env.blockTime p.feeConfig.feeBps p.discountRegistry
    (args.trader.getD sender) sender
  let p := { p with discountCache := cache }.openTxSwapScope env
  let legs ← executeLegs p q env side plan effectiveFeeBps
  let s ← settleSwap q p.hooks askToken args inputAmount plan legs
  return (
    { p with book := legs.book, reserves := legs.reserves }.advanceTxSwapIndex env,
    { messages :=
        swapTransferMessages offerToken askToken receiver p.feeConfig.treasury
          legs.bookMatch.makerPayouts s ++
        hookMessages env.contract sender offerToken askToken inputAmount s legs.pool.spreadAmount
          p.hooks ++
        deregisterMsgs
      events := stampSwapIndexOnFillEvents legs.bookMatch.fillEvents p.txSwapCounter
      attributes := .swap (legs.report s sender receiver offerToken askToken inputAmount
        effectiveFeeBps) })

structure HybridSimulationResponse where
  returnAmount : ℕ
  spreadAmount : ℕ
  commissionAmount : ℕ
  poolCommissionAmount : ℕ
  bookCommissionAmount : ℕ
  bookReturnAmount : ℕ
  poolReturnAmount : ℕ
  limitBookOfferConsumed : ℕ
  greedyStop : Option GreedyStopReason
  deriving DecidableEq

def HybridSimulationResponse.zero : HybridSimulationResponse := ⟨0, 0, 0, 0, 0, 0, 0, 0, none⟩

/-- A zero or unusable belief price is an error of the quote. -/
def quoteBelief (beliefPrice : Option Decimal) : Except ContractError Unit :=
  match beliefPrice with
  | some bp => do
      let _ ← liftSpread (beliefPriceReciprocal bp)
      return ()
  | none => .ok ()

def QuotedLegs.response (legs : QuotedLegs) : Except ContractError HybridSimulationResponse := do
  let totalOut ← addOrOverflow legs.bookMatch.returnNet legs.pool.returnAmount
  let commission ← addOrOverflow legs.pool.commissionAmount legs.bookMatch.commissionTotal
  return {
    returnAmount := totalOut
    spreadAmount := legs.pool.spreadAmount
    commissionAmount := commission
    poolCommissionAmount := legs.pool.commissionAmount
    bookCommissionAmount := legs.bookMatch.commissionTotal
    bookReturnAmount := legs.bookMatch.returnNet
    poolReturnAmount := legs.pool.returnAmount
    limitBookOfferConsumed := legs.bookMatch.offerConsumed
    greedyStop := legs.bookMatch.greedyStop }

/-- `simulate_hybrid_swap_before_hooks_with_fee`. -/
def simulateHybridSwapBeforeHooksWithFee (p : PairStorage) (q : Querier) (env : Env)
    (inputAmount : ℕ) (hybrid : Option HybridSwapParams) (greedy : Option GreedySwapParams)
    (offerToken : Addr) (effectiveFeeBps : ℕ) (beliefPrice : Option Decimal) :
    Except ContractError HybridSimulationResponse :=
  if inputAmount = 0 then .ok .zero
  else do
    quoteBelief beliefPrice
    let mode ← resolveMode hybrid greedy
    let plan ← planQuote inputAmount beliefPrice mode
    let side ← p.pairInfo.takenSide offerToken
    let legs ← simulateLegs p q env side plan effectiveFeeBps
    legs.response

/-- The output token of a quote; an unknown offer token falls to the first asset. -/
def PairInfo.quotedAsk (info : PairInfo) (offerToken : Addr) : Addr :=
  if offerToken = info.token0 then info.token1 else info.token0

/-- `simulate_hybrid_swap_with_fee`: the quote after the fee hooks. -/
def simulateHybridSwapWithFee (p : PairStorage) (q : Querier) (env : Env) (inputAmount : ℕ)
    (hybrid : Option HybridSwapParams) (greedy : Option GreedySwapParams) (offerToken : Addr)
    (effectiveFeeBps : ℕ) (beliefPrice : Option Decimal) :
    Except ContractError HybridSimulationResponse := do
  let sim ← simulateHybridSwapBeforeHooksWithFee p q env inputAmount hybrid greedy offerToken
    effectiveFeeBps beliefPrice
  let deductions ← collectFeeHookDeductions q p.hooks (p.pairInfo.quotedAsk offerToken)
    sim.returnAmount
  let net ← netReturnAfterHooks sim.returnAmount deductions
  return { sim with returnAmount := net }

end Cl8yDex
