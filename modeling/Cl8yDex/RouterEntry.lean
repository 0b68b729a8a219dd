import Cl8yDex.RouteQuote
import Cl8yDex.CommunityToken
import Mathlib.Logic.Relation

/-!
# The entry points of the router

A route is one transaction. The user's tokens arrive with the operations, and the first hop is sent;
the reply to each hop measures what arrived and sends the next one; the reply to the last hop pays
out, and the reply to the payment closes the route. What a call reads of the chain is a record of
answers.
-/

namespace Cl8yDex.Router.Entry

open Outcome
open CommunityTax (RouteTransfer RouteTaxContextResponse RouterConfigResponse)

inductive ContractError
  | overflow
  | std (err : StdError)
  | unauthorized
  | emptyOperations
  | nativeSwapNotSupported
  | nativeTokenNotSupported
  | pairNotFound
  | minimumReceiveAssertion (minimum actual : ℕ)
  | deadlineExceeded (deadline current : ℕ)
  | swapInProgress
  | tooManyHops (max actual : ℕ)
  | wrapMapperNotSet
  | zeroHopOutput
  | blacklisted
  | blacklistGuardUnavailable
  deriving DecidableEq

/-- An operation of an executed route: a quoted one with the trader's floor of its output. -/
inductive RouteOperation
  | nativeSwap (offerDenom askDenom : String)
  | terraSwap (offerAssetInfo askAssetInfo : AssetInfo) (hybrid : Option HybridSwapParams)
      (greedy : Option GreedySwapParams) (minReturn : Option ℕ)

def RouteOperation.quoted : RouteOperation → SwapOperation
  | nativeSwap offerDenom askDenom => .nativeSwap offerDenom askDenom
  | terraSwap offerInfo askInfo hybrid greedy _ => .terraSwap offerInfo askInfo hybrid greedy

/-- What the wrap mapper says of its fees, before and after they were split. -/
structure WrapMapperConfig where
  feeBps : Option ℕ
  feeWrapBps : Option ℕ
  feeUnwrapBps : Option ℕ

/-- What a call of the router reads of the chain. -/
structure Answers where
  quote : QuoteContext
  now : ℕ
  balance : Addr → Addr → Except StdError ℕ
  blacklistCheck : Addr → List Addr → List Addr → Option Bool
  wrapMapperConfig : Addr → Except StdError WrapMapperConfig
  factoryGovernance : Except StdError Addr

structure SwapState where
  sender : Addr
  taxContext : RouteTaxContextResponse
  refunds : List RouteTransfer
  recipient : Addr
  remainingOperations : List RouteOperation
  minimumReceive : Option ℕ
  outputToken : Addr
  preHopBalance : ℕ
  unwrapOutput : Bool
  maxSpread : Decimal

structure Storage where
  factory : Addr
  wrapMapper : Option Addr
  lastRouteId : ℕ
  swapState : Option SwapState

/-- The swap that a hop asks of its pair. -/
structure SwapRequest where
  maxSpread : Decimal
  minReturn : Option ℕ
  trader : Addr
  hybrid : Option HybridSwapParams
  greedy : Option GreedySwapParams

/-- The tokens that a hop sends to its pair; its success is replied to. -/
structure HopSend where
  token : Addr
  pair : Addr
  amount : ℕ
  swap : SwapRequest

/-- What the end of a route pays. -/
inductive Payment
  | transfer (token recipient : Addr) (amount : ℕ)
  | routeTransfer (token : Addr) (slot : ℕ) (recipient : Addr) (amount : ℕ)
  | unwrap (token mapper : Addr) (amount : ℕ) (recipient : Addr)

inductive Response
  | none
  | hop (send : HopSend)
  | complete (refunds : List Payment) (output : Payment)

def settlementVersion : ℕ := 1
def maxSettlementSlots : ℕ := 5

def liftStd {α : Type} (x : Except StdError α) : Except ContractError α := x.mapError .std

def addAmounts (a b : ℕ) : Except ContractError ℕ := orThrow (checkedAdd a b) .overflow

def subAmounts (a b : ℕ) : Except ContractError ℕ := orThrow (checkedSub a b) .overflow

section Checks

def assertDeadline (a : Answers) (deadline : Option ℕ) : Except ContractError Unit :=
  match deadline with
  | none => .ok ()
  | some dl => ensure (a.now ≤ dl) (.deadlineExceeded dl a.now)

def bookSlippageFloorError : CheckMaxSpreadError → ContractError
  | .bookHybridRequiresSlippageFloor bookInput => .std (.generic
      ("Hybrid swap with book_input " ++ toString bookInput ++
        " requires per-hop min_return without belief_price"))
  | _ => .std (.generic "slippage floor")

def validateHybridHopExecuteSlippageFloor (hybrid : Option HybridSwapParams)
    (minReturn : Option ℕ) : Except ContractError Unit :=
  match hybrid with
  | none => .ok ()
  | some h => (validateHybridBookRequiresSlippageFloor h.bookInput none minReturn).mapError
      bookSlippageFloorError

def validateGreedyHopMutex (hybrid : Option HybridSwapParams) (greedy : Option GreedySwapParams) :
    Except ContractError Unit := do
  let _ ← (resolveSwapHybridMode hybrid greedy).mapError fun reason => .std (.generic reason)
  return ()

def validateGreedyHopExecuteSlippageFloor (greedy : Option GreedySwapParams)
    (minReturn : Option ℕ) : Except ContractError Unit :=
  if greedy.isSome then
    (validateHybridBookRequiresSlippageFloor 1 none minReturn).mapError bookSlippageFloorError
  else .ok ()

/-- The pair of an operation, and the asset it asks for. -/
def resolveOperation (q : QuoteContext) : RouteOperation → Except ContractError (Addr × AssetInfo)
  | .nativeSwap _ _ => .error .nativeSwapNotSupported
  | .terraSwap offerInfo askInfo _ _ _ => do
      let _ ← (assertIsToken offerInfo).mapError fun _ => .nativeTokenNotSupported
      let _ ← (assertIsToken askInfo).mapError fun _ => .nativeTokenNotSupported
      let pair ← (q.pair offerInfo askInfo).mapError fun _ => .pairNotFound
      return (pair.contractAddr, askInfo)

def pushNew (seen : List Addr) (x : Addr) : List Addr := if x ∈ seen then seen else seen ++ [x]

/-- The tokens and the pairs of a route, each once. -/
def routeParties (q : QuoteContext) (tokens pairs : List Addr) :
    List RouteOperation → Except ContractError (List Addr × List Addr)
  | [] => .ok (tokens, pairs)
  | .nativeSwap _ _ :: _ => .error .nativeSwapNotSupported
  | .terraSwap offerInfo askInfo _ _ _ :: operations => do
      let offer ← (assertIsToken offerInfo).mapError fun _ => .nativeTokenNotSupported
      let ask ← (assertIsToken askInfo).mapError fun _ => .nativeTokenNotSupported
      let pair ← (q.pair offerInfo askInfo).mapError fun _ => .pairNotFound
      routeParties q (pushNew (pushNew tokens offer) ask) (pushNew pairs pair.contractAddr)
        operations

def assertRouterSwapNotBlacklisted (a : Answers) (sender inputToken : Addr)
    (operations : List RouteOperation) : Except ContractError Unit := do
  let parties ← routeParties a.quote [inputToken] [] operations
  -- an unanswered check blocks the swap
  let blocked ← orThrow (a.blacklistCheck sender parties.1 parties.2) .blacklistGuardUnavailable
  ensure (¬blocked) .blacklisted

end Checks

section Amounts

def hopOutputFromBalance (balanceAfter preHopBalance : ℕ) : Except ContractError ℕ := do
  let hopOutput ← orThrow (checkedSub balanceAfter preHopBalance)
    (ContractError.std (.generic "hop balance decreased unexpectedly"))
  ensure (hopOutput ≠ 0) ContractError.zeroHopOutput
  return hopOutput

def wrapMapperFeePair (c : WrapMapperConfig) : Except StdError (ℕ × ℕ) :=
  match c.feeWrapBps, c.feeUnwrapBps with
  | some wrap, some unwrap => .ok (wrap, unwrap)
  | none, none => do
      let legacy ← orThrow c.feeBps
        (StdError.generic "wrap-mapper Config missing fee_unwrap_bps / fee_bps")
      return (legacy, legacy)
  | _, _ => .error (.generic "wrap-mapper Config has partial split fees")

def netAfterWrapMapperUnwrapFee (wrapped feeBps : ℕ) : Except StdError ℕ := do
  let fee ← multiplyRatio wrapped feeBps 10000
  trySub wrapped fee

/-- What the recipient gets of the last hop's output. -/
def deliveredAmount (a : Answers) (mapper : Option Addr) (hopOutput : ℕ) : Except StdError ℕ :=
  match mapper with
  | none => .ok hopOutput
  | some m => do
      let config ← a.wrapMapperConfig m
      let fees ← wrapMapperFeePair config
      netAfterWrapMapperUnwrapFee hopOutput fees.2

def allocateRouteId (s : Storage) : Except StdError ℕ := do
  ensure (s.lastRouteId + 1 ≤ u64Max) (StdError.generic "route ID exhausted")
  return s.lastRouteId + 1

/-- A token that can tax a route pays by the slot of a context. -/
def transfer (q : QuoteContext) (r : RouteTransfer) : Except StdError Payment := do
  let c ← capability (q.token r.token)
  return if c.isSome then .routeTransfer r.token r.slot r.recipient r.amount
    else .transfer r.token r.recipient r.amount

/-- The floor of the pair's gross output that leaves the trader's net floor. -/
def grossFloor (a : Answers) (outputToken pair : Addr) (sender : Addr) (minReturn : Option ℕ) :
    Except StdError (Option ℕ) :=
  match minReturn with
  | none => .ok none
  | some m => do
      let gross ← reverseBuy (a.quote.token outputToken) pair (some sender) a.quote.router m
      return some gross

end Amounts

section Hops

variable (a : Answers) (sender : Addr)

/-- What of a gross budget a hop hands to its pair, and what the token taxes. -/
def fund (token pair : Addr) (gross : ℕ) : Except ContractError (RouteTaxPreviewResponse × ℕ) := do
  let funded ← liftStd (preview (a.quote.token token) pair (some sender) (some a.quote.router)
    gross .sell)
  let spent ← addAmounts funded.economic funded.tax
  let residue ← subAmounts gross spent
  return (funded, residue)

/-- A residue is owed to the sender. -/
def owe (refunds : List RouteTransfer) (token : Addr) (residue : ℕ) : List RouteTransfer :=
  if residue = 0 then refunds else refunds ++ [⟨refunds.length, token, sender, residue⟩]

def firstSwap (maxSpread : Decimal) (pair outputToken : Addr) (gross economic : ℕ)
    (hybrid : Option HybridSwapParams) (greedy : Option GreedySwapParams) (minReturn : Option ℕ) :
    Except ContractError SwapRequest := do
  let minReturn ← liftStd (grossFloor a outputToken pair sender minReturn)
  let hybrid ← liftStd (fundedHybrid hybrid gross economic)
  liftStd (validateHybridDeclaredSplitForNoBelief economic hybrid)
  validateGreedyHopMutex hybrid greedy
  validateGreedyHopExecuteSlippageFloor greedy minReturn
  return ⟨maxSpread, minReturn, sender, hybrid, greedy⟩

def nextSwap (maxSpread : Decimal) (pair outputToken : Addr) (gross economic : ℕ)
    (hybrid : Option HybridSwapParams) (greedy : Option GreedySwapParams) (minReturn : Option ℕ) :
    Except ContractError SwapRequest := do
  let minReturn ← liftStd (grossFloor a outputToken pair sender minReturn)
  let hybrid ← liftStd (fundedHybrid hybrid gross economic)
  validateGreedyHopMutex hybrid greedy
  liftStd (validateHybridDeclaredSplitForNoBelief economic hybrid)
  validateHybridHopExecuteSlippageFloor hybrid minReturn
  validateGreedyHopExecuteSlippageFloor greedy minReturn
  return ⟨maxSpread, minReturn, sender, hybrid, greedy⟩

/-- The pair of an operation, its output token and what the router already holds of it. -/
def openHop (op : RouteOperation) : Except ContractError (Addr × Addr × ℕ) := do
  let resolved ← resolveOperation a.quote op
  let outputToken ← (assertIsToken resolved.2).mapError fun _ => .nativeTokenNotSupported
  liftStd (a.quote.addrValidate outputToken)
  let preHopBalance ← liftStd (a.balance outputToken a.quote.router)
  return (resolved.1, outputToken, preHopBalance)

end Hops

section Execute

variable (a : Answers) (s : Storage)

def executeSwapOperations (sender inputToken : Addr) (amount : ℕ)
    (operations : List RouteOperation) (minimumReceive : Option ℕ) (recipient : Option Addr)
    (unwrapOutput : Option Bool) (maxSpread : Decimal) :
    Except ContractError (Storage × Response) :=
  match operations with
  | [] => .error .emptyOperations
  | op :: remaining => do
      ensure (operations.length ≤ maxHops) (.tooManyHops maxHops operations.length)
      match op with
      | .nativeSwap _ _ => .error .nativeSwapNotSupported
      | .terraSwap _ _ hybrid greedy minReturn => do
          validateHybridHopExecuteSlippageFloor hybrid minReturn
          ensure s.swapState.isNone .swapInProgress
          ensure (unwrapOutput = some true → s.wrapMapper.isSome) .wrapMapperNotSet
          liftStd (validateAssetPath a.quote (operations.map RouteOperation.quoted)
            (some inputToken))
          assertRouterSwapNotBlacklisted a sender inputToken operations
          liftStd (a.quote.addrValidate (recipient.getD sender))
          let hop ← openHop a op
          let funds ← fund a sender inputToken hop.1 amount
          let refunds := owe sender [] inputToken funds.2
          let routeId ← liftStd (allocateRouteId s)
          let state : SwapState := {
            sender := sender
            taxContext := {
              routeId := routeId
              fundingVersion := fundingVersion
              trader := sender
              pair := hop.1
              offerToken := inputToken
              askToken := hop.2.1
              gross := amount
              economic := funds.1.economic
              transfers := []
              originalInputRefund := refunds.head?
              acquiredTokens := [] }
            refunds := refunds
            recipient := recipient.getD sender
            remainingOperations := remaining
            minimumReceive := minimumReceive
            outputToken := hop.2.1
            preHopBalance := hop.2.2
            unwrapOutput := unwrapOutput = some true
            maxSpread := maxSpread }
          let swap ← firstSwap a sender maxSpread hop.1 hop.2.1 amount funds.1.economic hybrid
            greedy minReturn
          return ({ s with lastRouteId := routeId, swapState := some state },
            .hop ⟨inputToken, hop.1, funds.1.economic, swap⟩)

/-- Whether some token of a route is taxed. -/
def anyTaxed (q : QuoteContext) : List RouteOperation → Except StdError Unit
  | [] => .ok ()
  | .nativeSwap _ _ :: operations => anyTaxed q operations
  | .terraSwap offerInfo askInfo _ _ _ :: operations => do
      let offer ← assertIsToken offerInfo
      let offerTax ← capability (q.token offer)
      ensure (∀ c, offerTax = some c → c.buyBps = 0 ∧ c.sellBps = 0) (StdError.generic
        "taxed routes require execute_route_swap_operations funding_version 1")
      let ask ← assertIsToken askInfo
      let askTax ← capability (q.token ask)
      ensure (∀ c, askTax = some c → c.buyBps = 0 ∧ c.sellBps = 0) (StdError.generic
        "taxed routes require execute_route_swap_operations funding_version 1")
      anyTaxed q operations

/-- The hook messages carry the version of the funding protocol, or none before it. -/
structure RouteOrder where
  version : Option ℕ
  operations : List RouteOperation
  maxSpread : Decimal
  minimumReceive : Option ℕ
  recipient : Option Addr
  deadline : Option ℕ
  unwrapOutput : Option Bool

inductive ExecuteMsg
  | receive (sender : Addr) (amount : ℕ) (order : RouteOrder)
  | executeSwapOperations
  | setWrapMapper (wrapMapper : Addr)

def checkVersion (order : RouteOrder) : Except ContractError Unit :=
  match order.version with
  | some version => ensure (version = fundingVersion)
      (.std (.generic "unsupported route tax funding version"))
  | none => liftStd (anyTaxed a.quote order.operations)

def executeReceive (inputToken sender : Addr) (amount : ℕ) (order : RouteOrder) :
    Except ContractError (Storage × Response) := do
  liftStd (a.quote.addrValidate sender)
  checkVersion a order
  assertDeadline a order.deadline
  executeSwapOperations a s sender inputToken amount order.operations order.minimumReceive
    order.recipient order.unwrapOutput order.maxSpread

def executeSetWrapMapper (sender wrapMapper : Addr) :
    Except ContractError (Storage × Response) := do
  let governance ← liftStd a.factoryGovernance
  ensure (sender = governance) ContractError.unauthorized
  liftStd (a.quote.addrValidate wrapMapper)
  return ({ s with wrapMapper := some wrapMapper }, .none)

def execute (sender : Addr) : ExecuteMsg → Except ContractError (Storage × Response)
  | .receive user amount order => executeReceive a s sender user amount order
  | .executeSwapOperations => .error (.std (.generic
      "Use CW20 Send to initiate swaps through the router"))
  | .setWrapMapper wrapMapper => executeSetWrapMapper a s sender wrapMapper

end Execute

section Replies

variable (a : Answers) (s : Storage)

/-- The mapper that unwraps the output, where the route asked for it. -/
def outputMapper (state : SwapState) : Except ContractError (Option Addr) :=
  if state.unwrapOutput then (orThrow s.wrapMapper .wrapMapperNotSet).map some else .ok none

def outputPayment (mapper : Option Addr) (last : RouteTransfer) : Except ContractError Payment :=
  match mapper with
  | some m => .ok (.unwrap last.token m last.amount last.recipient)
  | none => liftStd (transfer a.quote last)

/-- The end of a route: refunds by slot, then the output. -/
def finishRoute (state : SwapState) (hopOutput : ℕ) :
    Except ContractError (Storage × Response) := do
  let mapper ← outputMapper s state
  let delivered ← liftStd (deliveredAmount a mapper hopOutput)
  ensure (∀ minimum ∈ state.minimumReceive, minimum ≤ delivered)
    (ContractError.minimumReceiveAssertion (state.minimumReceive.getD 0) delivered)
  let last : RouteTransfer :=
    ⟨state.refunds.length, state.outputToken, state.recipient, hopOutput⟩
  let settled : SwapState :=
    { state with taxContext := { state.taxContext with transfers := state.refunds ++ [last] } }
  let refundMessages ← liftStd (state.refunds.mapM (transfer a.quote))
  let output ← outputPayment a mapper last
  return ({ s with swapState := some settled }, .complete refundMessages output)

def nextHop (state : SwapState) (hopOutput : ℕ) (op : RouteOperation)
    (remaining : List RouteOperation) : Except ContractError (Storage × Response) := do
  let hop ← openHop a op
  let current := state.outputToken
  let funds ← fund a state.sender current hop.1 hopOutput
  let next : SwapState := { state with
    remainingOperations := remaining
    outputToken := hop.2.1
    preHopBalance := hop.2.2
    refunds := owe state.sender state.refunds current funds.2
    taxContext := { state.taxContext with
      fundingVersion := fundingVersion
      trader := state.sender
      pair := hop.1
      offerToken := current
      askToken := hop.2.1
      gross := hopOutput
      economic := funds.1.economic
      transfers := [] } }
  match op with
  | .nativeSwap _ _ => .error .nativeSwapNotSupported
  | .terraSwap _ _ hybrid greedy minReturn => do
      let swap ← nextSwap a state.sender state.maxSpread hop.1 hop.2.1 hopOutput funds.1.economic
        hybrid greedy minReturn
      return ({ s with swapState := some next }, .hop ⟨current, hop.1, funds.1.economic, swap⟩)

/-- The tokens that the route has bought. -/
def SwapState.acquire (state : SwapState) : SwapState :=
  { state with taxContext := { state.taxContext with
    acquiredTokens := pushNew state.taxContext.acquiredTokens state.outputToken } }

def replySwapHop : Except ContractError (Storage × Response) := do
  let state ← orThrow s.swapState (ContractError.std (.generic "swap_state not found"))
  let balanceAfter ← liftStd (a.balance state.outputToken a.quote.router)
  let hopOutput ← hopOutputFromBalance balanceAfter state.preHopBalance
  match state.remainingOperations with
  | [] => finishRoute a s state.acquire hopOutput
  | op :: remaining => nextHop a s state.acquire hopOutput op remaining

def swapReplyId : ℕ := 1
def settlementReplyId : ℕ := 2

def reply (id : ℕ) : Except ContractError (Storage × Response) :=
  if id = swapReplyId then replySwapHop a s
  else if id = settlementReplyId then .ok ({ s with swapState := none }, .none)
  else .error (.std (.generic ("unknown reply id: " ++ toString id)))

end Replies

section Queries

variable (s : Storage)

def queryConfig : RouterConfigResponse where
  fundingVersion := fundingVersion
  settlementVersion := settlementVersion
  factory := s.factory
  lastRouteId := s.lastRouteId

def queryRouteTaxContext : Option RouteTaxContextResponse := s.swapState.map SwapState.taxContext

end Queries

end Cl8yDex.Router.Entry

/-!
## Routes

A route from the arrival of the user's tokens to its last payment. Between two calls of the router
the sent hop runs: its token takes the economic amount and the tax of the preview from the router,
the pair may pay out some of the token asked for, and anyone may call the router.
-/

namespace Cl8yDex.Router.Entry

open Outcome
open CommunityTax (RouteTransfer RouteTaxContextResponse RouterConfigResponse)

section Calls

variable {a : Answers} {s s' : Storage} {sender : Addr} {msg : ExecuteMsg} {r : Response}

/-- What a call writes while a route is in progress: the wrap mapper and nothing else. -/
theorem execute_in_progress (h : execute a s sender msg = .ok (s', r))
    (hprogress : s.swapState.isSome) : s' = { s with wrapMapper := s'.wrapMapper } := by
  cases msg with
  | executeSwapOperations => cases h
  | setWrapMapper wrapMapper =>
    obtain ⟨_, _, h⟩ := bind_eq_ok.1 h
    obtain ⟨_, _, h⟩ := bind_eq_ok.1 h
    obtain ⟨_, _, h⟩ := bind_eq_ok.1 h
    cases h
    rfl
  | receive user amount order =>
    obtain ⟨_, _, h⟩ := bind_eq_ok.1 h
    obtain ⟨_, _, h⟩ := bind_eq_ok.1 h
    obtain ⟨_, _, h⟩ := bind_eq_ok.1 h
    unfold executeSwapOperations at h
    split at h
    · cases h
    · obtain ⟨_, _, h⟩ := bind_eq_ok.1 h
      split at h
      · cases h
      · obtain ⟨_, _, h⟩ := bind_eq_ok.1 h
        obtain ⟨_, hnone, h⟩ := bind_eq_ok.1 h
        have hidle := ensure_eq_ok.1 hnone
        rw [Option.isSome_iff_ne_none] at hprogress
        exact absurd (Option.isNone_iff_eq_none.1 hidle) hprogress

/-- A call of anyone. -/
inductive Nested : Storage → Storage → Prop
  | call {a : Answers} {s s' : Storage} {sender : Addr} {msg : ExecuteMsg} {r : Response}
      (h : execute a s sender msg = .ok (s', r)) : Nested s s'

theorem nested_run (h : Relation.ReflTransGen Nested s s') (hprogress : s.swapState.isSome) :
    s' = { s with wrapMapper := s'.wrapMapper } := by
  induction h with
  | refl => rfl
  | @tail s₁ s₂ _ hcall ih =>
    have hstate : s₁.swapState = s.swapState := by rw [ih]
    cases hcall with
    | call hok =>
      have hstep := execute_in_progress hok (by rw [hstate]; exact hprogress)
      rw [hstep, ih]

end Calls

section Ledger

def Payment.token : Payment → Addr
  | transfer token _ _ => token
  | routeTransfer token _ _ _ => token
  | unwrap token _ _ _ => token

def Payment.amount : Payment → ℕ
  | transfer _ _ amount => amount
  | routeTransfer _ _ _ amount => amount
  | unwrap _ _ amount _ => amount

/-- The account that a payment credits. -/
def Payment.destination : Payment → Addr
  | transfer _ recipient _ => recipient
  | routeTransfer _ _ recipient _ => recipient
  | unwrap _ mapper _ _ => mapper

def Payment.debit (router : Addr) (held : Addr → ℕ) (p : Payment) : Addr → ℕ := fun t =>
  if t = p.token ∧ p.destination ≠ router then held t - p.amount else held t

/-- Payments one after another, each covered by what the router holds then. -/
inductive Paid (router : Addr) : (Addr → ℕ) → List Payment → (Addr → ℕ) → Prop
  | done (held : Addr → ℕ) : Paid router held [] held
  | pay {held held' : Addr → ℕ} {p : Payment} {ps : List Payment}
      (hcovered : p.amount ≤ held p.token) (h : Paid router (p.debit router held) ps held') :
      Paid router held (p :: ps) held'

/-- A payment of a transfer in the context, by slot, as an ordinary token or unwrapped. -/
inductive Pays (r : RouteTransfer) : Payment → Prop
  | ordinary : Pays r (.transfer r.token r.recipient r.amount)
  | bySlot : Pays r (.routeTransfer r.token r.slot r.recipient r.amount)
  | unwrapped (mapper : Addr) : Pays r (.unwrap r.token mapper r.amount r.recipient)

/-- What transfers owe of a token. -/
def owedOf (t : Addr) : List RouteTransfer → ℕ
  | [] => 0
  | r :: rs => (if r.token = t then r.amount else 0) + owedOf t rs

theorem owedOf_append (t : Addr) (l l' : List RouteTransfer) :
    owedOf t (l ++ l') = owedOf t l + owedOf t l' := by
  induction l with
  | nil => simp [owedOf]
  | cons r l ih =>
    rw [List.cons_append, owedOf, owedOf, ih]
    omega

variable {router : Addr} {held held' : Addr → ℕ}

theorem Pays.token {r : RouteTransfer} {p : Payment} (h : Pays r p) : p.token = r.token := by
  cases h <;> rfl

theorem Pays.amount {r : RouteTransfer} {p : Payment} (h : Pays r p) : p.amount = r.amount := by
  cases h <;> rfl

/-- Payments to others take what they owe from the router. -/
theorem Paid.balance {ps : List Payment} {rs : List RouteTransfer} (h : Paid router held ps held')
    (hpays : List.Forall₂ Pays rs ps) (hout : ∀ p ∈ ps, p.destination ≠ router) (t : Addr) :
    held t = held' t + owedOf t rs := by
  induction h generalizing rs with
  | done held =>
    cases hpays
    rfl
  | @pay held₁ held₂ p ps hcovered _ ih =>
    cases hpays with
    | cons hp hrest =>
      obtain ⟨hdest, hdests⟩ := List.forall_mem_cons.1 hout
      have hlater := ih hrest hdests
      have htoken := hp.token
      have hamount := hp.amount
      rw [owedOf]
      unfold Payment.debit at hlater
      by_cases ht : t = p.token
      · rw [if_pos ⟨ht, hdest⟩] at hlater
        rw [if_pos (by rw [ht, htoken])]
        rw [← ht] at hcovered
        omega
      · rw [if_neg fun hc => ht hc.1] at hlater
        rw [if_neg fun hc => ht (by rw [htoken, hc])]
        omega

end Ledger

section Runs

/-- The router's storage with what it holds of each token. -/
structure World where
  storage : Storage
  held : Addr → ℕ

/-- The router's own balances are answered as they are. -/
def Answers.Sees (a : Answers) (router : Addr) (held : Addr → ℕ) : Prop :=
  a.quote.router = router ∧ ∀ t amount, a.balance t router = .ok amount → amount = held t

/-- A sent hop runs. The pair pays out what it likes of the token asked for. -/
structure HopRuns (before after : World) (send : HopSend) (ask : Addr) (tax : ℕ) : Prop where
  calls : Relation.ReflTransGen Nested before.storage after.storage
  distinct : send.token ≠ ask
  covered : send.amount + tax ≤ before.held send.token
  offered : after.held send.token = before.held send.token - (send.amount + tax)
  asked : before.held ask ≤ after.held ask
  others : ∀ t, t ≠ send.token → t ≠ ask → after.held t = before.held t

/-- The funding that a hop's message was built from. -/
def FundedBy (a : Answers) (router sender : Addr) (send : HopSend) (gross : ℕ)
    (funded : RouteTaxPreviewResponse) : Prop :=
  preview (a.quote.token send.token) send.pair (some sender) (some router) gross .sell = .ok funded

structure HopRecord where
  token : Addr
  asked : Addr
  gross : ℕ
  economic : ℕ
  tax : ℕ
  residue : ℕ
  delivered : ℕ
  deriving DecidableEq

/-- What happened to a hop of a state. -/
def hopRecord (state : SwapState) (send : HopSend) (tax : ℕ) (before after : World) :
    HopRecord where
  token := send.token
  asked := state.outputToken
  gross := state.taxContext.gross
  economic := send.amount
  tax := tax
  residue := state.taxContext.gross - (send.amount + tax)
  delivered := after.held state.outputToken - before.held state.outputToken

/-- The hops of a route, the payments at its end, the context that they show, the wrap mapper that
the router had then, and what mappers answered of their fees. -/
structure Trace where
  hops : List HopRecord
  payments : List Payment
  context : RouteTaxContextResponse
  wrapMapper : Option Addr
  mapperConfig : Addr → Except StdError WrapMapperConfig

/-- The rest of a route whose hop is sent, to its close. -/
inductive RouteRun (router : Addr) : World → HopSend → ℕ → Trace → World → Prop
  | last {w w₁ : World} {send : HopSend} {tax : ℕ} {state state₂ : SwapState} {a a' : Answers}
      {s₂ s₃ s₄ : Storage} {refunds : List Payment} {output : Payment} {held : Addr → ℕ}
      {r : Response} (hstate : w.storage.swapState = some state)
      (hhop : HopRuns w w₁ send state.outputToken tax) (hsees : a.Sees router w₁.held)
      (hreply : reply a w₁.storage swapReplyId = .ok (s₂, .complete refunds output))
      (hsettled : s₂.swapState = some state₂)
      (hpaid : Paid router w₁.held (refunds ++ [output]) held)
      (hcalls : Relation.ReflTransGen Nested s₂ s₃)
      (hclose : reply a' s₃ settlementReplyId = .ok (s₄, r)) :
      RouteRun router w send tax
        ⟨[hopRecord state send tax w w₁], refunds ++ [output], state₂.taxContext,
          w₁.storage.wrapMapper, a.wrapMapperConfig⟩ ⟨s₄, held⟩
  | hop {w w₁ w' : World} {send next : HopSend} {tax : ℕ} {state : SwapState} {a : Answers}
      {s₂ : Storage} {funded : RouteTaxPreviewResponse} {trace : Trace}
      (hstate : w.storage.swapState = some state)
      (hhop : HopRuns w w₁ send state.outputToken tax) (hsees : a.Sees router w₁.held)
      (hreply : reply a w₁.storage swapReplyId = .ok (s₂, .hop next))
      (hfunded : FundedBy a router state.sender next
        (w₁.held state.outputToken - w.held state.outputToken) funded)
      (h : RouteRun router ⟨s₂, w₁.held⟩ next funded.tax trace w') :
      RouteRun router w send tax
        { trace with hops := hopRecord state send tax w w₁ :: trace.hops } w'

end Runs

end Cl8yDex.Router.Entry
