import Cl8yDex.Types

/-!
# The community-tax token

The storage of the token, what it asks the chain and its router, and how a transfer is classified:
which kind of trade it is, at which rate, and which wallet an official-router hop trades for. Maps
without an entry read as their default. Messages and query answers arrive decoded, and the
allowances are kept by the base token package, whose deduction is a parameter.
-/

namespace Cl8yDex.CommunityTax

open Outcome

inductive SinkKind
  | treasury
  | burn
  | autoLp
  | wallet
  deriving DecidableEq

structure StoredSink where
  kind : SinkKind
  addr : Option Addr
  bps : ℕ

structure Config where
  manager : Addr
  treasury : Addr
  buyBps : ℕ
  sellBps : ℕ
  transferBps : ℕ
  factory : Addr
  router : Option Addr
  autolp : Option Addr
  mintRevoked : Bool

structure Features where
  mintControl : Bool
  transferTax : Bool
  splitRouter : Bool
  launchGuards : Bool

structure LaunchGuards where
  maxWallet : Option ℕ
  cooldownBlocks : ℕ
  tradingEnabled : Bool

structure MinterData where
  minter : Addr
  cap : Option ℕ

structure TokenInfo where
  totalSupply : ℕ
  mint : Option MinterData

/-- The one replay record of the token. -/
structure SettlementConsumption where
  router : Addr
  routeId : ℕ
  slots : List ℕ
  deriving DecidableEq

structure Allowance where
  allowance : ℕ
  expires : Option ℕ

abbrev Allowances := Addr → Addr → Option Allowance

structure Storage where
  config : Config
  features : Features
  sinks : Option (List StoredSink)
  launchGuards : Option LaunchGuards
  listedPairs : Addr → Bool
  protocolExempt : Addr → Bool
  managerExempt : Addr → Bool
  lastTradeBlock : Addr → Option ℕ
  balances : Addr → ℕ
  tokenInfo : TokenInfo
  allowances : Allowances
  settlementConsumption : Option SettlementConsumption

structure RouteTransfer where
  slot : ℕ
  token : Addr
  recipient : Addr
  amount : ℕ
  deriving DecidableEq

structure RouteTaxContextResponse where
  routeId : ℕ
  fundingVersion : ℕ
  trader : Addr
  pair : Addr
  offerToken : Addr
  askToken : Addr
  gross : ℕ
  economic : ℕ
  transfers : List RouteTransfer
  originalInputRefund : Option RouteTransfer
  acquiredTokens : List Addr

structure RouterConfigResponse where
  fundingVersion : ℕ
  settlementVersion : ℕ
  factory : Addr
  lastRouteId : ℕ

structure ContractInfo where
  codeId : ℕ
  admin : Option Addr

structure Env where
  height : ℕ
  blockTime : ℕ
  contract : Addr

/-- The answers of the chain, of the queried contracts and of the base token's allowance code. -/
structure Host where
  validAddr : Addr → Bool
  routeTaxContext : Addr → Option RouteTaxContextResponse
  routerConfig : Addr → Option RouterConfigResponse
  contractInfo : Addr → Option ContractInfo
  codeChecksum : ℕ → Option (List ℕ)
  factoryGovernance : Addr → Option Addr
  deductAllowance : Allowances → Addr → Addr → Env → ℕ → Option Allowances

inductive ContractError
  | std (msg : String)
  | overflow
  | cw20
  | unauthorized
  | mintRevoked
  | mintDisabled
  | walletSinkAddr
  | insufficientForSellTax
  | routerTraderRequired
  | routeTaxContext
  | routeFundingShortfall
  | insufficientBalance
  | tradingDisabled
  | maxWallet
  | cooldown
  | panic
  deriving DecidableEq

def bpsDenom : ℕ := 10000

def fundingVersion : ℕ := 1

def settlementVersion : ℕ := 1

def maxSettlementSlots : ℕ := 5

def Host.addrValidate (host : Host) (a : Addr) : Except ContractError Addr :=
  if host.validAddr a then .ok a else .error (.std "invalid address")

/-- The decoded payload of a `Send`, as far as the token looks at it. -/
inductive HookMsg
  | swap (trader : Option Addr)
  | other
  deriving DecidableEq

inductive TaxKind
  | honest
  | buy
  | sell
  | transfer
  deriving DecidableEq

def TaxKind.isTrade : TaxKind → Bool
  | buy | sell => true
  | honest | transfer => false

/-- The product is wide; a quotient beyond the machine type aborts. -/
def taxAmount (amount bps : ℕ) : Except ContractError ℕ :=
  orThrow (checkedMultiplyRatio amount bps bpsDenom) .panic

section Roles

variable (s : Storage) (self : Addr)

def isListedPair (a : Addr) : Bool := s.listedPairs a

def isProtocolExempt (a : Addr) : Bool := a == self || isListedPair s a || s.protocolExempt a

def isManagerExempt (a : Addr) : Bool := a == s.config.manager || s.managerExempt a

def isTransferExempt (a : Addr) : Bool := isProtocolExempt s self a || isManagerExempt s a

def isManagerDirectoryTaxSkip (src dst : Addr) : Bool :=
  isManagerExempt s src || isManagerExempt s dst

def isCooldownSubject (a : Addr) : Bool := !isProtocolExempt s self a

def isOfficialRouter (c : Config) (a : Addr) : Bool := c.router == some a

def isRouteTrader (trader : Addr) : Bool :=
  !isOfficialRouter s.config trader && !isProtocolExempt s self trader

def isSwapSendHook : HookMsg → Bool
  | .swap _ => true
  | .other => false

def swapHookTrader : HookMsg → Option Addr
  | .swap trader => trader
  | .other => none

def isRouterSellHop (src dst : Addr) (sendMsg : Option HookMsg) : Bool :=
  isListedPair s dst && sendMsg.any isSwapSendHook && isOfficialRouter s.config src

def hopTraderAddr (src dst : Addr) (sendMsg : Option HookMsg) : Option Addr :=
  if !isRouterSellHop s src dst sendMsg then none
  else (sendMsg.bind swapHookTrader).filter (isRouteTrader s self)

/-- The economic kind of a movement, before any exemption of the manager or its directory. -/
def classifyTrade (src dst : Addr) (sendMsg : Option HookMsg) : TaxKind × ℕ :=
  if isListedPair s dst then
    if sendMsg.any isSwapSendHook &&
        (!isProtocolExempt s self src || isOfficialRouter s.config src) then
      (.sell, s.config.sellBps)
    else (.honest, 0)
  else if isListedPair s src && !isProtocolExempt s self dst then (.buy, s.config.buyBps)
  else if isOfficialRouter s.config src && !isProtocolExempt s self dst then
    (.buy, s.config.buyBps)
  else if s.features.transferTax && decide (0 < s.config.transferBps) &&
      !isTransferExempt s self src && !isTransferExempt s self dst then
    (.transfer, s.config.transferBps)
  else (.honest, 0)

def applyManagerDirectoryTaxSkip (src dst : Addr) (hopTrader : Option Addr)
    (trade : TaxKind × ℕ) : TaxKind × ℕ :=
  if trade.1 ≠ .honest ∧ (isManagerDirectoryTaxSkip s src dst ||
      hopTrader.any (isManagerExempt s)) then (.honest, 0)
  else trade

/-- A movement of an authenticated hop is exempt by its trader, any other one by its ends. -/
def exemptTrade (src dst : Addr) (hop : Option Addr) (trade : TaxKind × ℕ) : TaxKind × ℕ :=
  match hop with
  | some trader => if isManagerExempt s trader then (.honest, 0) else trade
  | none => applyManagerDirectoryTaxSkip s src dst none trade

def classify (src dst : Addr) (sendMsg : Option HookMsg) : TaxKind × ℕ :=
  exemptTrade s src dst (hopTraderAddr s self src dst sendMsg)
    (classifyTrade s self src dst sendMsg)

end Roles

/-- What leaves the owner and what reaches the receiver. A sell is charged on top. -/
def debitCredit (kind : TaxKind) (amount tax : ℕ) : Except ContractError (ℕ × ℕ) :=
  match kind with
  | .sell => do
      let debit ← orThrow (checkedAdd amount tax) .overflow
      return (debit, amount)
  | .buy | .transfer => do
      let credit ← orThrow (checkedSub amount tax) .overflow
      return (amount, credit)
  | .honest => return (amount, amount)

/-- The debit that a `SendFrom` deducts from the allowance. -/
def previewDebit (s : Storage) (self src dst : Addr) (amount : ℕ) (sendMsg : Option HookMsg) :
    Except ContractError ℕ := do
  let trade := classify s self src dst sendMsg
  let tax ← taxAmount amount trade.2
  let moved ← debitCredit trade.1 amount tax
  return moved.1

def routeContext (host : Host) (config : Config) :
    Except ContractError RouteTaxContextResponse := do
  let router ← orThrow config.router .routeTaxContext
  let ctx ← orThrow (host.routeTaxContext router) .routeTaxContext
  ensure (ctx.fundingVersion = fundingVersion ∧ ctx.routeId ≠ 0) .routeTaxContext
  return ctx

/-- A transfer as the token sees it: the economic trade, the trade that is charged, the wallet a
router hop trades for, and whether this route has already passed the launch guards for it. -/
structure Classified where
  trade : TaxKind × ℕ
  charged : TaxKind × ℕ
  hop : Option Addr
  alreadyChecked : Bool

section Hop

variable (s : Storage) (host : Host) (self src dst : Addr) (amount : ℕ)

def requireHopTrader (sendMsg : Option HookMsg) : Except ContractError (Option Addr) :=
  if isRouterSellHop s src dst sendMsg then do
    let trader ← orThrow (hopTraderAddr s self src dst sendMsg) .routerTraderRequired
    return some trader
  else return none

/-- The hop must be the one that the router has live, and its budget must cover the tax. -/
def checkSellContext (trader : Addr) : Except ContractError Bool := do
  let ctx ← routeContext host s.config
  ensure (ctx.trader = trader ∧ ctx.pair = dst ∧ ctx.offerToken = self ∧ ctx.economic = amount)
    .routeTaxContext
  let tax ← taxAmount amount (if isManagerExempt s trader then 0 else s.config.sellBps)
  let debit ← orThrow (checkedAdd amount tax) .overflow
  ensure (debit ≤ ctx.gross) .routeTaxContext
  return ctx.acquiredTokens.contains self

/-- The wallet behind a bought amount that a listed pair sends to the router. -/
def routedBuy : Except ContractError (Option Addr) :=
  if isListedPair s src && isOfficialRouter s.config dst then
    match routeContext host s.config with
    | .error _ => .ok none
    | .ok ctx =>
        if ctx.pair = src ∧ ctx.askToken = self then
          if isRouteTrader s self ctx.trader then .ok (some ctx.trader)
          else .error .routerTraderRequired
        else .ok none
  else .ok none

def checkHop (hop : Option Addr) : Except ContractError Bool :=
  match hop with
  | some trader => checkSellContext s host self dst amount trader
  | none => .ok false

def classifyTransfer (sendMsg : Option HookMsg) : Except ContractError Classified := do
  let sold ← requireHopTrader s self src dst sendMsg
  let alreadyChecked ← checkHop s host self dst amount sold
  let bought ← routedBuy s host self src dst
  let trade := match bought with
    | some _ => (TaxKind.buy, s.config.buyBps)
    | none => classifyTrade s self src dst sendMsg
  let hop := bought <|> sold
  return ⟨trade, exemptTrade s src dst hop trade, hop, alreadyChecked⟩

end Hop

end Cl8yDex.CommunityTax
