import Cl8yDex.CommunityToken

/-!
# Taxed transfers

The launch guards a transfer must pass, the sinks its tax is shared among, and the writes to the
balances and to the supply.
-/

namespace Cl8yDex.CommunityTax

open Outcome

section Guards

variable (s : Storage) (env : Env)

def checkCooldown (guards : LaunchGuards) (wallet : Addr) : Except ContractError Unit :=
  if guards.cooldownBlocks = 0 then .ok ()
  else if !isCooldownSubject s env.contract wallet then .ok ()
  else
    match s.lastTradeBlock wallet with
    | none => .ok ()
    | some last => ensure (min (last + guards.cooldownBlocks) u64Max ≤ env.height) .cooldown

def checkTrader (guards : LaunchGuards) (hopTrader : Option Addr) : Except ContractError Unit :=
  match hopTrader with
  | some trader => checkCooldown s env guards trader
  | none => .ok ()

def checkTrading (guards : LaunchGuards) (src dst : Addr) (hopTrader : Option Addr)
    (kind : TaxKind) : Except ContractError Unit :=
  if kind.isTrade then do
    ensure (guards.tradingEnabled = true) .tradingDisabled
    checkCooldown s env guards src
    checkCooldown s env guards dst
    checkTrader s env guards hopTrader
  else .ok ()

def applyLaunchGuards (src dst : Addr) (hopTrader : Option Addr) (kind : TaxKind)
    (creditTo toNewBalance : ℕ) (restoreOwnedInput : Bool) : Except ContractError Unit :=
  if !s.features.launchGuards then .ok ()
  else
    match s.launchGuards with
    | none => .ok ()
    | some guards => do
        checkTrading s env guards src dst hopTrader kind
        match guards.maxWallet with
        | none => .ok ()
        | some cap =>
            ensure (¬(!restoreOwnedInput ∧ !isProtocolExempt s env.contract dst ∧
              toNewBalance ≠ 0 ∧ cap < toNewBalance ∧ 0 < creditTo)) .maxWallet

/-- The wallets whose last trade a block is recorded for. -/
def tradedWallets (src dst : Addr) (hopTrader : Option Addr) : List Addr :=
  ([src, dst] ++ hopTrader.toList).filter (isCooldownSubject s env.contract)

def recordTradeBlocks (kind : TaxKind) (src dst : Addr) (hopTrader : Option Addr) :
    Addr → Option ℕ :=
  if s.features.launchGuards && kind.isTrade then
    fun a => if a ∈ tradedWallets s env src dst hopTrader then some env.height
      else s.lastTradeBlock a
  else s.lastTradeBlock

end Guards

/-- One sink's share; a burned share has no address. -/
structure SinkCredit where
  addr : Addr
  share : ℕ
  burn : Bool
  deriving DecidableEq

def sinkAddr (config : Config) (sink : StoredSink) : Except ContractError (Addr × Bool) :=
  match sink.kind with
  | .treasury => return (config.treasury, false)
  | .burn => return (0, true)
  | .autoLp => do
      let a ← orThrow config.autolp (.std "AutoLP sink but autolp unset")
      return (a, false)
  | .wallet => do
      let a ← orThrow sink.addr .walletSinkAddr
      return (a, false)

/-- The last sink takes what the others left. -/
def sinkShare (last : Bool) (tax allocated bps : ℕ) : Except ContractError ℕ :=
  if last then orThrow (checkedSub tax allocated) .overflow else taxAmount tax bps

def splitFrom (config : Config) (tax : ℕ) : ℕ → List StoredSink →
    Except ContractError (List SinkCredit)
  | _, [] => return []
  | allocated, sink :: sinks => do
      let share ← sinkShare sinks.isEmpty tax allocated sink.bps
      let allocated ← orThrow (checkedAdd allocated share) .overflow
      if share = 0 then splitFrom config tax allocated sinks
      else do
        let target ← sinkAddr config sink
        let rest ← splitFrom config tax allocated sinks
        return ⟨target.1, share, target.2⟩ :: rest

def splitTax (sinks : List StoredSink) (config : Config) (tax : ℕ) :
    Except ContractError (List SinkCredit) :=
  splitFrom config tax 0 sinks

def sinkCredits (s : Storage) (tax : ℕ) : Except ContractError (List SinkCredit) :=
  if tax = 0 then .ok []
  else
    match s.sinks with
    | some (sink :: sinks) =>
        if s.features.splitRouter then splitTax (sink :: sinks) s.config tax
        else .ok [⟨s.config.treasury, tax, false⟩]
    | _ => .ok [⟨s.config.treasury, tax, false⟩]

def addBalance (balances : Addr → ℕ) (a : Addr) (amount : ℕ) :
    Except ContractError (Addr → ℕ) := do
  let sum ← orThrow (checkedAdd (balances a) amount) .overflow
  return Function.update balances a sum

def subBalance (balances : Addr → ℕ) (a : Addr) (amount : ℕ) :
    Except ContractError (Addr → ℕ) := do
  let left ← orThrow (checkedSub (balances a) amount) .insufficientBalance
  return Function.update balances a left

def creditSink (acc : (Addr → ℕ) × ℕ) (c : SinkCredit) :
    Except ContractError ((Addr → ℕ) × ℕ) :=
  if c.burn then do
    let burned ← orThrow (checkedAdd acc.2 c.share) .overflow
    return (acc.1, burned)
  else do
    let balances ← addBalance acc.1 c.addr c.share
    return (balances, acc.2)

def creditSinks (balances : Addr → ℕ) (credits : List SinkCredit) :
    Except ContractError ((Addr → ℕ) × ℕ) :=
  credits.foldlM creditSink (balances, 0)

def burnSupply (info : TokenInfo) (burned : ℕ) : Except ContractError TokenInfo :=
  if burned = 0 then .ok info
  else do
    let supply ← orThrow (checkedSub info.totalSupply burned) .overflow
    return { info with totalSupply := supply }

/-- The attributes of a transfer. -/
structure TransferReport where
  src : Addr
  dst : Addr
  amount : ℕ
  declared : ℕ
  debit : ℕ
  tax : ℕ
  kind : TaxKind
  hopTrader : Option Addr
  routeFunded : Bool
  sinks : List SinkCredit

def debitError (kind : TaxKind) (routerSell : Bool) : ContractError :=
  if routerSell then .routeFundingShortfall
  else if kind = .sell then .insufficientForSellTax
  else .insufficientBalance

/-- A route may not pay its own tax back to the router or to a listed pair. -/
def checkRouteSinks (s : Storage) (hop : Option Addr) (credits : List SinkCredit) :
    Except ContractError Unit :=
  ensure (¬(hop.isSome ∧ credits.any fun c => !c.burn && c.share != 0 &&
    (s.config.router == some c.addr || isListedPair s c.addr))) .routeTaxContext

/-- Both new balances are computed before either is written; the receiver's is then written by
increment, on top of the owner's debit. -/
def applyTransfer (s : Storage) (host : Host) (env : Env) (src dst : Addr) (amount : ℕ)
    (sendMsg : Option HookMsg) : Except ContractError (Storage × TransferReport) := do
  let c ← classifyTransfer s host env.contract src dst amount sendMsg
  let tax ← taxAmount amount c.charged.2
  let routerSell := decide (c.charged.1 = .sell) && isOfficialRouter s.config src
  let moved ← debitCredit c.charged.1 amount tax
  let fromBalAfter ← orThrow (checkedSub (s.balances src) moved.1)
    (debitError c.charged.1 routerSell)
  let toBalAfter ← orThrow (checkedAdd (s.balances dst) moved.2) .overflow
  applyLaunchGuards s env src dst (if c.alreadyChecked then none else c.hop) c.trade.1 moved.2
    toBalAfter false
  let balances ← addBalance (Function.update s.balances src fromBalAfter) dst moved.2
  let credits ← sinkCredits s tax
  checkRouteSinks s c.hop credits
  let paid ← creditSinks balances credits
  let info ← burnSupply s.tokenInfo paid.2
  return ({ s with
      balances := paid.1
      tokenInfo := info
      lastTradeBlock := recordTradeBlocks s env c.trade.1 src dst c.hop },
    ⟨src, dst, moved.2, amount, moved.1, tax, c.charged.1, c.hop,
      c.hop.isSome && routerSell && tax != 0, credits⟩)

def burnTokens (s : Storage) (owner : Addr) (amount : ℕ) : Except ContractError Storage := do
  let balances ← subBalance s.balances owner amount
  let supply ← orThrow (checkedSub s.tokenInfo.totalSupply amount) .overflow
  return { s with balances := balances, tokenInfo := { s.tokenInfo with totalSupply := supply } }

end Cl8yDex.CommunityTax
