import Cl8yDex.BridgeReceipt
import Mathlib.Data.List.Sort

/-!
# The bridge-debt issuer

The owner registers a market for a bridged token and its receipt, sets limits on what may be
issued, and issues: the token to a recipient and the same amount of receipt to the debtor. A repay
burns both. Every issue and repay first checks that both tokens are still what was pinned and that
the receipt agrees with the record.
-/

namespace Cl8yDex.BridgeDebt

open Outcome

structure Config where
  owner : Addr
  debtCodeId : Option ℕ
  pendingOwner : Option Addr

structure MarketPins where
  debtCodeId : ℕ
  underlyingCodeId : ℕ
  multiMinter : Bool
  minter : Addr
  minterCap : Option ℕ
  additionalMinters : List Addr
  deriving DecidableEq

structure IssuanceLimits where
  maxPerIssue : ℕ
  maxOutstanding : ℕ
  epochSeconds : ℕ
  maxPerEpoch : ℕ

structure UpgradePins where
  underlyingSupply : ℕ
  debtCodeId : ℕ
  underlyingCodeId : ℕ

structure Market where
  underlying : Addr
  debtToken : Addr
  debtor : Addr
  decimals : ℕ
  outstanding : ℕ
  pins : Option MarketPins
  limits : Option IssuanceLimits
  paused : Bool
  epoch : ℕ
  epochIssued : ℕ
  pendingUpgrade : Option UpgradePins

structure UnderlyingPolicy where
  multiMinter : Bool

structure Storage where
  config : Config
  markets : Addr → Option Market
  debtTokens : Addr → Bool
  underlyingCodes : ℕ → Option UnderlyingPolicy

structure Env where
  blockTime : ℕ
  contract : Addr

structure TokenInfoResponse where
  decimals : ℕ
  totalSupply : ℕ

structure MinterResponse where
  minter : Addr
  cap : Option ℕ

/-- The answers of the chain and of the queried tokens; `none` is a failed query. -/
structure Querier where
  validAddr : Addr → Bool
  codeId : Addr → Option ℕ
  tokenInfo : Addr → Option TokenInfoResponse
  minter : Addr → Option MinterResponse
  minters : Addr → Option Addr → ℕ → Option (List Addr)
  debtor : Addr → Option Addr
  receiptMinters : Addr → Option (List Addr)
  balance : Addr → Addr → Option ℕ

inductive ContractError
  | std (msg : String)
  | unapprovedImplementation
  | underlyingMinterMismatch
  | issuanceDisabled
  | invalidLimits
  | issuanceLimit
  | noPendingUpgrade
  | unauthorized
  | unexpectedFunds
  | zeroAmount
  | debtCodeUnset
  | unexpectedDebtCode
  | marketExists
  | unknownMarket
  | debtTokenInUse
  | invalidMarket
  | invalidUnderlying
  | notDebtToken
  | decimalsMismatch
  | debtSupplyNotZero
  | debtSupplyDiverged
  | debtMinterMismatch
  | debtorMismatch
  | invalidDebtor
  | additionalMinters
  | invalidHook
  | repayExceedsDebt
  | overflow
  deriving DecidableEq

def queryErr : ContractError := .std "Querier error"

section Inspection

variable (q : Querier) (env : Env)

def addrValidate (a : Addr) : Except ContractError Addr :=
  if q.validAddr a then .ok a else .error (.std "invalid address")

def contractCode (a : Addr) : Except ContractError ℕ := orThrow (q.codeId a) queryErr

def underlyingDecimals (underlying : Addr) : Except ContractError ℕ := do
  let info ← orThrow (q.tokenInfo underlying) .invalidUnderlying
  ensure (info.decimals ≤ 18) .invalidUnderlying
  return info.decimals

/-- A full page must be the last one. -/
def checkInventory (underlying : Addr) (listed : List Addr) : Except ContractError Unit := do
  ensure (listed.length ≤ 30) .underlyingMinterMismatch
  if listed.length = 30 then do
    let next ← orThrow (q.minters underlying listed.getLast? 1) .underlyingMinterMismatch
    ensure (next = []) .underlyingMinterMismatch
  else return ()

def listedMinters (underlying : Addr) (multiMinter : Bool) :
    Except ContractError (List Addr) :=
  if multiMinter then do
    let listed ← orThrow (q.minters underlying none 30) .underlyingMinterMismatch
    checkInventory q underlying listed
    listed.mapM (addrValidate q)
  else return []

def inspectUnderlying (underlying : Addr) (debtCodeId underlyingCodeId : ℕ)
    (multiMinter : Bool) : Except ContractError MarketPins := do
  let code ← contractCode q underlying
  ensure (code = underlyingCodeId) .unapprovedImplementation
  let _ ← underlyingDecimals q underlying
  let minter ← orThrow (q.minter underlying) .underlyingMinterMismatch
  let primary ← addrValidate q minter.minter
  let listed ← listedMinters q underlying multiMinter
  let additional := listed.mergeSort
  ensure (additional.Nodup ∧ (primary = env.contract ∨ env.contract ∈ additional))
    .underlyingMinterMismatch
  return ⟨debtCodeId, underlyingCodeId, multiMinter, primary, minter.cap, additional⟩

structure DebtView where
  debtor : Addr
  decimals : ℕ
  totalSupply : ℕ

def inspectDebtToken (debtToken : Addr) (allowed : ℕ) : Except ContractError DebtView := do
  let code ← contractCode q debtToken
  ensure (code = allowed) .unexpectedDebtCode
  let info ← orThrow (q.tokenInfo debtToken) .notDebtToken
  let minter ← orThrow (q.minter debtToken) .debtMinterMismatch
  let minter ← addrValidate q minter.minter
  ensure (minter = env.contract) .debtMinterMismatch
  let debtor ← orThrow (q.debtor debtToken) .notDebtToken
  let debtor ← addrValidate q debtor
  let listed ← orThrow (q.receiptMinters debtToken) .notDebtToken
  ensure (listed = []) .additionalMinters
  return ⟨debtor, info.decimals, info.totalSupply⟩

def assertMarketConsistent (market : Market) : Except ContractError Unit := do
  let pins ← orThrow market.pins .unapprovedImplementation
  let debt ← inspectDebtToken q env market.debtToken pins.debtCodeId
  let current ← inspectUnderlying q env market.underlying pins.debtCodeId pins.underlyingCodeId
    pins.multiMinter
  ensure (current = pins) .underlyingMinterMismatch
  let balance ← orThrow (q.balance market.debtToken market.debtor) queryErr
  ensure (balance = market.outstanding) .debtSupplyDiverged
  ensure (debt.debtor = market.debtor) .debtorMismatch
  ensure (debt.decimals = market.decimals) .decimalsMismatch
  ensure (debt.totalSupply = market.outstanding) .debtSupplyDiverged
  let decimals ← underlyingDecimals q market.underlying
  ensure (decimals = market.decimals) .decimalsMismatch

end Inspection

section Handlers

variable (s : Storage) (q : Querier) (env : Env) (info : MessageInfo)

def mustOwner : Except ContractError Unit := ensure (info.sender = s.config.owner) .unauthorized

def loadMarket (underlying : Addr) : Except ContractError Market :=
  orThrow (s.markets underlying) .unknownMarket

def saveMarket (underlying : Addr) (market : Market) : Storage :=
  { s with markets := Function.update s.markets underlying (some market) }

def executeSetDebtCodeId (codeId : ℕ) : Except ContractError Storage := do
  ensure (codeId ≠ 0) .unexpectedDebtCode
  mustOwner s info
  return { s with config := { s.config with debtCodeId := some codeId } }

def approveUnderlying (codeId : ℕ) (multiMinter : Bool) : Except ContractError Storage := do
  mustOwner s info
  ensure (codeId ≠ 0) .unapprovedImplementation
  return { s with
    underlyingCodes := Function.update s.underlyingCodes codeId (some ⟨multiMinter⟩) }

def executeRegisterMarket (underlying debtToken : Addr) : Except ContractError Storage := do
  mustOwner s info
  let underlying ← addrValidate q underlying
  let debtToken ← addrValidate q debtToken
  ensure (¬(underlying = debtToken ∨ underlying = env.contract ∨ debtToken = env.contract))
    .invalidMarket
  ensure ((s.markets underlying).isNone) .marketExists
  ensure (s.debtTokens debtToken = false) .debtTokenInUse
  let debtCodeId ← orThrow s.config.debtCodeId .debtCodeUnset
  let debt ← inspectDebtToken q env debtToken debtCodeId
  let underlyingCodeId ← contractCode q underlying
  let policy ← orThrow (s.underlyingCodes underlyingCodeId) .unapprovedImplementation
  let pins ← inspectUnderlying q env underlying debtCodeId underlyingCodeId policy.multiMinter
  let decimals ← underlyingDecimals q underlying
  ensure (debt.decimals = decimals) .decimalsMismatch
  ensure (debt.totalSupply = 0) .debtSupplyNotZero
  ensure (¬(debt.debtor = env.contract ∨ debt.debtor = debtToken)) .invalidDebtor
  return { saveMarket s underlying
      ⟨underlying, debtToken, debt.debtor, decimals, 0, some pins, none, false, 0, 0, none⟩ with
    debtTokens := Function.update s.debtTokens debtToken true }

def configureMarket (underlying : Addr) (limits : IssuanceLimits) (paused : Bool) :
    Except ContractError Storage := do
  mustOwner s info
  let underlying ← addrValidate q underlying
  let market ← loadMarket s underlying
  ensure (¬(limits.epochSeconds = 0 ∨ limits.maxPerIssue = 0 ∨ limits.maxOutstanding = 0 ∨
    limits.maxPerEpoch = 0 ∨ ∃ old ∈ market.limits, old.epochSeconds ≠ limits.epochSeconds))
    .invalidLimits
  -- the first configuration starts the epochs; a later one never refunds consumed quota
  let epoch := if market.limits.isNone then env.blockTime / limits.epochSeconds else market.epoch
  return saveMarket s underlying { market with
    limits := some limits, paused := paused, epoch := epoch }

/-- The market with a new epoch begun when the block is past the stored one. -/
def rollEpoch (market : Market) (epoch : ℕ) : Market :=
  if market.epoch < epoch then { market with epoch := epoch, epochIssued := 0 } else market

def consumeLimit (market : Market) (amount : ℕ) : Except ContractError Market := do
  let limits ← orThrow market.limits .issuanceDisabled
  ensure (market.paused = false ∧ market.pendingUpgrade.isNone) .issuanceDisabled
  let epoch := env.blockTime / limits.epochSeconds
  ensure (market.epoch ≤ epoch) .invalidLimits
  let rolled := rollEpoch market epoch
  let issued ← orThrow (checkedAdd rolled.epochIssued amount) .overflow
  let outstanding ← orThrow (checkedAdd market.outstanding amount) .overflow
  ensure (amount ≤ limits.maxPerIssue ∧ issued ≤ limits.maxPerEpoch ∧
    outstanding ≤ limits.maxOutstanding) .issuanceLimit
  return { rolled with epochIssued := issued }

/-- What the issuer asks of a token. -/
structure WasmMsg where
  contract : Addr
  msg : TokenMsg

def executeIssue (underlying recipient : Addr) (amount : ℕ) :
    Except ContractError (Storage × List WasmMsg) := do
  mustOwner s info
  ensure (amount ≠ 0) .zeroAmount
  let underlying ← addrValidate q underlying
  let recipient ← addrValidate q recipient
  let market ← loadMarket s underlying
  assertMarketConsistent q env market
  let market ← consumeLimit env market amount
  let outstanding ← orThrow (checkedAdd market.outstanding amount) .overflow
  let market := { market with outstanding := outstanding }
  return (saveMarket s underlying market,
    [⟨market.underlying, .mint recipient amount⟩, ⟨market.debtToken, .mint market.debtor amount⟩])

/-- A proposed upgrade expects the supply that is left after the burn. -/
def repaidUpgrade (pending : Option UpgradePins) (amount : ℕ) :
    Except ContractError (Option UpgradePins) :=
  match pending with
  | none => return none
  | some pending => do
      let supply ← orThrow (checkedSub pending.underlyingSupply amount) .debtSupplyDiverged
      return some { pending with underlyingSupply := supply }

/-- The decoded hook of a `Send` to the issuer. -/
inductive Cw20HookMsg
  | repay
  | invalid
  deriving DecidableEq

def executeReceive (amount : ℕ) (hook : Cw20HookMsg) :
    Except ContractError (Storage × List WasmMsg) := do
  ensure (hook = .repay) .invalidHook
  ensure (amount ≠ 0) .zeroAmount
  let market ← loadMarket s info.sender
  assertMarketConsistent q env market
  ensure (amount ≤ market.outstanding) .repayExceedsDebt
  let pending ← repaidUpgrade market.pendingUpgrade amount
  let market := { market with
    outstanding := market.outstanding - amount, pendingUpgrade := pending }
  return (saveMarket s info.sender market,
    [⟨market.underlying, .burn amount⟩, ⟨market.debtToken, .burnFrom market.debtor amount⟩])

def executeRecover (underlying recipient : Addr) (amount : ℕ) :
    Except ContractError (Storage × List WasmMsg) := do
  mustOwner s info
  ensure (amount ≠ 0) .zeroAmount
  let underlying ← addrValidate q underlying
  let recipient ← addrValidate q recipient
  let market ← loadMarket s underlying
  assertMarketConsistent q env market
  return (s, [⟨market.underlying, .transfer recipient amount⟩])

def proposeUpgrade (underlying : Addr) (debtCodeId underlyingCodeId : ℕ) :
    Except ContractError Storage := do
  mustOwner s info
  let underlying ← addrValidate q underlying
  let market ← loadMarket s underlying
  assertMarketConsistent q env market
  ensure (debtCodeId ≠ 0 ∧ (s.underlyingCodes underlyingCodeId).isSome) .unapprovedImplementation
  let token ← orThrow (q.tokenInfo underlying) queryErr
  return saveMarket s underlying { market with
    pendingUpgrade := some ⟨token.totalSupply, debtCodeId, underlyingCodeId⟩ }

def acceptUpgrade (underlying : Addr) : Except ContractError Storage := do
  mustOwner s info
  let underlying ← addrValidate q underlying
  let market ← loadMarket s underlying
  let pending ← orThrow market.pendingUpgrade .noPendingUpgrade
  let pins ← orThrow market.pins .unapprovedImplementation
  let policy ← orThrow (s.underlyingCodes pending.underlyingCodeId) (.std "not found")
  ensure (policy.multiMinter = pins.multiMinter) .underlyingMinterMismatch
  let token ← orThrow (q.tokenInfo underlying) queryErr
  ensure (token.totalSupply = pending.underlyingSupply) .debtSupplyDiverged
  let market := { market with pins := some { pins with
    debtCodeId := pending.debtCodeId, underlyingCodeId := pending.underlyingCodeId } }
  assertMarketConsistent q env market
  return saveMarket s underlying { market with pendingUpgrade := none }

def cancelUpgrade (underlying : Addr) : Except ContractError Storage := do
  mustOwner s info
  let underlying ← addrValidate q underlying
  let market ← loadMarket s underlying
  return saveMarket s underlying { market with pendingUpgrade := none }

def acceptOwner : Except ContractError Storage := do
  ensure (s.config.pendingOwner = some info.sender) .unauthorized
  return { s with config := { s.config with owner := info.sender, pendingOwner := none } }

def cancelOwner : Except ContractError Storage := do
  mustOwner s info
  return { s with config := { s.config with pendingOwner := none } }

def executeUpdateOwner (owner : Addr) : Except ContractError Storage := do
  mustOwner s info
  let owner ← addrValidate q owner
  return { s with config := { s.config with pendingOwner := some owner } }

inductive ExecuteMsg
  | approveUnderlyingCode (codeId : ℕ) (multiMinter : Bool)
  | configureMarket (underlying : Addr) (limits : IssuanceLimits) (paused : Bool)
  | proposeMarketUpgrade (underlying : Addr) (debtCodeId underlyingCodeId : ℕ)
  | acceptMarketUpgrade (underlying : Addr)
  | cancelMarketUpgrade (underlying : Addr)
  | acceptOwner
  | cancelOwnerTransfer
  | setDebtCodeId (codeId : ℕ)
  | registerMarket (underlying debtToken : Addr)
  | issue (underlying recipient : Addr) (amount : ℕ)
  | receive (payer : Addr) (amount : ℕ) (hook : Cw20HookMsg)
  | recover (underlying recipient : Addr) (amount : ℕ)
  | updateOwner (owner : Addr)

def quietly (x : Except ContractError Storage) : Except ContractError (Storage × List WasmMsg) := do
  let s ← x
  return (s, [])

def execute (msg : ExecuteMsg) : Except ContractError (Storage × List WasmMsg) := do
  ensure (info.funds = []) .unexpectedFunds
  match msg with
  | .approveUnderlyingCode codeId multiMinter =>
      quietly (approveUnderlying s info codeId multiMinter)
  | .configureMarket underlying limits paused =>
      quietly (configureMarket s q env info underlying limits paused)
  | .proposeMarketUpgrade underlying debtCodeId underlyingCodeId =>
      quietly (proposeUpgrade s q env info underlying debtCodeId underlyingCodeId)
  | .acceptMarketUpgrade underlying => quietly (acceptUpgrade s q env info underlying)
  | .cancelMarketUpgrade underlying => quietly (cancelUpgrade s q info underlying)
  | .acceptOwner => quietly (acceptOwner s info)
  | .cancelOwnerTransfer => quietly (cancelOwner s info)
  | .setDebtCodeId codeId => quietly (executeSetDebtCodeId s info codeId)
  | .registerMarket underlying debtToken =>
      quietly (executeRegisterMarket s q env info underlying debtToken)
  | .issue underlying recipient amount => executeIssue s q env info underlying recipient amount
  | .receive _ amount hook => executeReceive s q env info amount hook
  | .recover underlying recipient amount =>
      executeRecover s q env info underlying recipient amount
  | .updateOwner owner => quietly (executeUpdateOwner s q info owner)

end Handlers

end Cl8yDex.BridgeDebt
