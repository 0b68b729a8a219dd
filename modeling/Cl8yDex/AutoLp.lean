import Cl8yDex.Execute

/-!
# The liquidity contract of a community token

It collects the tax of the token. Anyone may ask it to skim: half of its balance is sold to the
pair, and the other half is provided as liquidity together with what the sale returned. When the
manager binds a pair, the reserves and the LP supply of that moment are stored; a skim compares
the pool with them, and takes its minimum return and its minimum of LP tokens from them.
-/

namespace Cl8yDex.AutoLp

open Outcome

inductive ContractError
  | std (err : StdError)
  /-- A generic error with the text of the failed library operation. -/
  | math
  | unauthorized
  | reentrancy
  | routerNotSet
  | lpPolicyMissing
  | invalidLpPool
  | staleLpPolicy
  | insufficientLp
  | missingLiquidityLeg
  | pairNotListed
  | skimSpreadTooWide
  /-- `Decimal::one() - tolerance` panics above one. -/
  | abort
  deriving DecidableEq

structure Config where
  token : Addr
  manager : Addr
  factory : Addr
  router : Option Addr
  pair : Option Addr
  quoteToken : Option Addr
  threshold : ℕ
  lpRecipient : Addr
  skimMaxSpread : Decimal
  skimMinReturn : Option ℕ
  deriving DecidableEq

/-- The economic anchor: what a pair held when the manager bound it. -/
structure LpPolicy where
  pair : Addr
  quote : Addr
  lpToken : Addr
  taxReserve : ℕ
  quoteReserve : ℕ
  totalShare : ℕ
  deriving DecidableEq

structure PendingSkim where
  pair : Addr
  token : Addr
  quote : Addr
  lpToken : Addr
  recipient : Addr
  lpBefore : ℕ
  minLp : ℕ
  tolerance : Decimal
  deriving DecidableEq

structure Storage where
  config : Config
  skimming : Bool
  lpPolicy : Option LpPolicy
  pendingSkim : Option PendingSkim
  deriving DecidableEq

/-- The answer to `Pair {}`. -/
structure PairAnswer where
  assetInfos : AssetInfo × AssetInfo
  contractAddr : Addr
  liquidityToken : Addr

structure PoolResponse where
  assets : Asset × Asset
  totalShare : ℕ

/-- The answers of the chain, of the token contracts, of the pairs and of the factory. -/
structure Deps where
  validAddr : Addr → Bool
  balance : Addr → Addr → Option ℕ
  pair : Addr → Option PairAnswer
  pool : Addr → Option PoolResponse
  factoryPair : Addr → AssetInfo × AssetInfo → Option PairAnswer

inductive Msg
  | send (token contract : Addr) (amount : ℕ) (msg : Cw20HookMsg)
  | increaseAllowance (token spender : Addr) (amount : ℕ)
  | provideLiquidity (pair : Addr) (assets : Asset × Asset) (slippageTolerance : Option Decimal)
      (receiver : Option Addr) (deadline : Option ℕ)
  | registerListedPair (token pair : Addr)

inductive Attributes
  | instantiate
  | updateConfig
  | belowThreshold (balance : ℕ)
  | zeroHalf
  | skimToLp (half minReturn minLp : ℕ) (maxSpread : Decimal)
  | skimReplyProvide (tokenIn quoteIn : ℕ)
  | skimComplete (lpMinted minLp : ℕ)
  | migrate
  deriving DecidableEq

/-- The messages with the id of the reply that each asks for on success. -/
structure Response where
  messages : List (Msg × Option ℕ)
  attributes : Attributes

def replySwap : ℕ := 1
def replyProvide : ℕ := 2

def queryErr : ContractError := .std (.genericErr "Querier contract error")

def Deps.addrValidate (deps : Deps) (a : Addr) : Except ContractError Addr :=
  if deps.validAddr a then .ok a else .error (.std (.genericErr "invalid address"))

/-! ## The spread and the minima -/

def bpsToDecimal (bps : ℕ) : Decimal := ⟨bps * Decimal.fractional / 10000⟩

def defaultSkimMaxSpread : Decimal := bpsToDecimal 100

def maxSkimMaxSpread : Decimal := bpsToDecimal 200

def clampSkimMaxSpread (spread : Decimal) : Except ContractError Decimal := do
  ensure (spread ≤ maxSkimMaxSpread) .skimSpreadTooWide
  return spread

/-- The floor of the ratio, of which the tolerance retains a part, rounded up. -/
def minimumFor (amount numerator denominator : ℕ) (tolerance : Decimal) :
    Except ContractError ℕ := do
  let expected ← orThrow (checkedMultiplyRatio amount numerator denominator) .math
  ensure (tolerance ≤ Decimal.one) .abort
  let retained ← orThrow
    (checkedMul256 expected (Decimal.one.atomics - tolerance.atomics)) .math
  let raised ← orThrow (checkedAdd256 retained (Decimal.one.atomics - 1)) .math
  let rounded := raised / Decimal.one.atomics
  ensure (rounded ≤ u128Max) .math
  return max rounded 1

/-! ## The pair and its anchor -/

def poolReserves (pool : PoolResponse) (token quote : Addr) : Except ContractError (ℕ × ℕ) :=
  let (a, b) := pool.assets
  if a.info = .token token ∧ b.info = .token quote then .ok (a.amount, b.amount)
  else if a.info = .token quote ∧ b.info = .token token then .ok (b.amount, a.amount)
  else .error .invalidLpPool

def capturePolicy (deps : Deps) (pair token : Addr) :
    Option Addr → Except ContractError (Option LpPolicy)
  | none => .ok none
  | some quote => do
      let info ← orThrow (deps.pair pair) queryErr
      let pool ← orThrow (deps.pool pair) queryErr
      let (taxReserve, quoteReserve) ← poolReserves pool token quote
      let lpToken ← deps.addrValidate info.liquidityToken
      return some ⟨pair, quote, lpToken, taxReserve, quoteReserve, pool.totalShare⟩

/-- The anchor of an instantiation, which may name no pair. -/
def captureBound (deps : Deps) (token : Addr) (quote : Option Addr) :
    Option Addr → Except ContractError (Option LpPolicy)
  | some pair => capturePolicy deps pair token quote
  | none => .ok none

/-- One reserve per share against the approved one; both products fit 256 bits. -/
def checkReserve (current approved totalShare approvedShare : ℕ) (tolerance : Decimal) :
    Except ContractError Unit := do
  let actual := current * approvedShare
  let baseline := approved * totalShare
  let deviation := (actual - baseline) + (baseline - actual)
  let allowed ← orThrow
    (checkedMultiplyRatio256 baseline tolerance.atomics Decimal.one.atomics) .math
  ensure (deviation ≤ allowed) .staleLpPolicy

def validatePolicy (deps : Deps) (policy : LpPolicy) (token pair quote : Addr)
    (tolerance : Decimal) : Except ContractError Unit := do
  ensure (policy.pair = pair ∧ policy.quote = quote ∧ policy.taxReserve ≠ 0 ∧
    policy.quoteReserve ≠ 0 ∧ policy.totalShare ≠ 0) .invalidLpPool
  let info ← orThrow (deps.pair pair) queryErr
  ensure (info.liquidityToken = policy.lpToken) .invalidLpPool
  let pool ← orThrow (deps.pool pair) queryErr
  let (tax, other) ← poolReserves pool token quote
  ensure (tax ≠ 0 ∧ other ≠ 0 ∧ pool.totalShare ≠ 0) .invalidLpPool
  checkReserve tax policy.taxReserve pool.totalShare policy.totalShare tolerance
  checkReserve other policy.quoteReserve pool.totalShare policy.totalShare tolerance

/-- The other side of the tax token, when that is a token. -/
def quoteIfHoldsTax (assets : AssetInfo × AssetInfo) (taxToken : Addr) :
    Except ContractError (Option Addr) :=
  let quoteOf : AssetInfo → Option Addr
    | .token contractAddr => some contractAddr
    | .nativeToken _ => none
  if assets.1 = .token taxToken then .ok (quoteOf assets.2)
  else if assets.2 = .token taxToken then .ok (quoteOf assets.1)
  else .error .pairNotListed

def requireFactoryListedTaxPair (deps : Deps) (factory taxToken pairRaw : Addr) :
    Except ContractError (Addr × Option Addr) := do
  let pair ← deps.addrValidate pairRaw
  let info ← orThrow (deps.pair pair) .pairNotListed
  ensure (info.contractAddr = pair) .pairNotListed
  let quote ← quoteIfHoldsTax info.assetInfos taxToken
  let listed ← orThrow (deps.factoryPair factory info.assetInfos) .pairNotListed
  ensure (listed.contractAddr = pair) .pairNotListed
  return (listed.contractAddr, quote)

/-! ## Instantiation and the manager's update -/

structure InstantiateMsg where
  token : Addr
  manager : Addr
  factory : Addr
  router : Option Addr
  pair : Option Addr
  quoteToken : Option Addr
  threshold : ℕ
  lpRecipient : Addr
  skimMaxSpread : Option Decimal
  skimMinReturn : Option ℕ

/-- Bind a pair when one is named: its listing, the quote token and the message to the token. -/
def bindPair (deps : Deps) (factory token : Addr) (stored quoteToken : Option Addr) :
    Option Addr → Except ContractError (Option Addr × Option Addr × List (Msg × Option ℕ))
  | none => .ok (stored, quoteToken, [])
  | some p => do
      let (listed, quote) ← requireFactoryListedTaxPair deps factory token p
      return (some listed, quote.or quoteToken, [(.registerListedPair token listed, none)])

def instantiate (deps : Deps) (msg : InstantiateMsg) :
    Except ContractError (Storage × Response) := do
  let token ← deps.addrValidate msg.token
  let manager ← deps.addrValidate msg.manager
  let lpRecipient ← deps.addrValidate msg.lpRecipient
  let factory ← deps.addrValidate msg.factory
  let skimMaxSpread ← clampSkimMaxSpread (msg.skimMaxSpread.getD defaultSkimMaxSpread)
  let quoteToken ← msg.quoteToken.mapM deps.addrValidate
  let (pair, quoteToken, register) ← bindPair deps factory token none quoteToken msg.pair
  let lpPolicy ← captureBound deps token quoteToken pair
  let router ← msg.router.mapM deps.addrValidate
  return (
    { config :=
        { token := token
          manager := manager
          factory := factory
          router := router
          pair := pair
          quoteToken := quoteToken
          threshold := msg.threshold
          lpRecipient := lpRecipient
          skimMaxSpread := skimMaxSpread
          skimMinReturn := msg.skimMinReturn.filter (· ≠ 0) }
      skimming := false
      lpPolicy := lpPolicy
      pendingSkim := none },
    ⟨register, .instantiate⟩)

structure UpdateFields where
  pair : Option Addr
  router : Option Addr
  quoteToken : Option Addr
  threshold : Option ℕ
  lpRecipient : Option Addr
  skimMaxSpread : Option Decimal
  skimMinReturn : Option ℕ

/-- The configuration with the named fields replaced. -/
def mergeConfig (deps : Deps) (cfg : Config) (fields : UpdateFields) :
    Except ContractError (Config × List (Msg × Option ℕ)) := do
  let (pair, quoteToken, register) ←
    bindPair deps cfg.factory cfg.token cfg.pair cfg.quoteToken fields.pair
  let router ← fields.router.mapM deps.addrValidate
  let quote ← fields.quoteToken.mapM deps.addrValidate
  let lpRecipient ← fields.lpRecipient.mapM deps.addrValidate
  let skimMaxSpread ← fields.skimMaxSpread.mapM clampSkimMaxSpread
  return (
    { cfg with
      pair := pair
      router := router.or cfg.router
      quoteToken := quote.or quoteToken
      threshold := fields.threshold.getD cfg.threshold
      lpRecipient := lpRecipient.getD cfg.lpRecipient
      skimMaxSpread := skimMaxSpread.getD cfg.skimMaxSpread
      skimMinReturn := match fields.skimMinReturn with
        | some m => if m = 0 then none else some m
        | none => cfg.skimMinReturn },
    register)

/-- The anchor after an update: captured anew exactly when a pair was named. -/
def refreshPolicy (deps : Deps) (cfg : Config) (stored : Option LpPolicy) (refresh : Bool) :
    Except ContractError (Option LpPolicy) :=
  if refresh then do
    let pair ← orThrow cfg.pair .routerNotSet
    capturePolicy deps pair cfg.token cfg.quoteToken
  else .ok stored

def executeUpdate (s : Storage) (deps : Deps) (sender : Addr) (fields : UpdateFields) :
    Except ContractError (Storage × Response) := do
  ensure (s.skimming = false) .reentrancy
  ensure (sender = s.config.manager) .unauthorized
  let (cfg, register) ← mergeConfig deps s.config fields
  let lpPolicy ← refreshPolicy deps cfg s.lpPolicy fields.pair.isSome
  return ({ s with config := cfg, lpPolicy := lpPolicy }, ⟨register, .updateConfig⟩)

/-! ## The skim -/

def tokenBalance (deps : Deps) (token owner : Addr) : Except ContractError ℕ :=
  orThrow (deps.balance token owner) queryErr

/-- The hook of the sale: pool only, with the configured spread and the least return. -/
def swapHook (cfg : Config) (self : Addr) (half minReturn : ℕ) : Cw20HookMsg :=
  .swap
    { beliefPrice := none
      maxSpread := some cfg.skimMaxSpread
      minReturn := some minReturn
      toAddr := some self
      trader := none
      hybrid := some (poolOnlyHybridParams half)
      greedy := none }
    none

/-- The part of `execute_skim` after the balance was found worth skimming. -/
def startSkim (s : Storage) (deps : Deps) (self pair : Addr) (bal half : ℕ) :
    Except ContractError (Storage × Response) := do
  let cfg := s.config
  let quote ← orThrow cfg.quoteToken .invalidLpPool
  let policy ← orThrow s.lpPolicy .lpPolicyMissing
  validatePolicy deps policy cfg.token pair quote cfg.skimMaxSpread
  let floor ← minimumFor half policy.quoteReserve policy.taxReserve cfg.skimMaxSpread
  let minReturn := max floor (cfg.skimMinReturn.getD 0)
  let minLp ← minimumFor (bal - half) policy.totalShare policy.taxReserve cfg.skimMaxSpread
  let lpBefore ← tokenBalance deps policy.lpToken cfg.lpRecipient
  return (
    { s with
      pendingSkim := some
        { pair := pair
          token := cfg.token
          quote := quote
          lpToken := policy.lpToken
          recipient := cfg.lpRecipient
          lpBefore := lpBefore
          minLp := minLp
          tolerance := cfg.skimMaxSpread }
      skimming := true },
    { messages := [(.send cfg.token pair half (swapHook cfg self half minReturn), some replySwap)]
      attributes := .skimToLp half minReturn minLp cfg.skimMaxSpread })

def executeSkim (s : Storage) (deps : Deps) (self : Addr) :
    Except ContractError (Storage × Response) := do
  ensure (s.skimming = false) .reentrancy
  let bal ← tokenBalance deps s.config.token self
  if bal < s.config.threshold then
    return (s, ⟨[], .belowThreshold bal⟩)
  else
    let pair ← orThrow s.config.pair .routerNotSet
    let half := bal / 2
    if half = 0 then
      return (s, ⟨[], .zeroHalf⟩)
    else
      startSkim s deps self pair bal half

inductive ExecuteMsg
  | skimToLp
  | updateConfig (fields : UpdateFields)

def execute (s : Storage) (deps : Deps) (self sender : Addr) :
    ExecuteMsg → Except ContractError (Storage × Response)
  | .skimToLp => executeSkim s deps self
  | .updateConfig fields => executeUpdate s deps sender fields

/-- The sale has returned: provide all that is there. -/
def replyAfterSwap (s : Storage) (deps : Deps) (self : Addr) (pending : PendingSkim) :
    Except ContractError (Storage × Response) := do
  let taxLeft ← tokenBalance deps pending.token self
  let quoteBal ← tokenBalance deps pending.quote self
  ensure (taxLeft ≠ 0 ∧ quoteBal ≠ 0) .missingLiquidityLeg
  return (s,
    { messages := [
        (.increaseAllowance pending.token pending.pair taxLeft, none),
        (.increaseAllowance pending.quote pending.pair quoteBal, none),
        (.provideLiquidity pending.pair
          (⟨.token pending.token, taxLeft⟩, ⟨.token pending.quote, quoteBal⟩)
          (some pending.tolerance) (some pending.recipient) none, some replyProvide)]
      attributes := .skimReplyProvide taxLeft quoteBal })

/-- The deposit has returned: the recipient must hold the least increase of LP tokens. -/
def replyAfterProvide (s : Storage) (deps : Deps) (pending : PendingSkim) :
    Except ContractError (Storage × Response) := do
  let after ← tokenBalance deps pending.lpToken pending.recipient
  let minted ← orThrow (checkedSub after pending.lpBefore) .insufficientLp
  ensure (pending.minLp ≤ minted) .insufficientLp
  return ({ s with skimming := false, pendingSkim := none },
    ⟨[], .skimComplete minted pending.minLp⟩)

def reply (s : Storage) (deps : Deps) (self : Addr) (id : ℕ) :
    Except ContractError (Storage × Response) := do
  ensure (id = replySwap ∨ id = replyProvide) (.std (.genericErr "unknown reply"))
  ensure (s.skimming = true) (.std (.genericErr "no skim in progress"))
  let pending ← orThrow s.pendingSkim (.std (.notFound "PendingSkim"))
  if id = replyProvide then replyAfterProvide s deps pending
  else replyAfterSwap s deps self pending

/-- `sameVersion` and `fromOlder` are what `cw2` says of the stored contract version. -/
def migrate (s : Storage) (deps : Deps) (sameVersion : Bool) (fromOlder : Except ContractError Unit)
    (factory : Option Addr) : Except ContractError (Storage × Response) := do
  ensure (sameVersion = false) (.std (.genericErr "must migrate from an older AutoLP version"))
  fromOlder
  let factory ← factory.mapM deps.addrValidate
  return ({ s with config := { s.config with factory := factory.getD s.config.factory } },
    ⟨[], .migrate⟩)

end Cl8yDex.AutoLp
