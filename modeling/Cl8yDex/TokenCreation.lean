import Cl8yDex.TokenSettings

/-!
# Creating a community-tax token

The instantiation: who may claim to be the launcher, the identity of the token, the caps on its
rates, and the payload of each purchased feature. The base token package sets up the balances and
the supply; its answer is a parameter.
-/

namespace Cl8yDex.CommunityTax

open Outcome

structure MintInit where
  minter : Addr
  cap : Option ℕ

structure InstantiateMsg where
  name : String
  symbol : String
  decimals : ℕ
  initialBalances : List (Addr × ℕ)
  manager : Addr
  treasury : Addr
  buyBps : ℕ
  sellBps : ℕ
  maxBuyBps : ℕ
  maxSellBps : ℕ
  maxTransferBps : ℕ
  factory : Addr
  router : Option Addr
  ust1 : Addr
  cmmTreasury : Addr
  features : List Sku
  mint : Option MintInit
  transferBps : Option ℕ
  sinks : Option (List Sink)
  autolp : Option Addr
  launcher : Option Addr
  launchGuards : Option LaunchGuardsConfig
  initialExempt : Option (List Addr)

/-- The balances and the supply that the base token sets up for the manager. -/
abbrev BaseToken := InstantiateMsg → Option ((Addr → ℕ) × TokenInfo)

def minDecimals : ℕ := 6

def maxDecimals : ℕ := 18

def minNameLen : ℕ := 3

def maxNameLen : ℕ := 50

def minSymbolLen : ℕ := 3

def maxSymbolLen : ℕ := 12

def maxInitialExempt : ℕ := 20

def isAsciiAlnum (s : String) : Bool := s.toList ≠ [] && s.toList.all Char.isAlphanum

def validIdentifier (s : String) (least most : ℕ) : Bool :=
  decide (least ≤ s.utf8ByteSize) && decide (s.utf8ByteSize ≤ most) && isAsciiAlnum s

def validateIdentity (name symbol : String) (decimals : ℕ) : Except SettingsError Unit := do
  ensure (minDecimals ≤ decimals ∧ decimals ≤ maxDecimals)
    (.decimalsRange minDecimals maxDecimals decimals)
  ensure (validIdentifier name minNameLen maxNameLen = true) .invalidName
  ensure (validIdentifier symbol minSymbolLen maxSymbolLen = true) .invalidSymbol

def validateBpsAtInit (bps cap : ℕ) : Except SettingsError Unit :=
  ensure (bps ≤ cap) (.taxBpsCap bps cap)

def saturatingAdd (a b : ℕ) : ℕ := min (a + b) u16Max

def validateInstantiateCaps (maxBuy maxSell maxTransfer : ℕ) : Except SettingsError Unit := do
  validateBpsAtInit maxBuy maxTaxBps
  validateBpsAtInit maxSell maxTaxBps
  validateBpsAtInit maxTransfer maxTaxBps
  let combined := saturatingAdd (saturatingAdd maxBuy maxSell) maxTransfer
  ensure (combined ≤ maxTaxBps) (.combinedTaxCap combined maxTaxBps)

section Payload

variable (msg : InstantiateMsg)

def InstantiateMsg.buys (sku : Sku) : Bool := decide (sku ∈ msg.features)

/-- A field that belongs to a feature is refused without it. -/
def rejectPayload (present : Bool) (field : String) (sku : Sku) : Except SettingsError Unit :=
  ensure (¬(present = true ∧ msg.buys sku = false)) (.skuPayloadWithoutFeature field sku.asStr)

def rejectSkuPayloadWithoutFeature : Except SettingsError Unit := do
  rejectPayload msg msg.transferBps.isSome "transfer_bps" .transferTax
  rejectPayload msg msg.sinks.isSome "sinks" .splitRouter
  rejectPayload msg msg.launchGuards.isSome "launch_guards" .launchGuards
  rejectPayload msg (msg.initialExempt.any fun addrs => !addrs.isEmpty) "initial_exempt"
    .exemptionDirectory
  rejectPayload msg msg.autolp.isSome "autolp" .autoV2Lp

def rejectHeadroom (field : String) (max current : ℕ) : Except SettingsError Unit :=
  ensure (max = current) (.skuPayloadWithoutFeature field Sku.variableRates.asStr)

/-- Rates that cannot change leave no room below their caps. -/
def rejectHeadroomWithoutVariableRates : Except SettingsError Unit :=
  if msg.buys .variableRates then .ok ()
  else do
    rejectHeadroom "max_buy_bps" msg.maxBuyBps msg.buyBps
    rejectHeadroom "max_sell_bps" msg.maxSellBps msg.sellBps
    rejectHeadroom "max_transfer_bps" msg.maxTransferBps (msg.transferBps.getD 0)

def checkTransferBps : Except SettingsError Unit :=
  match msg.transferBps with
  | none => .ok ()
  | some bps => validateBpsAtInit bps msg.maxTransferBps

end Payload

section Instantiate

variable (ans : Answers) (env : Env) (msg : InstantiateMsg)

def Answers.validateOpt (a : Option Addr) : Except SettingsError (Option Addr) :=
  match a with
  | none => .ok none
  | some a => do
      let a ← ans.addrValidate a
      return some a

def initialSinks : Except SettingsError (Option (List StoredSink)) :=
  match msg.sinks with
  | some sinks =>
      if msg.buys .splitRouter then do
        let stored ← validateSinks ans.addrValidate sinks
        return some stored
      else .ok none
  | none => .ok none

def initialGuards : Except SettingsError (Option LaunchGuards) :=
  if msg.buys .launchGuards then do
    let g ← orThrow msg.launchGuards .launchGuardsRequired
    return some ⟨g.maxWallet, g.cooldownBlocks, g.tradingEnabled⟩
  else .ok none

def writeExempt (self : Addr) (s : Storage) (raw : Addr) : Except SettingsError Storage := do
  let a ← ans.addrValidate raw
  ensure (¬(a = self ∨ a = s.config.factory ∨ s.config.router = some a ∨
    s.config.autolp = some a ∨ s.protocolExempt a = true)) .protocolExemptNotAllowed
  return { s with managerExempt := Function.update s.managerExempt a true }

def writeInitialExempt (self : Addr) (s : Storage) : Except SettingsError Storage :=
  if msg.buys .exemptionDirectory then
    match msg.initialExempt with
    | none => .ok s
    | some addrs => do
        ensure (addrs.length ≤ maxInitialExempt) (.tooManyInitialExempt maxInitialExempt)
        addrs.foldlM (writeExempt ans self) s
  else .ok s

def initialFeatures : Features where
  mintControl := msg.buys .mintControl
  transferTax := msg.buys .transferTax
  splitRouter := msg.buys .splitRouter
  launchGuards := msg.buys .launchGuards

def initialTerms (ust1 cmmTreasury : Addr) (launcher : Option Addr) : Terms where
  maxBuyBps := msg.maxBuyBps
  maxSellBps := msg.maxSellBps
  maxTransferBps := msg.maxTransferBps
  ust1 := ust1
  cmmTreasury := cmmTreasury
  launcher := launcher
  autoV2Lp := msg.buys .autoV2Lp
  exemptionDirectory := msg.buys .exemptionDirectory
  variableRates := msg.buys .variableRates

def instantiate (base : BaseToken) (sender : Addr) : Except SettingsError Token := do
  let launcher ← ans.validateOpt msg.launcher
  ensure (∀ a ∈ launcher, a = sender) .unauthorized
  validateIdentity msg.name msg.symbol msg.decimals
  validateInstantiateCaps msg.maxBuyBps msg.maxSellBps msg.maxTransferBps
  validateBpsAtInit msg.buyBps msg.maxBuyBps
  validateBpsAtInit msg.sellBps msg.maxSellBps
  checkTransferBps msg
  ensure (msg.buys .mintControl = msg.mint.isSome)
    (.std "MintControl SKU and mint init must match")
  rejectSkuPayloadWithoutFeature msg
  rejectHeadroomWithoutVariableRates msg
  let manager ← ans.addrValidate msg.manager
  let token ← orThrow (base msg) .cw20
  let treasury ← ans.addrValidate msg.treasury
  let factory ← ans.addrValidate msg.factory
  let ust1 ← ans.addrValidate msg.ust1
  let cmmTreasury ← ans.addrValidate msg.cmmTreasury
  let router ← ans.validateOpt msg.router
  let autolp ← ans.validateOpt msg.autolp
  let sinks ← initialSinks ans msg
  let guards ← initialGuards msg
  let s ← writeInitialExempt ans msg env.contract {
    config := ⟨manager, treasury, msg.buyBps, msg.sellBps, msg.transferBps.getD 0, factory, router,
      autolp, false⟩
    features := initialFeatures msg
    sinks := sinks
    launchGuards := guards
    listedPairs := fun _ => false
    protocolExempt := fun a =>
      a == env.contract || a == factory || router == some a || autolp == some a
    managerExempt := fun _ => false
    lastTradeBlock := fun _ => none
    balances := token.1
    tokenInfo := token.2
    allowances := fun _ _ => none
    settlementConsumption := none }
  return ⟨s, initialTerms msg ust1 cmmTreasury launcher⟩

end Instantiate

end Cl8yDex.CommunityTax
