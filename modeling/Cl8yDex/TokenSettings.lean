import Cl8yDex.CommunityExecute

/-!
# Settings of the community-tax token

The paid unlocks, the paid settings batches and the binding of the liquidity sister. What a
transfer reads of the configuration and of the features is in the storage; the rest of the two
records stands beside it. An error of a batch reverts every write of it.
-/

namespace Cl8yDex.CommunityTax

open Outcome

deriving instance DecidableEq for StoredSink, LaunchGuards

inductive Sku
  | mintControl
  | transferTax
  | splitRouter
  | autoV2Lp
  | exemptionDirectory
  | variableRates
  | launchGuards
  deriving DecidableEq

def Sku.asStr : Sku → String
  | mintControl => "mint_control"
  | transferTax => "transfer_tax"
  | splitRouter => "split_router"
  | autoV2Lp => "auto_v2_lp"
  | exemptionDirectory => "exemption_directory"
  | variableRates => "variable_rates"
  | launchGuards => "launch_guards"

structure Sink where
  kind : SinkKind
  addr : Option Addr
  bps : ℕ

structure LaunchGuardsConfig where
  maxWallet : Option ℕ
  cooldownBlocks : ℕ
  tradingEnabled : Bool

/-- The spread is a decimal, counted in its smallest unit. -/
structure AutoLpConfig where
  pair : Option Addr
  threshold : ℕ
  lpRecipient : Addr
  skimMaxSpread : Option ℕ
  skimMinReturn : Option ℕ

structure SettingsBatch where
  buyBps : Option ℕ
  sellBps : Option ℕ
  treasury : Option Addr
  transferBps : Option ℕ
  sinks : Option (List Sink)
  addExempt : Option (List Addr)
  removeExempt : Option (List Addr)
  autolp : Option AutoLpConfig
  launchGuards : Option LaunchGuardsConfig
  minter : Option Addr
  revokeMint : Option Bool

def SettingsBatch.isEmpty (b : SettingsBatch) : Bool :=
  b.buyBps.isNone && b.sellBps.isNone && b.treasury.isNone && b.transferBps.isNone &&
    b.sinks.isNone && b.addExempt.isNone && b.removeExempt.isNone && b.autolp.isNone &&
    b.launchGuards.isNone && b.minter.isNone && b.revokeMint.isNone

inductive InvoiceHookMsg
  | enableFeature (sku : Sku)
  | updateSettings (settings : SettingsBatch)

inductive SettingsError
  | std (msg : String)
  | cw20
  | unauthorized
  | invoiceAmount (required got : ℕ)
  | invoiceToken
  | noOpSettings
  | skuNotUnlocked (sku : String)
  | featureAlreadyEnabled (sku : String)
  | mintControlInstantiateOnly
  | mintRevoked
  | taxBpsCap (bps cap : ℕ)
  | combinedTaxCap (combined cap : ℕ)
  | sinkRatio (sum : ℕ)
  | tooManySinks (max : ℕ)
  | walletSinkAddr
  | cannotRemoveProtocolExempt
  | decimalsRange (min max got : ℕ)
  | invalidName
  | invalidSymbol
  | launchGuardsRequired
  | skuPayloadWithoutFeature (field sku : String)
  | tooManyInitialExempt (max : ℕ)
  | protocolExemptNotAllowed
  | autolpAlreadyBound
  deriving DecidableEq

def invoiceUst1 : ℕ := 50000000

def maxTaxBps : ℕ := 2500

def maxSinks : ℕ := 4

/-- The fields of the configuration and the features that no transfer reads. -/
structure Terms where
  maxBuyBps : ℕ
  maxSellBps : ℕ
  maxTransferBps : ℕ
  ust1 : Addr
  cmmTreasury : Addr
  launcher : Option Addr
  autoV2Lp : Bool
  exemptionDirectory : Bool
  variableRates : Bool

structure Token where
  storage : Storage
  terms : Terms

/-- What the sister answers about itself. -/
structure SisterConfigView where
  pair : Option Addr
  threshold : ℕ
  lpRecipient : Addr
  skimMaxSpread : ℕ
  skimMinReturn : Option ℕ

structure SisterUpdate where
  pair : Option Addr
  threshold : Option ℕ
  lpRecipient : Option Addr
  skimMaxSpread : Option ℕ
  skimMinReturn : Option ℕ
  deriving DecidableEq

/-- A message that an accepted invoice sends on. -/
inductive InvoiceOutgoing
  | transferUst1 (recipient : Addr) (amount : ℕ)
  | updateSister (sister : Addr) (update : SisterUpdate)

/-- The answers that the settings need. -/
structure Answers where
  validAddr : Addr → Bool
  sisterConfig : Addr → Option SisterConfigView

def Answers.addrValidate (ans : Answers) (a : Addr) : Except SettingsError Addr :=
  if ans.validAddr a then .ok a else .error (.std "invalid address")

section Features

variable (t : Token)

def Token.isEnabled : Sku → Bool
  | .mintControl => t.storage.features.mintControl
  | .transferTax => t.storage.features.transferTax
  | .splitRouter => t.storage.features.splitRouter
  | .autoV2Lp => t.terms.autoV2Lp
  | .exemptionDirectory => t.terms.exemptionDirectory
  | .variableRates => t.terms.variableRates
  | .launchGuards => t.storage.features.launchGuards

def Token.withFeatures (f : Features) : Token :=
  { t with storage := { t.storage with features := f } }

def Token.enable : Sku → Token
  | .mintControl => t.withFeatures { t.storage.features with mintControl := true }
  | .transferTax => t.withFeatures { t.storage.features with transferTax := true }
  | .splitRouter => t.withFeatures { t.storage.features with splitRouter := true }
  | .autoV2Lp => { t with terms := { t.terms with autoV2Lp := true } }
  | .exemptionDirectory => { t with terms := { t.terms with exemptionDirectory := true } }
  | .variableRates => { t with terms := { t.terms with variableRates := true } }
  | .launchGuards => t.withFeatures { t.storage.features with launchGuards := true }

def requireSku (sku : Sku) : Except SettingsError Unit :=
  ensure (t.isEnabled sku = true) (.skuNotUnlocked sku.asStr)

/-- Guards that are unlocked later start with trading off. -/
def defaultGuards (sku : Sku) : Token :=
  if sku = .launchGuards ∧ t.storage.launchGuards = none then
    { t with storage := { t.storage with launchGuards := some ⟨none, 0, false⟩ } }
  else t

def forwardUst1 (amount : ℕ) : InvoiceOutgoing := .transferUst1 t.terms.cmmTreasury amount

def enableFeature (sku : Sku) (amount : ℕ) :
    Except SettingsError (Token × List InvoiceOutgoing) := do
  ensure (sku ≠ .mintControl) .mintControlInstantiateOnly
  ensure (t.isEnabled sku = false) (.featureAlreadyEnabled sku.asStr)
  return (defaultGuards (t.enable sku) sku, [forwardUst1 t amount])

end Features

/-- The token while a batch is applied, and whether the batch has changed anything. -/
structure Draft where
  token : Token
  changed : Bool

def Draft.withConfig (d : Draft) (c : Config) : Draft :=
  ⟨{ d.token with storage := { d.token.storage with config := c } }, true⟩

def Draft.withStorage (d : Draft) (s : Storage) : Draft := ⟨{ d.token with storage := s }, true⟩

/-- A field of the batch that is absent changes nothing. -/
def onField {α : Type} (field : Option α) (f : α → Draft → Except SettingsError Draft)
    (d : Draft) : Except SettingsError Draft :=
  match field with
  | none => .ok d
  | some value => f value d

def validateBps (bps cap : ℕ) : Except SettingsError Unit :=
  ensure (bps ≤ cap ∧ bps ≤ maxTaxBps) (.taxBpsCap bps (min cap maxTaxBps))

def applyRate (sku : Sku) (cap : Terms → ℕ) (get : Config → ℕ) (set : Config → ℕ → Config)
    (bps : ℕ) (d : Draft) : Except SettingsError Draft := do
  requireSku d.token sku
  let config := d.token.storage.config
  if bps = get config then return d
  else do
    validateBps bps (cap d.token.terms)
    return d.withConfig (set config bps)

def applyBuyBps : ℕ → Draft → Except SettingsError Draft :=
  applyRate .variableRates Terms.maxBuyBps Config.buyBps fun c bps => { c with buyBps := bps }

def applySellBps : ℕ → Draft → Except SettingsError Draft :=
  applyRate .variableRates Terms.maxSellBps Config.sellBps fun c bps => { c with sellBps := bps }

def applyTransferBps : ℕ → Draft → Except SettingsError Draft :=
  applyRate .transferTax Terms.maxTransferBps Config.transferBps
    fun c bps => { c with transferBps := bps }

def sumBps (sinks : List Sink) : ℕ := (sinks.map Sink.bps).sum

/-- A wallet sink names its address here; every other kind is resolved when it is paid. -/
def storeSink (validate : Addr → Except SettingsError Addr) (sink : Sink) :
    Except SettingsError StoredSink :=
  match sink.kind with
  | .wallet => do
      let raw ← orThrow sink.addr .walletSinkAddr
      let a ← validate raw
      return ⟨.wallet, some a, sink.bps⟩
  | kind => return ⟨kind, none, sink.bps⟩

def validateSinks (validate : Addr → Except SettingsError Addr) (sinks : List Sink) :
    Except SettingsError (List StoredSink) := do
  ensure (sinks ≠ [] ∧ sinks.length ≤ maxSinks) (.tooManySinks maxSinks)
  ensure (sumBps sinks = bpsDenom) (.sinkRatio (sumBps sinks))
  sinks.mapM (storeSink validate)

section Batch

variable (ans : Answers)

def applyTreasury (treasury : Addr) (d : Draft) : Except SettingsError Draft := do
  let a ← ans.addrValidate treasury
  let config := d.token.storage.config
  if a = config.treasury then return d
  else return d.withConfig { config with treasury := a }

def applySinks (sinks : List Sink) (d : Draft) : Except SettingsError Draft := do
  requireSku d.token .splitRouter
  let stored ← validateSinks ans.addrValidate sinks
  if stored = d.token.storage.sinks.getD [] then return d
  else return d.withStorage { d.token.storage with sinks := some stored }

/-- The roles that no directory entry may touch. -/
def hasProtocolRole (s : Storage) (a : Addr) : Bool :=
  isProtocolExempt s s.config.factory a || s.protocolExempt a || a == s.config.factory ||
    s.config.router == some a || s.config.autolp == some a

def addExemption (d : Draft) (raw : Addr) : Except SettingsError Draft := do
  let a ← ans.addrValidate raw
  let s := d.token.storage
  ensure (hasProtocolRole s a = false) .protocolExemptNotAllowed
  if s.managerExempt a then return d
  else return d.withStorage { s with managerExempt := Function.update s.managerExempt a true }

def removeExemption (d : Draft) (raw : Addr) : Except SettingsError Draft := do
  let a ← ans.addrValidate raw
  let s := d.token.storage
  ensure (hasProtocolRole s a = false) .cannotRemoveProtocolExempt
  ensure (isListedPair s a = false) .cannotRemoveProtocolExempt
  if s.managerExempt a then
    return d.withStorage { s with managerExempt := Function.update s.managerExempt a false }
  else return d

def applyAddExempt (addrs : List Addr) (d : Draft) : Except SettingsError Draft := do
  requireSku d.token .exemptionDirectory
  addrs.foldlM (addExemption ans) d

def applyRemoveExempt (addrs : List Addr) (d : Draft) : Except SettingsError Draft := do
  requireSku d.token .exemptionDirectory
  addrs.foldlM (removeExemption ans) d

/-- What differs from the sister's own settings; an omitted field is not a change. -/
def sisterUpdate (current : SisterConfigView) (autolp : AutoLpConfig) : SisterUpdate where
  pair := autolp.pair.filter fun pair => decide (current.pair ≠ some pair)
  threshold := if autolp.threshold ≠ current.threshold then some autolp.threshold else none
  lpRecipient :=
    if autolp.lpRecipient ≠ current.lpRecipient then some autolp.lpRecipient else none
  skimMaxSpread := autolp.skimMaxSpread.filter fun s => decide (s ≠ current.skimMaxSpread)
  skimMinReturn := autolp.skimMinReturn.filter fun m =>
    decide ((if m = 0 then none else some m) ≠ current.skimMinReturn)

def validateOptional (pair : Option Addr) : Except SettingsError Unit :=
  match pair with
  | none => .ok ()
  | some pair => do
      let _ ← ans.addrValidate pair
      return ()

def applyAutolpSettings (autolp : AutoLpConfig) (d : Draft) :
    Except SettingsError (Draft × List InvoiceOutgoing) := do
  requireSku d.token .autoV2Lp
  let _ ← ans.addrValidate autolp.lpRecipient
  validateOptional ans autolp.pair
  let sister ← orThrow d.token.storage.config.autolp
    (.std "AutoLP contract not bound; enable AutoV2Lp via launcher")
  let current ← orThrow (ans.sisterConfig sister) (.std "Querier error")
  if sisterUpdate current autolp = ⟨none, none, none, none, none⟩ then return (d, [])
  else return (⟨d.token, true⟩, [.updateSister sister (sisterUpdate current autolp)])

def applyAutolp (field : Option AutoLpConfig) (d : Draft) :
    Except SettingsError (Draft × List InvoiceOutgoing) :=
  match field with
  | none => .ok (d, [])
  | some autolp => applyAutolpSettings ans autolp d

def applyLaunchGuardSettings (incoming : LaunchGuardsConfig) (d : Draft) :
    Except SettingsError Draft := do
  requireSku d.token .launchGuards
  let s := d.token.storage
  let next : LaunchGuards :=
    ⟨incoming.maxWallet, incoming.cooldownBlocks, incoming.tradingEnabled⟩
  if s.launchGuards.getD ⟨none, 0, true⟩ = next then return d
  else return d.withStorage { s with launchGuards := some next }

def setMinter (minter : Addr) (d : Draft) : Except SettingsError Draft := do
  let a ← ans.addrValidate minter
  let s := d.token.storage
  let minted (mint : MinterData) : Draft :=
    d.withStorage { s with tokenInfo := { s.tokenInfo with mint := some mint } }
  match s.tokenInfo.mint with
  | some m => if m.minter = a then return d else return minted { m with minter := a }
  | none => return minted ⟨a, none⟩

def applyMintSettings (batch : SettingsBatch) (d : Draft) : Except SettingsError Draft :=
  if batch.minter.isSome || batch.revokeMint == some true then do
    requireSku d.token .mintControl
    let s := d.token.storage
    ensure (s.config.mintRevoked = false) .mintRevoked
    if batch.revokeMint = some true then
      return d.withStorage { s with
        tokenInfo := { s.tokenInfo with mint := none }
        config := { s.config with mintRevoked := true } }
    else onField batch.minter (setMinter ans) d
  else .ok d

def applyBatch (batch : SettingsBatch) (t : Token) :
    Except SettingsError (Draft × List InvoiceOutgoing) := do
  let d ← onField batch.buyBps applyBuyBps ⟨t, false⟩
  let d ← onField batch.sellBps applySellBps d
  let d ← onField batch.treasury (applyTreasury ans) d
  let d ← onField batch.transferBps applyTransferBps d
  let d ← onField batch.sinks (applySinks ans) d
  let d ← onField batch.addExempt (applyAddExempt ans) d
  let d ← onField batch.removeExempt (applyRemoveExempt ans) d
  let out ← applyAutolp ans batch.autolp d
  let d ← onField batch.launchGuards applyLaunchGuardSettings out.1
  let d ← applyMintSettings ans batch d
  return (d, out.2)

def updateSettings (t : Token) (batch : SettingsBatch) (amount : ℕ) :
    Except SettingsError (Token × List InvoiceOutgoing) := do
  ensure (batch.isEmpty = false) .noOpSettings
  let out ← applyBatch ans batch t
  ensure (out.1.changed = true) .noOpSettings
  return (out.1.token, forwardUst1 t amount :: out.2)

/-- An unlock may also come through the launcher that created the token. -/
def assertInvoicePayer (t : Token) (payer : Addr) : InvoiceHookMsg → Except SettingsError Unit
  | .enableFeature _ =>
      ensure (payer = t.storage.config.manager ∨ t.terms.launcher = some payer) .unauthorized
  | .updateSettings _ => ensure (payer = t.storage.config.manager) .unauthorized

def assertExactInvoice (amount : ℕ) : Except SettingsError Unit :=
  ensure (amount = invoiceUst1) (.invoiceAmount invoiceUst1 amount)

/-- The hook of a payment in the invoice token. -/
def executeReceive (t : Token) (infoSender sender : Addr) (amount : ℕ) (hook : InvoiceHookMsg) :
    Except SettingsError (Token × List InvoiceOutgoing) := do
  ensure (infoSender = t.terms.ust1) .invoiceToken
  let payer ← ans.addrValidate sender
  assertInvoicePayer t payer hook
  assertExactInvoice amount
  match hook with
  | .enableFeature sku => enableFeature t sku amount
  | .updateSettings settings => updateSettings ans t settings amount

/-- The sister is bound once, by the launcher. -/
def executeBindAutolp (t : Token) (sender autolp : Addr) : Except SettingsError Token := do
  requireSku t .autoV2Lp
  let s := t.storage
  let launcher ← orThrow t.terms.launcher .unauthorized
  ensure (sender = launcher) .unauthorized
  ensure (s.config.autolp = none) .autolpAlreadyBound
  let a ← ans.addrValidate autolp
  return { t with storage := { s with
    protocolExempt := Function.update s.protocolExempt a true
    config := { s.config with autolp := some a } } }

end Batch

end Cl8yDex.CommunityTax
