import Cl8yDex.FeeDiscount

/-!
# The fee-discount registry

Governance keeps a ladder of tiers. A wallet registers itself for an open tier or is put into one by
governance, and each registration gets an epoch. A pair asks for the discount of a trader, and when
the answer asks for it, has the wallet deregistered in a later message.
-/

namespace Cl8yDex.DiscountRegistry

open Outcome

structure Config where
  governance : Addr
  cl8yToken : Addr

structure Tier where
  minCl8yBalance : ℕ
  discountBps : ℕ
  limitDiscountBps : Option ℕ
  governanceOnly : Bool

structure Storage where
  config : Config
  tiers : ℕ → Option Tier
  registrations : Addr → Option ℕ
  trustedRouters : Addr → Bool
  registrationEpochs : Addr → Option ℕ
  epochCounter : ℕ

/-- The answers of the chain and of the CL8Y token; `none` is a failed query. -/
structure Host where
  validAddr : Addr → Bool
  isContract : Addr → Bool
  balance : Addr → Addr → Option ℕ

inductive ContractError
  | std (msg : String)
  | unauthorized
  | tierNotFound (tierId : ℕ)
  | tierAlreadyExists (tierId : ℕ)
  | governanceOnlyTier (tierId : ℕ)
  | lockedToGovernanceTier
  | contractNotAllowed
  | insufficientBalance (required actual : ℕ)
  | invalidDiscountBps (value : ℕ)
  | notRegistered
  | panic
  deriving DecidableEq

variable (s : Storage) (host : Host) (sender : Addr)

def addrValidate (a : Addr) : Except ContractError Addr :=
  if host.validAddr a then .ok a else .error (.std "invalid address")

def cl8yBalance (wallet : Addr) : Except ContractError ℕ :=
  orThrow (host.balance s.config.cl8yToken wallet) (.std "Querier error")

def instantiate (governance cl8yToken : Addr) : Except ContractError Storage := do
  let governance ← addrValidate host governance
  let cl8yToken ← addrValidate host cl8yToken
  return ⟨⟨governance, cl8yToken⟩, fun _ => none, fun _ => none, fun _ => false, fun _ => none, 0⟩

def ensureGovernance : Except ContractError Unit :=
  ensure (sender = s.config.governance) .unauthorized

def ensureDiscountBps (value : ℕ) : Except ContractError Unit :=
  ensure (value ≤ 10000) (.invalidDiscountBps value)

def ensureOptionalBps (value : Option ℕ) : Except ContractError Unit :=
  match value with
  | some value => ensureDiscountBps value
  | none => return ()

def saveTier (tierId : ℕ) (tier : Option Tier) : Storage :=
  { s with tiers := Function.update s.tiers tierId tier }

def executeAddTier (tierId : ℕ) (tier : Tier) : Except ContractError Storage := do
  ensureGovernance s sender
  ensureDiscountBps tier.discountBps
  ensureOptionalBps tier.limitDiscountBps
  ensure ((s.tiers tierId).isNone) (.tierAlreadyExists tierId)
  return saveTier s tierId (some tier)

structure TierUpdate where
  minCl8yBalance : Option ℕ
  discountBps : Option ℕ
  limitDiscountBps : Option ℕ
  governanceOnly : Option Bool

def executeUpdateTier (tierId : ℕ) (u : TierUpdate) : Except ContractError Storage := do
  ensureGovernance s sender
  let tier ← orThrow (s.tiers tierId) (.tierNotFound tierId)
  ensureOptionalBps u.discountBps
  ensureOptionalBps u.limitDiscountBps
  return saveTier s tierId (some
    { minCl8yBalance := u.minCl8yBalance.getD tier.minCl8yBalance
      discountBps := u.discountBps.getD tier.discountBps
      limitDiscountBps := u.limitDiscountBps.or tier.limitDiscountBps
      governanceOnly := u.governanceOnly.getD tier.governanceOnly })

def executeRemoveTier (tierId : ℕ) : Except ContractError Storage := do
  ensureGovernance s sender
  ensure ((s.tiers tierId).isSome) (.tierNotFound tierId)
  return saveTier s tierId none

/-- A registration takes the next epoch of a counter that panics at its end. -/
def saveRegistration (wallet : Addr) (tierId : ℕ) : Except ContractError Storage := do
  ensure (s.epochCounter + 1 ≤ u64Max) .panic
  return { s with
    registrations := Function.update s.registrations wallet (some tierId)
    epochCounter := s.epochCounter + 1
    registrationEpochs := Function.update s.registrationEpochs wallet (some (s.epochCounter + 1)) }

def removeRegistration (wallet : Addr) : Storage :=
  { s with
    registrations := Function.update s.registrations wallet none
    registrationEpochs := Function.update s.registrationEpochs wallet none }

/-- A tier that exists and only governance assigns. -/
def isGovernanceTier (tierId : ℕ) : Prop := ∃ tier ∈ s.tiers tierId, tier.governanceOnly = true

instance (tierId : ℕ) : Decidable (isGovernanceTier s tierId) :=
  inferInstanceAs (Decidable (∃ tier ∈ s.tiers tierId, tier.governanceOnly = true))

def ensureMinBalance (tier : Tier) : Except ContractError Unit :=
  if tier.minCl8yBalance = 0 then return ()
  else do
    let balance ← cl8yBalance s host sender
    ensure (tier.minCl8yBalance ≤ balance) (.insufficientBalance tier.minCl8yBalance balance)

def executeRegister (tierId : ℕ) : Except ContractError Storage := do
  ensure (host.isContract sender = false) .contractNotAllowed
  let tier ← orThrow (s.tiers tierId) (.tierNotFound tierId)
  ensure (tier.governanceOnly = false) (.governanceOnlyTier tierId)
  ensure (¬ ∃ current ∈ s.registrations sender, isGovernanceTier s current) .lockedToGovernanceTier
  ensureMinBalance s host sender tier
  saveRegistration s sender tierId

def executeRegisterWallet (wallet : Addr) (tierId : ℕ) : Except ContractError Storage := do
  ensureGovernance s sender
  ensure ((s.tiers tierId).isSome) (.tierNotFound tierId)
  let wallet ← addrValidate host wallet
  saveRegistration s wallet tierId

def executeDeregister : Except ContractError Storage := do
  let current ← orThrow (s.registrations sender) .notRegistered
  ensure (¬ isGovernanceTier s current) .lockedToGovernanceTier
  return removeRegistration s sender

/-- The message expects another registration than the wallet has now. -/
def epochMismatch (wallet : Addr) (epoch : Option ℕ) : Prop :=
  ∃ expected ∈ epoch, (s.registrationEpochs wallet).getD 0 ≠ expected

instance (wallet : Addr) (epoch : Option ℕ) : Decidable (epochMismatch s wallet epoch) :=
  inferInstanceAs (Decidable (∃ expected ∈ epoch, _ ≠ expected))

/-- Anybody may deregister a wallet whose tier is gone or whose balance fell below it. -/
def ensureBelowMinimum (wallet : Addr) (tierId : ℕ) : Except ContractError Unit :=
  match s.tiers tierId with
  | none => return ()
  | some tier => do
      ensure (tier.minCl8yBalance ≠ 0) .unauthorized
      let balance ← cl8yBalance s host wallet
      ensure (¬ tier.minCl8yBalance ≤ balance) .unauthorized

def deregisterCurrent (wallet : Addr) : Except ContractError Storage := do
  let current ← orThrow (s.registrations wallet) .notRegistered
  ensure (¬(isGovernanceTier s current ∧ sender ≠ s.config.governance)) .lockedToGovernanceTier
  if sender = s.config.governance then return removeRegistration s wallet
  else do
    ensureBelowMinimum s host wallet current
    return removeRegistration s wallet

def executeDeregisterWallet (wallet : Addr) (epoch : Option ℕ) : Except ContractError Storage := do
  let wallet ← addrValidate host wallet
  if epochMismatch s wallet epoch then return s
  else deregisterCurrent s host sender wallet

def setTrustedRouter (router : Addr) (trusted : Bool) : Except ContractError Storage := do
  ensureGovernance s sender
  let router ← addrValidate host router
  return { s with trustedRouters := Function.update s.trustedRouters router trusted }

def executeAddTrustedRouter (router : Addr) : Except ContractError Storage :=
  setTrustedRouter s host sender router true

def executeRemoveTrustedRouter (router : Addr) : Except ContractError Storage :=
  setTrustedRouter s host sender router false

def validateOr (a : Option Addr) (current : Addr) : Except ContractError Addr :=
  match a with
  | some a => addrValidate host a
  | none => return current

def executeUpdateConfig (governance cl8yToken : Option Addr) : Except ContractError Storage := do
  ensureGovernance s sender
  let governance ← validateOr host governance s.config.governance
  let cl8yToken ← validateOr host cl8yToken s.config.cl8yToken
  return { s with config := ⟨governance, cl8yToken⟩ }

inductive ExecuteMsg
  | addTier (tierId : ℕ) (tier : Tier)
  | updateTier (tierId : ℕ) (u : TierUpdate)
  | removeTier (tierId : ℕ)
  | register (tierId : ℕ)
  | registerWallet (wallet : Addr) (tierId : ℕ)
  | deregister
  | deregisterWallet (wallet : Addr) (epoch : Option ℕ)
  | addTrustedRouter (router : Addr)
  | removeTrustedRouter (router : Addr)
  | updateConfig (governance cl8yToken : Option Addr)

def execute (msg : ExecuteMsg) : Except ContractError Storage :=
  match msg with
  | .addTier tierId tier => executeAddTier s sender tierId tier
  | .updateTier tierId u => executeUpdateTier s sender tierId u
  | .removeTier tierId => executeRemoveTier s sender tierId
  | .register tierId => executeRegister s host sender tierId
  | .registerWallet wallet tierId => executeRegisterWallet s host sender wallet tierId
  | .deregister => executeDeregister s sender
  | .deregisterWallet wallet epoch => executeDeregisterWallet s host sender wallet epoch
  | .addTrustedRouter router => executeAddTrustedRouter s host sender router
  | .removeTrustedRouter router => executeRemoveTrustedRouter s host sender router
  | .updateConfig governance cl8yToken => executeUpdateConfig s host sender governance cl8yToken

def discountResponse (discountBps : ℕ) (limitDiscountBps : Option ℕ) (needsDeregister : Bool)
    (registrationEpoch : Option ℕ) : DiscountResponse where
  discountBps := discountBps
  limitDiscountBps := some (resolveLimitDiscountBps limitDiscountBps discountBps)
  needsDeregister := needsDeregister
  registrationEpoch := registrationEpoch

/-- A trusted router speaks for its trader, any other sender for itself. -/
def effectiveTrader (trader sender : Addr) : Addr :=
  if trader ≠ sender ∧ s.trustedRouters sender = false then sender else trader

def tierDiscount (wallet : Addr) (tier : Tier) (epoch : ℕ) :
    Except ContractError DiscountResponse :=
  if tier.governanceOnly ∨ tier.minCl8yBalance = 0 then
    return discountResponse tier.discountBps tier.limitDiscountBps false none
  else do
    let balance ← cl8yBalance s host wallet
    if tier.minCl8yBalance ≤ balance then
      return discountResponse tier.discountBps tier.limitDiscountBps false none
    else return discountResponse 0 (some 0) true (some epoch)

def queryDiscount (trader sender : Addr) : Except ContractError DiscountResponse :=
  let wallet := effectiveTrader s trader sender
  match s.registrations wallet with
  | none => return discountResponse 0 (some 0) false none
  | some tierId =>
      let epoch := (s.registrationEpochs wallet).getD 0
      match s.tiers tierId with
      | none => return discountResponse 0 (some 0) true (some epoch)
      | some tier => tierDiscount s host wallet tier epoch

end Cl8yDex.DiscountRegistry
