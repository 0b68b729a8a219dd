import Cl8yDex.CommunityTransfer

/-!
# Trust in the router

The token settles a live route of its official router, one slot at a time, and keeps a single
replay record for it. Governance may rotate the router, which resets the record to a floor that the
new router reports, or revoke it, which removes the record.
-/

namespace Cl8yDex.CommunityTax

open Outcome

/-- The record that a settlement starts from. -/
def recordOr (record : Option SettlementConsumption) (router : Addr) : SettlementConsumption :=
  record.getD ⟨router, 0, []⟩

/-- A slot is accepted once: by a newer route, or by the same one while it has begun. -/
def consumeFrom (state : SettlementConsumption) (router : Addr) (routeId slot : ℕ) :
    Except ContractError SettlementConsumption := do
  ensure (state.router = router ∧ state.routeId ≤ routeId ∧
    ¬(routeId = state.routeId ∧ slot ∈ state.slots)) .routeTaxContext
  if state.routeId < routeId then return ⟨state.router, routeId, [slot]⟩
  else do
    ensure (state.slots ≠ []) .routeTaxContext
    return ⟨state.router, state.routeId, state.slots ++ [slot]⟩

def consume (record : Option SettlementConsumption) (router : Addr)
    (ctx : RouteTaxContextResponse) (slot : ℕ) : Except ContractError SettlementConsumption := do
  ensure (ctx.routeId ≠ 0 ∧ ctx.transfers.length ≤ maxSettlementSlots ∧ slot < maxSettlementSlots)
    .routeTaxContext
  consumeFrom (recordOr record router) router ctx.routeId slot

/-- The router's one published refund of the payer's own input. -/
def restoresOwnedInput (env : Env) (ctx : RouteTaxContextResponse) (dst : Addr) (amount : ℕ) :
    Bool :=
  decide (dst = ctx.trader) && ctx.originalInputRefund.any fun refund =>
    refund.token == env.contract && refund.recipient == dst && refund.amount == amount

def executeRouteTransfer (s : Storage) (host : Host) (env : Env) (sender : Addr) (slot : ℕ)
    (recipient : Addr) (amount : ℕ) : Except ContractError Storage := do
  ensure (isOfficialRouter s.config sender) .unauthorized
  let dst ← host.addrValidate recipient
  let ctx ← routeContext host s.config
  ensure (⟨slot, env.contract, dst, amount⟩ ∈ ctx.transfers) .routeTaxContext
  let toBal ← orThrow (checkedAdd (s.balances dst) amount) .overflow
  applyLaunchGuards s env sender dst none .honest amount toBal
    (restoresOwnedInput env ctx dst amount)
  let record ← consume s.settlementConsumption sender ctx slot
  let balances ← subBalance s.balances sender amount
  let balances ← addBalance balances dst amount
  return { s with balances := balances, settlementConsumption := some record }

/-- Who may rotate: the contract's admin, or else the governance of its factory. -/
def governanceAuthority (s : Storage) (host : Host) (contract : ContractInfo) (sender : Addr) :
    Except ContractError (Option Addr) :=
  if contract.admin = some sender then .ok none
  else do
    let governance ← orThrow (host.factoryGovernance s.config.factory) (.std "Querier error")
    ensure (sender = governance) .unauthorized
    return some governance

def candidateGovernance (s : Storage) (host : Host) (authority : Option Addr) :
    Except ContractError Addr :=
  match authority with
  | some governance => .ok governance
  | none => orThrow (host.factoryGovernance s.config.factory) (.std "Querier error")

/-- A candidate that somebody could migrate must be owned by the factory's governance. -/
def checkCandidateAdmin (s : Storage) (host : Host) (authority : Option Addr)
    (live : ContractInfo) : Except ContractError Unit :=
  match live.admin with
  | none => .ok ()
  | some admin => do
      let governance ← candidateGovernance s host authority
      ensure (admin = governance) .routeTaxContext

/-- The replay floor of an approved candidate. -/
def candidateFloor (s : Storage) (host : Host) (authority : Option Addr) (candidate : Addr)
    (expectedCodeId : Option ℕ) (expectedChecksum : Option (List ℕ)) :
    Except ContractError ℕ := do
  let codeId ← orThrow expectedCodeId .routeTaxContext
  let checksum ← orThrow expectedChecksum .routeTaxContext
  let live ← orThrow (host.contractInfo candidate) (.std "Querier error")
  let code ← orThrow (host.codeChecksum live.codeId) (.std "Querier error")
  checkCandidateAdmin s host authority live
  let capability ← orThrow (host.routerConfig candidate) (.std "Querier error")
  ensure (checksum.length = 32 ∧ live.codeId = codeId ∧ code = checksum ∧
    capability.factory = s.config.factory ∧ capability.fundingVersion = fundingVersion ∧
    capability.settlementVersion = settlementVersion ∧
    (host.routeTaxContext candidate).isNone) .routeTaxContext
  return match s.settlementConsumption with
    | none => capability.lastRouteId
    | some consumed =>
        if consumed.router = candidate then max capability.lastRouteId consumed.routeId
        else capability.lastRouteId

def validateOpt (host : Host) (a : Option Addr) : Except ContractError (Option Addr) :=
  match a with
  | some a => do
      let a ← host.addrValidate a
      return some a
  | none => return none

/-- The record that a rotation leaves: empty at the floor, or none once the trust is revoked. -/
def rotatedRecord (s : Storage) (host : Host) (authority : Option Addr) (candidate : Option Addr)
    (expectedCodeId : Option ℕ) (expectedChecksum : Option (List ℕ)) :
    Except ContractError (Option SettlementConsumption) :=
  match candidate with
  | some candidate => do
      let floor ← candidateFloor s host authority candidate expectedCodeId expectedChecksum
      return some ⟨candidate, floor, []⟩
  | none => do
      ensure (expectedCodeId.isNone ∧ expectedChecksum.isNone) .routeTaxContext
      return none

/-- The old router loses its exemption unless it holds another role. -/
def rotatedExempt (s : Storage) (env : Env) (candidate : Option Addr) : Addr → Bool := fun a =>
  if candidate = some a then true
  else if s.config.router = some a ∧ ¬(a = env.contract ∨ a = s.config.factory ∨
      s.config.autolp = some a ∨ s.listedPairs a) then false
  else s.protocolExempt a

def rotate (s : Storage) (host : Host) (env : Env) (sender : Addr) (router : Option Addr)
    (expectedCodeId : Option ℕ) (expectedChecksum : Option (List ℕ)) :
    Except ContractError Storage := do
  let contract ← orThrow (host.contractInfo env.contract) (.std "Querier error")
  let authority ← governanceAuthority s host contract sender
  let candidate ← validateOpt host router
  let record ← rotatedRecord s host authority candidate expectedCodeId expectedChecksum
  return { s with
    config := { s.config with router := candidate }
    protocolExempt := rotatedExempt s env candidate
    settlementConsumption := record }

end Cl8yDex.CommunityTax

/-!
## The entry points of the community-tax token

The messages that move balances, the supply or the trust in the router. The other messages only
edit the configuration.
-/

namespace Cl8yDex.CommunityTax

open Outcome

inductive ExecuteMsg
  | transfer (recipient : Addr) (amount : ℕ)
  | send (contract : Addr) (amount : ℕ) (msg : HookMsg)
  | transferFrom (owner recipient : Addr) (amount : ℕ)
  | sendFrom (owner contract : Addr) (amount : ℕ) (msg : HookMsg)
  | burn (amount : ℕ)
  | burnFrom (owner : Addr) (amount : ℕ)
  | mint (recipient : Addr) (amount : ℕ)
  | routeTransfer (slot : ℕ) (recipient : Addr) (amount : ℕ)
  | rotateRouter (router : Option Addr) (expectedCodeId : Option ℕ)
      (expectedChecksum : Option (List ℕ))

/-- The callback that a `Send` attaches. -/
structure ReceiveHook where
  contract : Addr
  sender : Addr
  amount : ℕ
  msg : HookMsg

structure Response where
  transfer : Option TransferReport
  hook : Option ReceiveHook

def checkMintCap (info : TokenInfo) (mint : MinterData) (amount : ℕ) :
    Except ContractError Unit :=
  match mint.cap with
  | none => .ok ()
  | some cap => do
      let raised ← orThrow (checkedAdd info.totalSupply amount) .overflow
      ensure (raised ≤ cap) (.std "mint cap exceeded")

def executeMint (s : Storage) (host : Host) (sender recipient : Addr) (amount : ℕ) :
    Except ContractError Storage := do
  ensure (s.features.mintControl = true) .mintDisabled
  ensure (s.config.mintRevoked = false) .mintRevoked
  let rcpt ← host.addrValidate recipient
  let mint ← orThrow s.tokenInfo.mint .mintDisabled
  ensure (mint.minter = sender) .unauthorized
  checkMintCap s.tokenInfo mint amount
  let balances ← addBalance s.balances rcpt amount
  let supply ← orThrow (checkedAdd s.tokenInfo.totalSupply amount) .overflow
  return { s with balances := balances, tokenInfo := { s.tokenInfo with totalSupply := supply } }

section Handlers

variable (s : Storage) (host : Host) (env : Env) (sender : Addr)

def executeTransfer (recipient : Addr) (amount : ℕ) :
    Except ContractError (Storage × Response) := do
  let dst ← host.addrValidate recipient
  let out ← applyTransfer s host env sender dst amount none
  return (out.1, ⟨some out.2, none⟩)

/-- The callback carries what the receiver was credited. -/
def executeSend (contract : Addr) (amount : ℕ) (msg : HookMsg) :
    Except ContractError (Storage × Response) := do
  let dst ← host.addrValidate contract
  let out ← applyTransfer s host env sender dst amount (some msg)
  return (out.1, ⟨some out.2, some ⟨dst, sender, out.2.amount, msg⟩⟩)

def deductAllowance (owner : Addr) (amount : ℕ) : Except ContractError Storage := do
  let allowances ← orThrow (host.deductAllowance s.allowances owner sender env amount) .cw20
  return { s with allowances := allowances }

def executeTransferFrom (owner recipient : Addr) (amount : ℕ) :
    Except ContractError (Storage × Response) := do
  let owner ← host.addrValidate owner
  let dst ← host.addrValidate recipient
  let s ← deductAllowance s host env sender owner amount
  let out ← applyTransfer s host env owner dst amount none
  return (out.1, ⟨some out.2, none⟩)

/-- The allowance pays the whole debit, tax included. -/
def executeSendFrom (owner contract : Addr) (amount : ℕ) (msg : HookMsg) :
    Except ContractError (Storage × Response) := do
  let owner ← host.addrValidate owner
  let dst ← host.addrValidate contract
  let debit ← previewDebit s env.contract owner dst amount (some msg)
  let s ← deductAllowance s host env sender owner debit
  let out ← applyTransfer s host env owner dst amount (some msg)
  return (out.1, ⟨some out.2, some ⟨dst, owner, out.2.amount, msg⟩⟩)

def executeBurnFrom (owner : Addr) (amount : ℕ) : Except ContractError Storage := do
  let owner ← host.addrValidate owner
  let s ← deductAllowance s host env sender owner amount
  burnTokens s owner amount

/-- A handler without report or callback. -/
def plain (x : Except ContractError Storage) : Except ContractError (Storage × Response) := do
  let s ← x
  return (s, ⟨none, none⟩)

def execute : ExecuteMsg → Except ContractError (Storage × Response)
  | .transfer recipient amount => executeTransfer s host env sender recipient amount
  | .send contract amount msg => executeSend s host env sender contract amount msg
  | .transferFrom owner recipient amount =>
      executeTransferFrom s host env sender owner recipient amount
  | .sendFrom owner contract amount msg =>
      executeSendFrom s host env sender owner contract amount msg
  | .burn amount => plain (burnTokens s sender amount)
  | .burnFrom owner amount => plain (executeBurnFrom s host env sender owner amount)
  | .mint recipient amount => plain (executeMint s host sender recipient amount)
  | .routeTransfer slot recipient amount =>
      plain (executeRouteTransfer s host env sender slot recipient amount)
  | .rotateRouter router expectedCodeId expectedChecksum =>
      plain (rotate s host env sender router expectedCodeId expectedChecksum)

/-- A call that fails leaves the storage as it was. -/
def transact (msg : ExecuteMsg) : Storage :=
  match execute s host env sender msg with
  | .ok out => out.1
  | .error _ => s

end Handlers

end Cl8yDex.CommunityTax
