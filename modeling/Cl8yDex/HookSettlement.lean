import Cl8yDex.Environment

/-!
# Fee hooks

Tax and burn hooks charge a share of the swap output. Their configuration is queried before the
settlement, and an answer that is missing, partial or ambiguous stops the swap.
-/

namespace Cl8yDex

open Outcome

inductive HookFeeKind
  | tax (recipient : Addr)
  | burn
  deriving DecidableEq

structure HookFeeDeduction where
  hook : Addr
  token : Addr
  amount : ℕ
  kind : HookFeeKind
  deriving DecidableEq

def stdErr (msg : String) : ContractError := .std (.genericErr msg)

def validateHookCount (count : ℕ) : Except ContractError Unit :=
  ensure (count ≤ maxPairHooks)
    (stdErr ("Too many pair hooks: " ++ toString count ++ "; maximum " ++ toString maxPairHooks))

/-- The first repeated hook of the list, if any. -/
def firstDuplicate : List Addr → List Addr → Option Addr
  | _, [] => none
  | seen, h :: l => if h ∈ seen then some h else firstDuplicate (seen ++ [h]) l

def validateStoredHooks (hooks : List Addr) : Except ContractError Unit := do
  validateHookCount hooks.length
  match firstDuplicate [] hooks with
  | some h => throw (stdErr ("Duplicate pair hook: " ++ toString h))
  | none => return ()

def validatePairHooks (q : Querier) (hooks : List Addr) : Except ContractError (List Addr) := do
  validateHookCount hooks.length
  let validated ← hooks.mapM q.addrValidate
  validateStoredHooks validated
  return validated

def bpsOfAmount (amount bps : ℕ) : Except ContractError ℕ := do
  ensure (bps ≤ 10000) (stdErr "unsupported hook pricing: bps exceeds 10000")
  return amount * bps / 10000

/-- The three supported kinds of hook; only the first two charge the output. -/
inductive HookPricing
  | fee (token : Addr) (bps : ℕ) (kind : HookFeeKind)
  | lpBurn
  deriving DecidableEq

def unsupportedHook (hook : Addr) : ContractError :=
  stdErr ("unsupported hook pricing: " ++ toString hook ++ " config")

def taxPricing (q : Querier) (hook : Addr) (cfg : HookConfigResponse) :
    Except ContractError HookPricing := do
  let token ← orThrow cfg.taxToken (unsupportedHook hook)
  let token ← q.addrValidate token
  let bps ← orThrow cfg.taxPercentageBps (unsupportedHook hook)
  let recipient ← orThrow cfg.recipient (unsupportedHook hook)
  let recipient ← q.addrValidate recipient
  return .fee token bps (.tax recipient)

def burnPricing (q : Querier) (hook : Addr) (cfg : HookConfigResponse) :
    Except ContractError HookPricing := do
  let token ← orThrow cfg.burnToken (unsupportedHook hook)
  let token ← q.addrValidate token
  let bps ← orThrow cfg.burnPercentageBps (unsupportedHook hook)
  return .fee token bps .burn

def lpPricing (q : Querier) (hook : Addr) (cfg : HookConfigResponse) :
    Except ContractError HookPricing := do
  let targetPair ← orThrow cfg.targetPair (unsupportedHook hook)
  let _ ← q.addrValidate targetPair
  let lpToken ← orThrow cfg.lpToken (unsupportedHook hook)
  let _ ← q.addrValidate lpToken
  let bps ← orThrow cfg.percentageBps (unsupportedHook hook)
  let _ ← bpsOfAmount 0 bps
  return .lpBurn

def hookPricing (q : Querier) (hook : Addr) (cfg : HookConfigResponse) :
    Except ContractError HookPricing :=
  let tax := cfg.recipient.isSome || cfg.taxPercentageBps.isSome || cfg.taxToken.isSome
  let burn := cfg.burnToken.isSome || cfg.burnPercentageBps.isSome
  let lp := cfg.targetPair.isSome || cfg.lpToken.isSome || cfg.percentageBps.isSome
  match tax, burn, lp with
  | true, false, false => taxPricing q hook cfg
  | false, true, false => burnPricing q hook cfg
  | false, false, true => lpPricing q hook cfg
  | _, _, _ => .error (unsupportedHook hook)

/-- One hook's charge, with the running total of the shares. -/
def hookDeduction (q : Querier) (ask totalReturn totalBps : ℕ) (hook : Addr) :
    Except ContractError (ℕ × List HookFeeDeduction) := do
  let cfg ← orThrow (q.hookConfig hook)
    (stdErr ("unsupported hook pricing: " ++ toString hook ++ " GetConfig unavailable"))
  match ← hookPricing q hook cfg with
  | .lpBurn => return (totalBps, [])
  | .fee token bps kind =>
      let amount ← bpsOfAmount totalReturn bps
      if token = ask then
        ensure (totalBps + bps ≤ 10000)
          (stdErr "hook deductions exceed output: total bps exceeds 10000")
        return (totalBps + bps, if amount = 0 then [] else [⟨hook, token, amount, kind⟩])
      else return (totalBps, [])

def collectDeductions (q : Querier) (ask totalReturn : ℕ) :
    List Addr → ℕ → Except ContractError (List HookFeeDeduction)
  | [], _ => .ok []
  | hook :: hooks, totalBps => do
      let (totalBps, ds) ← hookDeduction q ask totalReturn totalBps hook
      let rest ← collectDeductions q ask totalReturn hooks totalBps
      return ds ++ rest

def collectFeeHookDeductions (q : Querier) (hooks : List Addr) (askToken : Addr)
    (totalReturn : ℕ) : Except ContractError (List HookFeeDeduction) := do
  validateStoredHooks hooks
  let ask ← q.addrValidate askToken
  collectDeductions q ask totalReturn hooks 0

/-- The sum of the deductions, or none when it overflows. -/
def sumDeductions : ℕ → List HookFeeDeduction → Except ContractError ℕ
  | acc, [] => .ok acc
  | acc, d :: ds => do
      let acc ← addOrOverflow acc d.amount
      sumDeductions acc ds

def netReturnAfterHooks (totalReturn : ℕ) (deductions : List HookFeeDeduction) :
    Except ContractError ℕ := do
  let total ← sumDeductions 0 deductions
  subOrOverflow totalReturn total

def HookFeeDeduction.recipient (d : HookFeeDeduction) : Addr :=
  match d.kind with
  | .tax recipient => recipient
  | .burn => d.hook

def feeSettlementTransferMessages (deductions : List HookFeeDeduction) : List CosmosMsg :=
  deductions.map fun d => .transfer d.token d.recipient d.amount

end Cl8yDex
