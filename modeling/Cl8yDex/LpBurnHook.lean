import Cl8yDex.Environment
import Cl8yDex.Pair

/-!
# The LP-burn hook

After a swap of its target pair the hook burns LP tokens that it holds, as a share of the swap's
output. A hook without LP tokens lets the swap pass.
-/

namespace Cl8yDex.LpBurn

open Outcome

structure LpBurnHookConfig where
  targetPair : Addr
  lpToken : Addr
  percentageBps : ℕ
  admin : Addr

structure LpBurnHook where
  config : LpBurnHookConfig
  allowedPairs : Addr → Bool

inductive HookError
  | std
  | overflow
  | unauthorized
  | unauthorizedHookCaller (sender : Addr)
  | invalidBps (value : ℕ)
  | pairSenderMismatch (pair sender : Addr)
  | invalidPairContract (sender : Addr)
  | pairLpTokenMismatch (pair pairLp configLp : Addr)
  deriving DecidableEq

/-- What the hook asks the chain: the `Pair {}` query of a contract and the hook's own balance of a
token. -/
structure HookQuerier where
  validAddr : Addr → Bool
  pairInfo : Addr → Option PairInfo
  balance : Addr → Option ℕ

def HookQuerier.addrValidate (q : HookQuerier) (a : Addr) : Except HookError Addr :=
  if q.validAddr a then .ok a else .error .std

namespace LpBurnHook

variable (h : LpBurnHook)

/-- `assert_pair_caller`. -/
def assertPairCaller (q : HookQuerier) (sender pair : Addr) : Except HookError Unit := do
  ensure (pair = sender) (.pairSenderMismatch pair sender)
  let pairInfo ← orThrow (q.pairInfo sender) (.invalidPairContract sender)
  ensure (pairInfo.lpToken = h.config.lpToken)
    (.pairLpTokenMismatch sender pairInfo.lpToken h.config.lpToken)

/-- The burn for an output: no more than the hook holds, and none of zero. -/
def burnAmount (targetBurn balance : ℕ) : Option ℕ :=
  if balance = 0 then none else some (min targetBurn balance)

/-- `execute_after_swap`: the LP tokens that the hook asks its token to burn, if any. -/
def executeAfterSwap (q : HookQuerier) (sender pair : Addr) (outputAmount : ℕ) :
    Except HookError (Option ℕ) := do
  h.assertPairCaller q sender pair
  if sender ≠ h.config.targetPair then return none
  else
    ensure (outputAmount * h.config.percentageBps ≤ u128Max) .overflow
    let targetBurn := outputAmount * h.config.percentageBps / 10000
    if targetBurn = 0 then return none
    else
      let balance ← orThrow (q.balance h.config.lpToken) .std
      return burnAmount targetBurn balance

/-- The `Hook` message: only a registered pair may call. -/
def executeHook (q : HookQuerier) (sender : Addr) (call : AfterSwap) :
    Except HookError (Option ℕ) := do
  ensure (h.allowedPairs sender) (.unauthorizedHookCaller sender)
  h.executeAfterSwap q sender call.pair call.returnAsset.amount

/-- A new address, or the one there is. -/
def newAddr (q : HookQuerier) (current : Addr) : Option Addr → Except HookError Addr
  | some a => q.addrValidate a
  | none => .ok current

def newBps (current : ℕ) : Option ℕ → Except HookError ℕ
  | some bps => do
      ensure (bps ≤ 10000) (.invalidBps bps)
      return bps
  | none => .ok current

def executeUpdateConfig (q : HookQuerier) (sender : Addr) (targetPair lpToken : Option Addr)
    (percentageBps : Option ℕ) : Except HookError LpBurnHook := do
  ensure (sender = h.config.admin) .unauthorized
  let targetPair ← newAddr q h.config.targetPair targetPair
  let lpToken ← newAddr q h.config.lpToken lpToken
  let percentageBps ← newBps h.config.percentageBps percentageBps
  return { h with config := ⟨targetPair, lpToken, percentageBps, h.config.admin⟩ }

def addPair (q : HookQuerier) (allowed : Addr → Bool) (pair : Addr) :
    Except HookError (Addr → Bool) := do
  let addr ← q.addrValidate pair
  let _ ← orThrow (q.pairInfo addr) (.invalidPairContract addr)
  return Function.update allowed addr true

def removePair (q : HookQuerier) (allowed : Addr → Bool) (pair : Addr) :
    Except HookError (Addr → Bool) := do
  let addr ← q.addrValidate pair
  return Function.update allowed addr false

def executeUpdateAllowedPairs (q : HookQuerier) (sender : Addr) (add remove : List Addr) :
    Except HookError LpBurnHook := do
  ensure (sender = h.config.admin) .unauthorized
  let allowed ← add.foldlM (addPair q) h.allowedPairs
  let allowed ← remove.foldlM (removePair q) allowed
  return { h with allowedPairs := allowed }

section Spec

variable {h} {q : HookQuerier} {sender pair : Addr} {outputAmount : ℕ}

/-- The hook burns LP tokens of the pair that calls it, as many as it holds at most. -/
theorem executeAfterSwap_spec : Meets (h.executeAfterSwap q sender pair outputAmount)
    (fun burn => ∀ n, burn = some n → ∃ info balance, q.pairInfo sender = some info ∧
      h.config.lpToken = info.lpToken ∧ q.balance info.lpToken = some balance ∧
      n = min (outputAmount * h.config.percentageBps / 10000) balance ∧ 0 < n)
    (fun _ => True) := by
  unfold executeAfterSwap assertPairCaller
  refine Meets.bind (Q := fun _ => ∃ info, q.pairInfo sender = some info ∧
    info.lpToken = h.config.lpToken) ?_ fun _ hinfo => ?_
  · apply (meets_ensure fun _ => trivial).bind
    intro _ _
    apply (meets_orThrow fun _ => trivial).bind
    intro info hinfo
    exact (meets_ensure fun _ => trivial).weaken fun _ hlp => ⟨info, hinfo, hlp⟩
  · obtain ⟨info, hinfo, hlp⟩ := hinfo
    split_ifs with hpair
    · intro n hn
      cases hn
    · apply (meets_ensure fun _ => trivial).bind
      intro _ _
      dsimp only
      split_ifs with hzero
      · intro n hn
        cases hn
      · apply (meets_orThrow fun _ => trivial).bind
        intro balance hbalance n hn
        unfold burnAmount at hn
        split_ifs at hn with hnone
        cases hn
        rw [← hlp] at hbalance
        exact ⟨info, balance, hinfo, hlp.symm, hbalance, rfl, by omega⟩

theorem executeHook_spec {call : AfterSwap} : Meets (h.executeHook q sender call)
    (fun burn => ∀ n, burn = some n → ∃ info balance, q.pairInfo sender = some info ∧
      h.config.lpToken = info.lpToken ∧ q.balance info.lpToken = some balance ∧
      n = min (call.returnAsset.amount * h.config.percentageBps / 10000) balance ∧ 0 < n)
    (fun _ => True) := by
  apply (meets_ensure fun _ => trivial).bind
  intro _ _
  exact executeAfterSwap_spec

end Spec

end LpBurnHook

end Cl8yDex.LpBurn
