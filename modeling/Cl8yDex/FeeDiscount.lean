import Cl8yDex.Environment

/-!
# Fee discounts

The registry's discount for a trader, with the short-lived cache the pair keeps of it. The cached
answer is served while it is fresh; a failed query falls back to the full fee.
-/

namespace Cl8yDex

open Outcome

def resolveLimitDiscountBps (limitDiscountBps : Option ℕ) (discountBps : ℕ) : ℕ :=
  limitDiscountBps.getD discountBps

def effectiveFeeBps (feeBps discountBps : ℕ) : ℕ := feeBps * (10000 - discountBps) / 10000

structure DiscountCacheEntry where
  effectiveFeeBps : ℕ
  discount : DiscountResponse
  cachedAt : ℕ
  deriving DecidableEq

abbrev DiscountCache := Addr → Addr → Option DiscountCacheEntry

namespace DiscountCache

def save (c : DiscountCache) (trader sender : Addr) (entry : Option DiscountCacheEntry) :
    DiscountCache := fun t s => if t = trader ∧ s = sender then entry else c t s

end DiscountCache

def DiscountCacheEntry.isFresh (entry : DiscountCacheEntry) (blockTime : ℕ) : Bool :=
  blockTime - entry.cachedAt < discountCacheTtlSeconds

/-- The cached discount, when it is fresh and settled. -/
def tryDiscountCacheHit (q : Querier) (c : DiscountCache) (blockTime : ℕ) (trader sender : Addr) :
    Except ContractError (Option (ℕ × DiscountResponse)) := do
  let trader ← q.addrValidate trader
  let sender ← q.addrValidate sender
  return ((c trader sender).filter fun entry =>
    entry.isFresh blockTime ∧ ¬entry.discount.needsDeregister).map fun entry =>
      (entry.effectiveFeeBps, entry.discount)

def saveDiscountCache (c : DiscountCache) (trader sender : Addr) (blockTime effectiveFeeBps : ℕ)
    (discount : DiscountResponse) : DiscountCache :=
  if discount.needsDeregister then c
  else c.save trader sender (some ⟨effectiveFeeBps, discount, blockTime⟩)

/-- The registry lookup behind a cache miss, written through to the cache. -/
def lookupRegistry (q : Querier) (c : DiscountCache) (blockTime feeBps : ℕ)
    (registry trader sender : Addr) :
    Except ContractError (DiscountCache × ℕ × Option DiscountResponse) :=
  match q.getDiscount registry trader sender with
  | none => .ok (c, feeBps, none)
  | some discount => do
      let effective := effectiveFeeBps feeBps discount.discountBps
      let trader ← q.addrValidate trader
      let sender ← q.addrValidate sender
      return (saveDiscountCache c trader sender blockTime effective discount, effective,
        some discount)

def lookupEffectiveFeeBpsCached (q : Querier) (c : DiscountCache) (blockTime feeBps : ℕ)
    (discountRegistry : Option Addr) (trader sender : Addr) :
    Except ContractError (DiscountCache × ℕ × Option DiscountResponse) :=
  match discountRegistry with
  | none => .ok (c, feeBps, none)
  | some registry => do
      match ← tryDiscountCacheHit q c blockTime trader sender with
      | some (bps, discount) => return (c, bps, some discount)
      | none => lookupRegistry q c blockTime feeBps registry trader sender

/-- The lookup of a quote, which does not write the cache. -/
def lookupEffectiveFeeBpsReadonly (q : Querier) (c : DiscountCache) (blockTime feeBps : ℕ)
    (discountRegistry : Option Addr) (trader sender : Addr) : ℕ :=
  match discountRegistry with
  | none => feeBps
  | some registry =>
      match tryDiscountCacheHit q c blockTime trader sender with
      | .ok (some (bps, _)) => bps
      | _ =>
          match q.getDiscount registry trader sender with
          | some discount => effectiveFeeBps feeBps discount.discountBps
          | none => feeBps

def deregisterMsgsForDiscount (registry trader : Addr) (discount : DiscountResponse) :
    List CosmosMsg :=
  if discount.needsDeregister then
    [.deregisterWallet registry trader discount.registrationEpoch]
  else []

/-- Ask the registry to drop a stale registration, and forget what was cached for it. -/
def settleDiscount (q : Querier) (c : DiscountCache) (discountRegistry : Option Addr)
    (trader sender : Addr) (discount : Option DiscountResponse) :
    Except ContractError (DiscountCache × List CosmosMsg) :=
  match discountRegistry, discount with
  | some registry, some discount =>
      let msgs := deregisterMsgsForDiscount registry trader discount
      if msgs = [] then .ok (c, msgs)
      else do
        let trader ← q.addrValidate trader
        let sender ← q.addrValidate sender
        return (c.save trader sender none, msgs)
  | _, _ => .ok (c, [])

/-- The taker's effective fee with the messages that settle a stale registration. -/
def effectiveFeeBpsWithDeregisterMsgs (q : Querier) (c : DiscountCache) (blockTime feeBps : ℕ)
    (discountRegistry : Option Addr) (trader sender : Addr) :
    Except ContractError (DiscountCache × ℕ × List CosmosMsg) := do
  let (c, bps, discount) ← lookupEffectiveFeeBpsCached q c blockTime feeBps discountRegistry trader
    sender
  let (c, msgs) ← settleDiscount q c discountRegistry trader sender discount
  return (c, bps, msgs)

/-- The maker's fee on placement follows the limit discount of the owner. -/
def effectiveFeeBpsWithDiscountMsgs (q : Querier) (c : DiscountCache) (blockTime feeBps : ℕ)
    (discountRegistry : Option Addr) (owner : Addr) :
    Except ContractError (DiscountCache × ℕ × List CosmosMsg) := do
  let (c, _, discount) ← lookupEffectiveFeeBpsCached q c blockTime feeBps discountRegistry owner
    owner
  let limitEffective := match discount with
    | some d => effectiveFeeBps feeBps (resolveLimitDiscountBps d.limitDiscountBps d.discountBps)
    | none => feeBps
  let (c, msgs) ← settleDiscount q c discountRegistry owner owner discount
  return (c, limitEffective, msgs)

end Cl8yDex
