import Cl8yDex.HybridListing
import Cl8yDex.Types

/-!
# Local quotes of pool legs

What the indexer knows of one hop: the mirrored reserves and commission of its pair, the cached
deductions of the pair's hooks, and the rates of its two tokens. A leg is priced forwards from these
alone. Products that do not fit a machine integer go through a decimal library, whose truncated
quotient is a parameter.
-/

namespace Cl8yDex.LocalQuote

open Outcome Listing

inductive MirrorFreshness
  | fresh
  | missingReserves
  | stale
  | emptyPool
  deriving DecidableEq

structure HopMirror where
  asset0Addr : Addr
  asset1Addr : Addr
  reserve0 : ℕ
  reserve1 : ℕ
  feeBps : ℕ
  freshness : MirrorFreshness
  reserve0_le : reserve0 ≤ u128Max
  reserve1_le : reserve1 ≤ u128Max

inductive DbSimError
  | invalidNumeric
  | insufficientLiquidity
  | implausibleHop
  deriving DecidableEq

structure LocalLegQuote where
  returnAmount : ℕ
  poolReturnAmount : ℕ
  commissionAmount : ℕ
  spreadAmount : ℕ
  poolInputActual : ℕ
  deriving DecidableEq

/-- The decimal library divides to a hundred digits, which leaves the whole part of a quotient of
wide integers exact. -/
structure WideDivision where
  truncated : ℕ → ℕ → ℕ
  truncated_eq : ∀ n d, 0 < d → d ≤ u128Max → n ≤ u256Max → truncated n d = n / d

section Pool

variable (wide : WideDivision)

def ceilDivWide (inputReserve outputReserve newIn : ℕ) : Except DbSimError ℕ := do
  ensure (newIn ≠ 0) .invalidNumeric
  let numer := inputReserve * outputReserve + newIn - 1
  let ceil := wide.truncated numer newIn
  ensure (ceil ≤ u128Max) .invalidNumeric
  return ceil

def newOutputReserve (inputReserve outputReserve newIn : ℕ) : Except DbSimError ℕ :=
  match checkedMul inputReserve outputReserve with
  | some k => .ok (ceilDiv k newIn)
  | none => ceilDivWide wide inputReserve outputReserve newIn

def simulatePoolLeg (inputReserve outputReserve poolInput feeBps : ℕ) : Except DbSimError ℕ :=
  if poolInput = 0 then .ok 0
  else do
    ensure (inputReserve ≠ 0 ∧ outputReserve ≠ 0) .insufficientLiquidity
    let newIn ← orThrow (checkedAdd inputReserve poolInput) .invalidNumeric
    ensure (newIn ≠ 0) .invalidNumeric
    let newOut ← newOutputReserve wide inputReserve outputReserve newIn
    let gross := outputReserve - newOut
    ensure (gross ≤ outputReserve) .implausibleHop
    return gross - swapFeeAmount gross feeBps

/-- The reserves as the offered token sees them. -/
def HopMirror.reserves (m : HopMirror) (offerToken : Addr) : Option (ℕ × ℕ) :=
  if offerToken = m.asset0Addr then some (m.reserve0, m.reserve1)
  else if offerToken = m.asset1Addr then some (m.reserve1, m.reserve0)
  else none

def idealOutput (inputReserve outputReserve actual : ℕ) : Except DbSimError ℕ :=
  if actual = 0 then .ok 0
  else do
    ensure (actual * outputReserve / inputReserve ≤ u128Max) .invalidNumeric
    return actual * outputReserve / inputReserve

/-- The local quote of an offer that does not touch the book. -/
def quoteLocalLeg (m : HopMirror) (offerToken : Addr) (offer : ℕ) :
    Except DbSimError LocalLegQuote := do
  ensure (m.feeBps ≤ 10000 ∧ (m.freshness = .fresh ∨ m.freshness = .emptyPool)) .invalidNumeric
  let reserves ← orThrow (m.reserves offerToken) .invalidNumeric
  let gross ← simulatePoolLeg wide reserves.1 reserves.2 offer 0
  let commission := swapFeeAmount gross m.feeBps
  let poolNet ← orThrow (checkedSub gross commission) .invalidNumeric
  let ideal ← idealOutput reserves.1 reserves.2 offer
  return ⟨poolNet, poolNet, commission, ideal - gross, offer⟩

end Pool

section Tax

/-- Split before multiplying, like the commission. -/
def taxAmount (amount bps : ℕ) : ℕ :=
  amount / 10000 * min bps 10000 + amount % 10000 * min bps 10000 / 10000

def sellSearch (gross bps : ℕ) : ℕ → ℕ → ℕ → ℕ
  | 0, lo, _ => lo
  | steps + 1, lo, hi =>
      if lo < hi then
        let mid := lo + (hi - lo) / 2 + (hi - lo) % 2
        if ∃ total ∈ checkedAdd mid (taxAmount mid bps), total ≤ gross then
          sellSearch gross bps steps mid hi
        else sellSearch gross bps steps lo (mid - 1)
      else lo

/-- A bracket of machine integers is left after 128 halvings. -/
def searchSteps : ℕ := 129

def sellEconomic (gross bps : ℕ) : ℕ := sellSearch gross bps searchSteps 0 gross

/-- What a gross offer sells, its tax, and what is left over. -/
def sell (gross bps : ℕ) : Option (ℕ × ℕ × ℕ) :=
  if 10000 < bps then none
  else if bps = 0 then some (gross, 0, 0)
  else do
    let economic := sellEconomic gross bps
    let tax := taxAmount economic bps
    let total ← checkedAdd economic tax
    let left ← checkedSub gross total
    return (economic, tax, left)

def buy (gross bps : ℕ) : Option (ℕ × ℕ) :=
  if 10000 < bps then none
  else do
    let tax := taxAmount gross bps
    let net ← checkedSub gross tax
    return (net, tax)

def buySearch (target bps : ℕ) : ℕ → ℕ → ℕ → Option ℕ
  | 0, _, _ => none
  | steps + 1, lo, hi =>
      if lo < hi then do
        let mid := lo + (hi - lo) / 2
        let bought ← buy mid bps
        if target ≤ bought.1 then buySearch target bps steps lo mid
        else buySearch target bps steps (mid + 1) hi
      else some lo

/-- The smallest gross purchase that delivers the target. -/
def inverseBuy (target bps : ℕ) : Option ℕ :=
  if bps = 0 then some target
  else if 10000 < bps then none
  else do
    let most ← buy u128Max bps
    guard (target ≤ most.1)
    buySearch target bps searchSteps target u128Max

end Tax

section Hooks

structure CachedHookDeduction where
  token : Addr
  bps : ℕ

structure CachedHookPrices where
  deductions : List CachedHookDeduction

def CachedHookPrices.fees (h : CachedHookPrices) (ask : Addr) : List ℕ :=
  (h.deductions.filter fun d => d.token = ask).map CachedHookDeduction.bps

/-- One hook's deduction; the quotient and the remainder are charged apart. -/
def hookAmount (original bps : ℕ) : ℕ :=
  original / 10000 * bps + original % 10000 * bps / 10000

def netLoop (original : ℕ) : List ℕ → ℕ → ℕ → Except String ℕ
  | [], _, total => orThrow (checkedSub original total) "hook deductions exceed output"
  | bps :: fees, totalBps, total => do
      ensure (totalBps + bps ≤ 10000) "hook deductions exceed output"
      let total ← orThrow (checkedAdd total (hookAmount original bps))
        "hook deductions exceed output"
      netLoop original fees (totalBps + bps) total

def CachedHookPrices.netReturn (h : CachedHookPrices) (ask original : ℕ) : Except String ℕ :=
  netLoop original (h.fees ask) 0 0

/-- The residues of the original amount, and a tree of the maxima of what they keep. -/
structure HookInverse where
  retainedBps : ℕ
  kept : ℕ → ℕ

/-- The tree is as wide as the next power of two: its leaves beyond the residues keep nothing. -/
def keptResidue (fees : List ℕ) (r : ℕ) : ℕ :=
  if r < 10000 then r - (fees.map fun f => r * f / 10000).sum else 0

def HookInverse.build (fees : List ℕ) : Option HookInverse := do
  let retainedBps ← checkedSub 10000 fees.sum
  return ⟨retainedBps, keptResidue fees⟩

def treeHeight : ℕ := 14

namespace HookInverse

variable (h : HookInverse)

/-- The node of a height that begins at a leaf. -/
def maxima : ℕ → ℕ → ℕ
  | 0, start => h.kept start
  | height + 1, start => max (maxima height start) (maxima height (start + 2 ^ height))

/-- The first residue from `lower` on that keeps at least the target. -/
def first (lower target : ℕ) : ℕ → ℕ → Option ℕ
  | height, start =>
      if start + 2 ^ height ≤ lower ∨ 10000 ≤ start ∨ h.maxima height start < target then none
      else
        match height with
        | 0 => some start
        | height + 1 =>
            (first lower target height start).or (first lower target height (start + 2 ^ height))

def assemble (quotient residue : ℕ) : Option ℕ := do
  let whole ← checkedMul quotient 10000
  checkedAdd whole residue

def firstQuotient (target : ℕ) : Option ℕ :=
  if target ≤ h.maxima treeHeight 0 then some 0
  else if h.retainedBps = 0 then none
  else
    let difference := target - h.maxima treeHeight 0
    some (difference / h.retainedBps + if difference % h.retainedBps ≠ 0 then 1 else 0)

/-- The next quotient always has a residue that reaches the target. -/
def grossAfter (target quotient : ℕ) : Option ℕ := do
  let quotient ← checkedAdd quotient 1
  let paid ← checkedMul quotient h.retainedBps
  let residue ← h.first 0 (target - paid) treeHeight 0
  assemble quotient residue

def grossFrom (target lower : ℕ) : Option ℕ := do
  guard (target ≠ 0)
  let firstQuotient ← h.firstQuotient target
  let lowerQuotient := lower / 10000
  let quotient := max firstQuotient lowerQuotient
  let residueStart := if quotient = lowerQuotient then lower % 10000 else 0
  let paid ← checkedMul quotient h.retainedBps
  match h.first residueStart (target - paid) treeHeight 0 with
  | some residue => assemble quotient residue
  | none => h.grossAfter target quotient

end HookInverse

def CachedHookPrices.inverseReturnFrom (h : CachedHookPrices) (ask target lower : ℕ) :
    Except String ℕ :=
  if h.fees ask = [] then do
    ensure (0 < target) "zero hook target"
    return max target lower
  else
    orThrow ((HookInverse.build (h.fees ask)).bind fun p => p.grossFrom target lower)
      "hook inverse unavailable"

end Hooks

/-- A hop with the reserves in the direction of its offer. -/
structure PoolLeg where
  mirror : HopMirror
  offer : Addr
  ask : Addr
  hooks : Option CachedHookPrices
  sellBps : ℕ
  buyBps : ℕ
  reserveIn : ℕ
  reserveOut : ℕ
  oriented : mirror.reserves offer = some (reserveIn, reserveOut)

namespace PoolLeg

variable (wide : WideDivision) (leg : PoolLeg)

def original (economic : ℕ) : Option ℕ :=
  (quoteLocalLeg wide leg.mirror leg.offer economic).toOption.map LocalLegQuote.returnAmount

/-- What the hooks of the pair leave of its output. -/
def postHook (original : ℕ) : Option ℕ :=
  match leg.hooks with
  | none => some original
  | some hooks => (hooks.netReturn leg.ask original).toOption

def delivered (original : ℕ) : Option ℕ := do
  let post ← leg.postHook original
  let bought ← buy post leg.buyBps
  return bought.1

def forward (gross : ℕ) : Option (ℕ × ℕ) := do
  let sold ← sell gross leg.sellBps
  let original ← leg.original wide sold.1
  let delivered ← leg.delivered original
  return (delivered, original)

end PoolLeg

end Cl8yDex.LocalQuote
