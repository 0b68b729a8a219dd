import Cl8yDex.Swap

/-!
# The reverse quote

How much has to be offered for an output. The pool alone is inverted in closed form; a declared
split is searched, with probes that are proposed from a snapshot of the pool and of the first maker
and decided by the forward quote. A search answers with the offers it tried and its result.
-/

namespace Cl8yDex

open Outcome

/-- The panicking operators of the module. -/
def subOrAbort (a b : ℕ) : Except ContractError ℕ :=
  orThrow (checkedSub a b) (.abort .reverseSearch)

def divOrAbort (a b : ℕ) : Except ContractError ℕ :=
  orThrow (checkedDiv a b) (.abort .reverseSearch)

def add256OrAbort (a b : ℕ) : Except ContractError ℕ :=
  orThrow (checkedAdd256 a b) (.abort .reverseSearch)

def ceilDivOrAbort (numerator denominator : ℕ) : Except ContractError ℕ := do
  let _ ← divOrAbort numerator denominator
  return ceilDivU256 numerator denominator

def narrowStd (value : ℕ) (ctx : String) : Except ContractError ℕ :=
  if value ≤ u128Max then .ok value
  else .error (stdErr ("256-bit result exceeds u128 (" ++ ctx ++ ")"))

def narrow? (value : ℕ) : Option ℕ := if value ≤ u128Max then some value else none

/-- The pool leg's net output for a pool input. -/
def poolNetOutputForInput (poolInput inputReserve outputReserve effectiveFeeBps : ℕ) :
    Except ContractError ℕ :=
  if poolInput = 0 then .ok 0
  else do
    ensure (inputReserve ≠ 0 ∧ outputReserve ≠ 0) (stdErr "pool reserves empty")
    let k ← mul256OrOverflow inputReserve outputReserve
    let newInputReserve ← addOrOverflow inputReserve poolInput
    let quotient ← ceilDivOrAbort k newInputReserve
    let newOutputReserve ← narrowStd quotient "pool_net new_output_reserve"
    let grossOutput ← subOrOverflow outputReserve newOutputReserve
    let commission ← poolCommission grossOutput effectiveFeeBps
    subOrOverflow grossOutput commission

/-- The least gross output whose net meets a positive target. -/
def grossForNet (effectiveFeeBps targetNet : ℕ) : Except ContractError ℕ := do
  let below ← subOrOverflow targetNet 1
  let scaled ← mul256OrOverflow below 10000
  let kept ← subOrAbort 10000 effectiveFeeBps
  let quotient ← divOrAbort scaled kept
  add256OrAbort quotient 1

def minPoolInputForNetOutput (inputReserve outputReserve effectiveFeeBps targetNet : ℕ) :
    Except ContractError ℕ :=
  if targetNet = 0 then .ok 0
  else do
    ensure (inputReserve ≠ 0 ∧ outputReserve ≠ 0) (stdErr "pool reserves empty")
    ensure (effectiveFeeBps < 10000)
      (stdErr "pool cannot satisfy net output target: fee >= 100%")
    let gross ← grossForNet effectiveFeeBps targetNet
    ensure (gross < outputReserve) (stdErr "pool cannot satisfy net output target")
    let k ← mul256OrOverflow inputReserve outputReserve
    let left ← subOrOverflow outputReserve gross
    let required ← ceilDivOrAbort k left
    -- the new reserve is narrowed too: the swap must be able to add the offer to it
    let requiredReserve ← narrowStd required "pool offer overflow"
    subOrOverflow requiredReserve inputReserve

/-- An error is no answer, a panic is still a panic. -/
def answered (x : Except ContractError ℕ) : Except ContractError (Option ℕ) :=
  match x with
  | .ok a => .ok (some a)
  | .error (.abort site) => .error (.abort site)
  | .error _ => .ok none

/-- What probes are proposed from; the rate is the first maker's. -/
structure ReversePoolSnapshot where
  inputReserve : ℕ
  outputReserve : ℕ
  effectiveFeeBps : ℕ
  bookOutputRate : Option Decimal

/-- The book's share of an offer, rounded down. -/
def allocatedBook (offer bookInput total : ℕ) : Except ContractError (Option ℕ) :=
  match checkedMul256 offer bookInput with
  | none => .ok none
  | some product => do
      let share ← divOrAbort product total
      return narrow? share

/-- The least offer whose pool share, rounded up, is the needed pool input. -/
def declaredPoolInverse (needed total poolInput : ℕ) : Except ContractError (Option ℕ) := do
  let below ← subOrAbort needed 1
  match checkedMul256 below total with
  | none => return none
  | some product =>
      let quotient ← divOrAbort product poolInput
      let offer ← add256OrAbort quotient 1
      return narrow? offer

def candidateForNeeded (offer needed total : ℕ) (hybrid : HybridSwapParams)
    (sim : HybridSimulationResponse) : Except ContractError (Option ℕ) := do
  match ← allocatedBook offer hybrid.bookInput total with
  | none => return none
  | some allocated =>
      if sim.limitBookOfferConsumed = allocated ∧ hybrid.poolInput ≠ 0 ∧ needed ≠ 0 then
        declaredPoolInverse needed total hybrid.poolInput
      else return checkedAdd needed sim.limitBookOfferConsumed

def ReversePoolSnapshot.candidate (pool : ReversePoolSnapshot) (target offer : ℕ)
    (hybrid : HybridSwapParams) (sim : HybridSimulationResponse) :
    Except ContractError (Option ℕ) := do
  match ← answered (minPoolInputForNetOutput pool.inputReserve pool.outputReserve
      pool.effectiveFeeBps (target - sim.bookReturnAmount)) with
  | none => return none
  | some needed =>
      -- on a plateau that the book funds alone, the same offer would be proposed again
      if needed = 0 ∧ hybrid.poolInput = 0 then return none
      else
        match checkedAdd hybrid.poolInput hybrid.bookInput with
        | none => return none
        | some total => candidateForNeeded offer needed total hybrid sim

/-- The offer that the book share of a template turns into the needed book input. -/
def offerForBookInput (bookNeeded : ℕ) (hybrid : HybridSwapParams) :
    Except ContractError (Option ℕ) :=
  match (checkedAdd hybrid.poolInput hybrid.bookInput).bind (checkedMul256 bookNeeded) with
  | none => .ok none
  | some product => do
      let offer ← ceilDivOrAbort product hybrid.bookInput
      return narrow? offer

/-- The offer at which the first maker's rate gives the book output that was seen. -/
def bookPlateauProbe (scaledGross : ℕ) (rate : Decimal) (hybrid : HybridSwapParams) :
    Except ContractError (Option ℕ) := do
  let bookNeeded ← ceilDivOrAbort scaledGross rate.atomics
  offerForBookInput bookNeeded hybrid

def ReversePoolSnapshot.bookCandidate (pool : ReversePoolSnapshot) (hybrid : HybridSwapParams)
    (sufficient : HybridSimulationResponse) : Except ContractError (Option ℕ) :=
  match pool.bookOutputRate with
  | none => .ok none
  | some rate =>
      if rate.isZero ∨ hybrid.bookInput = 0 then .ok none
      else
        match (checkedAdd sufficient.bookReturnAmount sufficient.bookCommissionAmount).bind
            fun gross => checkedMul256 gross Decimal.one.atomics with
        | none => .ok none
        | some scaledGross => bookPlateauProbe scaledGross rate hybrid

/-- A sufficient offer above an insufficient one, with what was quoted at both. -/
structure Bracket where
  lo : ℕ
  lowerOutput : ℕ
  hi : ℕ
  sufficient : HybridSimulationResponse

def infeasibleOffer : ContractError := stdErr "hybrid target infeasible: offer range exhausted"

def emptyTemplate : ContractError := stdErr "hybrid template sum must be positive"

def iterationCap : ContractError := stdErr "Hybrid reverse simulation exceeded iteration cap"

section Search

variable (maxOffer target : ℕ) (pool : ReversePoolSnapshot) (hybrid : HybridSwapParams)

/-- The next upper bound: the pool's candidate when it lies above, else twice the last one. -/
def nextUpper (hi : ℕ) (sim : HybridSimulationResponse) : Except ContractError ℕ := do
  let candidate ← pool.candidate target hi hybrid sim
  return min ((candidate.filter fun c => hi < c).getD ((checkedMul hi 2).getD maxOffer)) maxOffer

/-- A step into the bracket in proportion to the outputs at its ends. -/
def interpolate (b : Bracket) (width : ℕ) : Except ContractError ℕ := do
  let outputWidth ← subOrOverflow b.sufficient.returnAmount b.lowerOutput
  let gap ← subOrOverflow target b.lowerOutput
  let product ← mul256OrOverflow width gap
  let quotient ← divOrAbort product outputWidth
  let delta ← narrowStd quotient "hybrid interpolation"
  let last ← subOrAbort width 1
  addOrOverflow b.lo (min (max delta 1) last)

def poolCandidateFor (b : Bracket) (allocated : ℕ) : Except ContractError (Option ℕ) :=
  if b.sufficient.bookReturnAmount = 0 ∨ b.sufficient.limitBookOfferConsumed < allocated ∨
      b.sufficient.returnAmount = target then
    pool.candidate target b.hi hybrid b.sufficient
  else .ok none

def nextProbe (b : Bracket) (templateTotal : ℕ) : Except ContractError ℕ := do
  let width ← subOrOverflow b.hi b.lo
  let product ← mul256OrOverflow b.hi hybrid.bookInput
  let share ← divOrAbort product templateTotal
  let allocated ← narrowStd share "reverse book allocation"
  let poolCandidate ← poolCandidateFor target pool hybrid b allocated
  let bookCandidate ← pool.bookCandidate hybrid b.sufficient
  let candidate := (poolCandidate.filter fun c => b.lo < c).or
    (bookCandidate.filter fun _ => b.sufficient.returnAmount = target)
  match candidate.filter fun c => b.lo < c ∧ c < b.hi with
  | some c => return c
  | none =>
      -- an exact inversion of a stable book: try the offer right below
      if candidate = some b.hi then subOrOverflow b.hi 1
      else interpolate target b width

variable (simulate : ℕ → Except ContractError HybridSimulationResponse)

/-- Raise the upper bound until it is sufficient. The first argument is the number of calls left. -/
def raiseUpper : ℕ → ℕ → ℕ → ℕ → List ℕ × Except ContractError (ℕ × Bracket)
  | 0, _, _, _ => ([], .error iterationCap)
  | left + 1, lo, lowerOutput, hi =>
      match simulate hi with
      | .error e => ([hi], .error e)
      | .ok sim =>
          if target ≤ sim.returnAmount then ([hi], .ok (left, ⟨lo, lowerOutput, hi, sim⟩))
          else if hi = maxOffer then ([hi], .error infeasibleOffer)
          else
            match nextUpper maxOffer target pool hybrid hi sim with
            | .error e => ([hi], .error e)
            | .ok hi' =>
                let rest := raiseUpper left hi sim.returnAmount hi'
                (hi :: rest.1, rest.2)

def Bracket.refine (b : Bracket) (probe : ℕ) (sim : HybridSimulationResponse) : Bracket :=
  if target ≤ sim.returnAmount then { b with hi := probe, sufficient := sim }
  else { b with lo := probe, lowerOutput := sim.returnAmount }

/-- Narrow the bracket until its ends are adjacent. -/
def narrowBracket (templateTotal : ℕ) :
    ℕ → Bracket → List ℕ × Except ContractError (ℕ × HybridSimulationResponse)
  | left, b =>
      match checkedSub b.hi b.lo with
      | none => ([], .error .overflow)
      | some width =>
          if width ≤ 1 then ([], .ok (b.hi, b.sufficient))
          else
            match nextProbe target pool hybrid b templateTotal with
            | .error e => ([], .error e)
            | .ok probe =>
                match left with
                | 0 => ([], .error iterationCap)
                | left + 1 =>
                    match simulate probe with
                    | .error e => ([probe], .error e)
                    | .ok sim =>
                        let rest := narrowBracket templateTotal left (b.refine target probe sim)
                        (probe :: rest.1, rest.2)

end Search

def boundedHybridReverseSearch (seed maxOffer target : ℕ) (pool : ReversePoolSnapshot)
    (hybrid : HybridSwapParams) (simulate : ℕ → Except ContractError HybridSimulationResponse) :
    List ℕ × Except ContractError (ℕ × HybridSimulationResponse) :=
  match checkedAdd hybrid.poolInput hybrid.bookInput with
  | none => ([], .error .overflow)
  | some templateTotal =>
      if templateTotal = 0 then ([], .error emptyTemplate)
      else if target = 0 then ([0], (simulate 0).map fun sim => (0, sim))
      else if maxOffer = 0 then ([], .error infeasibleOffer)
      else
        match raiseUpper maxOffer target pool hybrid simulate maxHybridReverseSimCalls 0 0
            (min (max seed 1) maxOffer) with
        | (tried, .error e) => (tried, .error e)
        | (tried, .ok (left, b)) =>
            let rest := narrowBracket target pool hybrid simulate templateTotal left b
            (tried ++ rest.1, rest.2)

/-- The offer whose scaled pool leg is the needed pool input. -/
def totalOfferForPoolLeg (hybrid : HybridSwapParams) (poolInputNeeded : ℕ) :
    Except ContractError ℕ := do
  ensure (hybrid.poolInput ≠ 0)
    (stdErr "cannot scale pool leg when template pool_input is zero")
  let den ← addOrOverflow hybrid.poolInput hybrid.bookInput
  ensure (den ≠ 0) emptyTemplate
  let product ← mul256OrOverflow poolInputNeeded den
  let quotient ← ceilDivOrAbort product hybrid.poolInput
  narrowStd quotient "total_offer_for_pool_leg"

def seedUpperOfferFromPoolMath (hybrid : HybridSwapParams)
    (inputReserve outputReserve effectiveFeeBps askTarget : ℕ) : Except ContractError ℕ :=
  if hybrid.bookInput = 0 then
    minPoolInputForNetOutput inputReserve outputReserve effectiveFeeBps askTarget
  else if hybrid.poolInput = 0 then .ok 1
  else do
    let poolOnlyOffer ← answered
      (minPoolInputForNetOutput inputReserve outputReserve effectiveFeeBps askTarget)
    totalOfferForPoolLeg hybrid (poolOnlyOffer.getD inputReserve)

/-- The declared split in the proportions of a template; the pool gets what rounding leaves. -/
def scaleHybridTemplate (hybrid : HybridSwapParams) (total : ℕ) :
    Except ContractError HybridSwapParams := do
  let den ← addOrOverflow hybrid.poolInput hybrid.bookInput
  ensure (den ≠ 0) (.invalidHybridParams "hybrid template sum must be positive")
  let product ← mul256OrOverflow total hybrid.bookInput
  let share ← divOrZero product den
  let book ← narrowU128 share "hybrid book"
  let pool ← subOrOverflow total book
  return { hybrid with poolInput := pool, bookInput := book }

structure HybridReverseSimulationResponse where
  offerAmount : ℕ
  spreadAmount : ℕ
  commissionAmount : ℕ
  poolCommissionAmount : ℕ
  bookCommissionAmount : ℕ
  bookReturnAmount : ℕ
  poolReturnAmount : ℕ
  deriving DecidableEq

def HybridSimulationResponse.reverse (sim : HybridSimulationResponse) (offer : ℕ) :
    HybridReverseSimulationResponse where
  offerAmount := offer
  spreadAmount := sim.spreadAmount
  commissionAmount := sim.commissionAmount
  poolCommissionAmount := sim.poolCommissionAmount
  bookCommissionAmount := sim.bookCommissionAmount
  bookReturnAmount := sim.bookReturnAmount
  poolReturnAmount := sim.poolReturnAmount

/-- An error of the query; the source turns each into its text. -/
inductive ReverseError
  | failed (err : ContractError)
  | forwardValidation
  deriving DecidableEq

def ReverseError.toStd : ReverseError → ContractError
  | failed err => err
  | forwardValidation => stdErr "pool reverse forward validation failed"

/-- The offered and the asked token of a request for an asset. -/
def PairInfo.offerFor (info : PairInfo) (ask : AssetInfo) : Except ContractError (Addr × Addr) :=
  if ask = .token info.token0 then .ok (info.token1, info.token0)
  else if ask = .token info.token1 then .ok (info.token0, info.token1)
  else .error (stdErr "Invalid ask asset: does not match pair assets")

def effectiveFeeBpsForSim (q : Querier) (c : DiscountCache) (blockTime feeBps : ℕ)
    (discountRegistry : Option Addr) (trader sender : Option Addr) : ℕ :=
  match trader with
  | none => feeBps
  | some trader =>
      lookupEffectiveFeeBpsReadonly q c blockTime feeBps discountRegistry trader
        (sender.getD trader)

section Query

variable (p : PairStorage) (q : Querier) (env : Env) (hybrid : HybridSwapParams)
  (offerToken : Addr) (effectiveFeeBps : ℕ) (beliefPrice : Option Decimal)

/-- The forward quote of the template, scaled to an offer. -/
def runSim (offer : ℕ) : Except ContractError HybridSimulationResponse := do
  let scaled ← scaleHybridTemplate hybrid offer
  simulateHybridSwapBeforeHooksWithFee p q env offer (some scaled) none offerToken effectiveFeeBps
    beliefPrice

/-- The first maker's rate, token0 or token1 received for one of the other. -/
def firstMakerRate (side : LimitOrderSide) : Option Decimal :=
  (resolveMatchStartHint p.book hybrid.bookStartHint side).bind fun id =>
    (p.book.orderOnSide side id).bind fun order =>
      match side with
      | .bid => some order.price
      | .ask => Decimal.one.checkedDiv order.price

/-- A pool-only request needs no search. -/
def reversePoolOnly (side : LimitOrderSide) (askTarget : ℕ) :
    Except ReverseError (ℕ × HybridSimulationResponse) := do
  let offer ← (minPoolInputForNetOutput (inputReserve p.reserves side)
    (outputReserve p.reserves side) effectiveFeeBps askTarget).mapError .failed
  let sim ← (runSim p q env hybrid offerToken effectiveFeeBps beliefPrice offer).mapError .failed
  ensure (askTarget ≤ sim.returnAmount) .forwardValidation
  return (offer, sim)

def reverseDeclared (side : LimitOrderSide) (askTarget : ℕ) :
    Except ReverseError (ℕ × HybridSimulationResponse) := do
  let seed ← (answered (seedUpperOfferFromPoolMath hybrid (inputReserve p.reserves side)
    (outputReserve p.reserves side) effectiveFeeBps askTarget)).mapError .failed
  let maxOffer ← (subOrOverflow u128Max (inputReserve p.reserves side)).mapError .failed
  (boundedHybridReverseSearch (seed.getD 1) maxOffer askTarget
    { inputReserve := inputReserve p.reserves side
      outputReserve := outputReserve p.reserves side
      effectiveFeeBps := effectiveFeeBps
      bookOutputRate := firstMakerRate p hybrid side }
    hybrid (runSim p q env hybrid offerToken effectiveFeeBps beliefPrice)).2.mapError .failed

def reverseOffer (side : LimitOrderSide) (askTarget : ℕ) :
    Except ReverseError (ℕ × HybridSimulationResponse) :=
  if hybrid.bookInput = 0 then
    reversePoolOnly p q env hybrid offerToken effectiveFeeBps beliefPrice side askTarget
  else reverseDeclared p q env hybrid offerToken effectiveFeeBps beliefPrice side askTarget

end Query

/-- `query_hybrid_reverse_simulation`. -/
def queryHybridReverseSimulation (p : PairStorage) (q : Querier) (env : Env) (askAsset : Asset)
    (hybrid : HybridSwapParams) (trader sender : Option Addr) (beliefPrice : Option Decimal) :
    Except ReverseError HybridReverseSimulationResponse := do
  let (offerToken, askToken) ← (p.pairInfo.offerFor askAsset.info).mapError .failed
  let side ← (p.pairInfo.takenSide offerToken).mapError .failed
  let deductions ← (collectFeeHookDeductions q p.hooks askToken 10000).mapError .failed
  ensure (deductions = []) (.failed (stdErr ("reverse simulation unsupported for " ++
    "output-deducting hooks; use forward net quote and min_return")))
  if askAsset.amount = 0 then return HybridSimulationResponse.zero.reverse 0
  else
    let fee := effectiveFeeBpsForSim q p.discountCache env.blockTime p.feeConfig.feeBps
      p.discountRegistry trader sender
    let (offer, sim) ← reverseOffer p q env hybrid offerToken fee beliefPrice side askAsset.amount
    return sim.reverse offer

end Cl8yDex
