import Cl8yDex.GreedyReverse
import Cl8yDex.HybridReverse
import Cl8yDex.RouteTax

/-!
# The router's quotes

What a route pays for an offer, and which offer it needs for an output. A quote reads one snapshot
of the chain: the pair that the factory names for two assets, the answers of the pairs and the
answers of the tokens. The reverse quote walks the route from its last hop, pays for each nested
simulation out of a budget, and runs the forward quote on its result.
-/

namespace Cl8yDex.Router

open Outcome

inductive SwapOperation
  | nativeSwap (offerDenom askDenom : String)
  | terraSwap (offerAssetInfo askAssetInfo : AssetInfo) (hybrid : Option HybridSwapParams)
      (greedy : Option GreedySwapParams)

def maxHops : ℕ := 4

structure ContractVersion where
  contract : String
  version : String
  deriving DecidableEq

/-- What a pair answers; an identity that is missing or cannot be read is none. -/
structure Pair where
  contractAddr : Addr
  contractInfo : Option ContractVersion
  hybridSimulation : Asset → Option HybridSwapParams → Option GreedySwapParams → Option Addr →
    Option Addr → Option Decimal → Except StdError HybridSimulationResponse
  hybridReverseSimulation : Asset → HybridSwapParams → Option Addr → Option Addr →
    Option Decimal → Except StdError HybridReverseSimulationResponse

/-- One snapshot of the chain, as the quotes of one router see it. -/
structure QuoteContext where
  router : Addr
  addrValidate : Addr → Except StdError Unit
  token : Addr → Token
  pair : AssetInfo → AssetInfo → Except StdError Pair

def assertIsToken : AssetInfo → Except StdError Addr
  | .token contractAddr => .ok contractAddr
  | .nativeToken _ => .error (.generic
      "Native tokens are not supported; use CW20 wrapped tokens instead")

def poolOnlyHybridTemplate : HybridSwapParams := ⟨1, 0, 1, none⟩

section Path

variable (q : QuoteContext)

/-- A token that can tax a route may occur only once in it. -/
def validateAssetPathFrom (inputToken : Option Addr) :
    List Addr → Option Addr → List SwapOperation → Except StdError Unit
  | _, _, [] => .ok ()
  | _, _, .nativeSwap _ _ :: _ => .error (.generic "Native swaps are not supported")
  | seen, previousAsk, .terraSwap offerInfo askInfo _ _ :: operations => do
      let offer ← assertIsToken offerInfo
      q.addrValidate offer
      let ask ← assertIsToken askInfo
      q.addrValidate ask
      match previousAsk with
      | some previous =>
          ensure (previous = offer) (StdError.generic "disconnected swap asset path")
      | none =>
          ensure (∀ input, inputToken = some input → input = offer)
            (StdError.generic "swap input token does not match asset path")
      let seen := if previousAsk.isSome then seen else seen ++ [offer]
      if ask ∈ seen then do
        let c ← capability (q.token ask)
        ensure (c = none) (StdError.generic
          ("repeated route-tax-capable asset in swap path: " ++ toString ask))
      validateAssetPathFrom inputToken (seen ++ [ask]) (some ask) operations

def validateAssetPath (operations : List SwapOperation) (inputToken : Option Addr) :
    Except StdError Unit :=
  validateAssetPathFrom q inputToken [] none operations

def checkHops (operations : List SwapOperation) : Except StdError Unit := do
  ensure (operations ≠ []) (StdError.generic "Operations must not be empty")
  ensure (operations.length ≤ maxHops) (StdError.generic ("Too many hops: " ++
    toString operations.length ++ " exceeds maximum of " ++ toString maxHops))

end Path

section Forward

/-- The split follows the quoted ratio of the gross budget; the residue is the pool's. -/
def fundedHybrid (hybrid : Option HybridSwapParams) (gross economic : ℕ) :
    Except StdError (Option HybridSwapParams) :=
  match hybrid with
  | none => .ok none
  | some h => do
      let total ← tryAdd h.poolInput h.bookInput
      if total = economic then return some h
      else do
        ensure (total = gross ∧ gross ≠ 0) (StdError.generic
          ("hybrid pool_input + book_input must equal hop offer amount " ++
            "(gross or funded economic)"))
        let book ← multiplyRatio economic h.bookInput gross
        let pool ← trySub economic book
        return some { h with poolInput := pool, bookInput := book }

/-- A reverse quote carries ratios, which are scaled to the funded amount. -/
def scaledTemplate (hybrid : Option HybridSwapParams) (economic : ℕ) :
    Except StdError (Option HybridSwapParams) :=
  match hybrid with
  | none => .ok none
  | some h => do
      let total ← tryAdd h.poolInput h.bookInput
      ensure (total ≠ 0) (StdError.generic "hybrid template sum must be positive")
      let book ← orThrow (checkedMultiplyRatio economic h.bookInput total)
        (StdError.generic "Multiplication overflow")
      let pool ← trySub economic book
      return some { h with poolInput := pool, bookInput := book }

/-- The texts of a declared split; its check of the pool leg has one error. -/
def poolLegError : CheckMaxSpreadError → StdError
  | .insufficientPoolLegForBookHybrid poolInput minPoolInput bookInput => .generic
      ("Generic error: Hybrid swap requires a material pool leg without belief_price: " ++
        "pool_input " ++ toString poolInput ++ " is below minimum " ++ toString minPoolInput ++
        " (book_input " ++ toString bookInput ++ ")")
  | _ => .generic "Generic error"

def validateHybridDeclaredSplitForNoBelief (hopOffer : ℕ) (hybrid : Option HybridSwapParams) :
    Except StdError Unit :=
  match hybrid with
  | none => .ok ()
  | some h => do
      let legSum ← tryAdd h.poolInput h.bookInput
      ensure (legSum = hopOffer) (StdError.generic
        "Generic error: hybrid pool_input + book_input must equal hop offer amount")
      (validateDeclaredHybridPoolLegForNoBelief hopOffer h.poolInput h.bookInput).mapError
        poolLegError

/-- The parameters that the pair is asked with. -/
def simulationParams (hybrid : Option HybridSwapParams) (greedy : Option GreedySwapParams)
    (economic : ℕ) :
    Except StdError (Option HybridSwapParams × Option GreedySwapParams) :=
  match hybrid, greedy with
  | _, some g => do
      ensure (g.maxMakerFills ≠ 0) (StdError.generic "max_maker_fills must be > 0 for greedy")
      return (none, some g)
  | none, none => .ok (some (poolOnlyHybridParams economic), none)
  | some h, none => do
      let total ← tryAdd h.poolInput h.bookInput
      ensure (total = economic) (StdError.generic
        ("hybrid pool_input + book_input must equal simulated offer amount for this hop"))
      validateHybridDeclaredSplitForNoBelief economic (some h)
      return (some h, none)

variable (q : QuoteContext) (trader sender : Option Addr) (reverseTemplates : Bool)

def simulateHop (current : ℕ) : SwapOperation → Except StdError ℕ
  | .nativeSwap _ _ => .error (.generic "Native swaps are not supported")
  | .terraSwap offerInfo askInfo hybrid greedy => do
      let pair ← q.pair offerInfo askInfo
      ensure (¬(hybrid.isSome ∧ greedy.isSome))
        (StdError.generic "cannot set both hybrid and greedy on a hop")
      let offer ← assertIsToken offerInfo
      let funded ← preview (q.token offer) pair.contractAddr trader (some q.router) current .sell
      let split ← if reverseTemplates then scaledTemplate hybrid funded.economic
        else fundedHybrid hybrid current funded.economic
      let params ← simulationParams split greedy funded.economic
      let sim ← pair.hybridSimulation ⟨offerInfo, funded.economic⟩ params.1 params.2 trader sender
        none
      let ask ← assertIsToken askInfo
      let bought ← preview (q.token ask) pair.contractAddr trader (some q.router) sim.returnAmount
        .buy
      return bought.net

def simulateSwapOperations (offerAmount : ℕ) (operations : List SwapOperation) :
    Except StdError ℕ := do
  checkHops operations
  validateAssetPath q operations none
  operations.foldlM (simulateHop q trader sender reverseTemplates) offerAmount

def querySimulateSwapOperations (offerAmount : ℕ) (operations : List SwapOperation) :
    Except StdError ℕ :=
  simulateSwapOperations q trader sender false offerAmount operations

end Forward

/-- An error of a reverse quote; the source turns each into its text. -/
inductive QuoteError
  | std (err : StdError)
  | reverseQueryBudgetExceeded
  | reverseForwardInsufficient
  deriving DecidableEq

def QuoteError.toStd : QuoteError → StdError
  | std err => err
  | reverseQueryBudgetExceeded => .generic "REVERSE_QUERY_BUDGET_EXCEEDED"
  | reverseForwardInsufficient => .generic "REVERSE_FORWARD_INSUFFICIENT"

def asked {α : Type} (x : Except StdError α) : Except QuoteError α := x.mapError .std

section Budget

def maxGreedyReverseRouteHops : ℕ := 3
def maxReverseSimulationsPerHop : ℕ := 33
def maxReverseSimulationsPerRequest : ℕ := 96
def maxPairHybridReverseSimulations : ℕ := maxHybridReverseSimCalls

def SwapOperation.isGreedy : SwapOperation → Bool
  | nativeSwap _ _ => false
  | terraSwap _ _ _ greedy => greedy.isSome

def validateRouteSupport (operations : List SwapOperation) : Except StdError Unit :=
  ensure (¬(maxGreedyReverseRouteHops < operations.length ∧
    operations.any SwapOperation.isGreedy)) (.generic "GREEDY_REVERSE_ROUTE_UNSUPPORTED")

/-- Only reviewed versions of the pair invert their pool with one simulation. -/
def poolReverseCost (pair : Pair) : ℕ :=
  if pair.contractInfo.any fun v =>
      v.contract = "cl8y-dex-pair" ∧ v.version ∈ ["1.19.0", "1.20.0", "1.21.0"] then 1
  else maxPairHybridReverseSimulations

structure ReverseQueryBudget where
  perHop : ℕ → ℕ
  total : ℕ

def ReverseQueryBudget.start : ReverseQueryBudget := ⟨fun _ => 0, 0⟩

def ReverseQueryBudget.charge (b : ReverseQueryBudget) (hop cost : ℕ) :
    Except QuoteError ReverseQueryBudget := do
  ensure (hop < 4 ∧ cost ≤ maxReverseSimulationsPerHop - b.perHop hop ∧
    cost ≤ maxReverseSimulationsPerRequest - b.total) QuoteError.reverseQueryBudgetExceeded
  return ⟨Function.update b.perHop hop (b.perHop hop + cost), b.total + cost⟩

/-- One simulation of each hop is set aside for the forward quote. -/
def ReverseQueryBudget.reserve (hops : ℕ) : Except QuoteError ReverseQueryBudget :=
  (List.range hops).foldlM (fun b hop => b.charge hop 1) .start

end Budget

section Reverse

variable (q : QuoteContext) (trader sender : Option Addr)

def greedySearchError : ReverseError StdError → QuoteError
  | .nested e => .std e
  | .reverseTargetInfeasible => .std (.generic "REVERSE_TARGET_INFEASIBLE")
  | .abort => .std .panic
  | .outOfSteps => .std .outOfSteps

/-- The search pays for every simulation before it asks for it, so a search that asks for more than
the budget has room for ends with the budget. -/
def reverseGreedyOffer (pair : Pair) (offerInfo askInfo : AssetInfo) (greedy : GreedySwapParams)
    (hop target : ℕ) (budget : ReverseQueryBudget) :
    Except QuoteError (ℕ × ReverseQueryBudget) :=
  if target = 0 then .ok (0, budget)
  else do
    let budget ← budget.charge hop (poolReverseCost pair)
    let seed ← asked (pair.hybridReverseSimulation ⟨askInfo, target⟩ poolOnlyHybridTemplate trader
      sender none)
    let search := greedyReverseSearch target (fun offer => do
      let sim ← pair.hybridSimulation ⟨offerInfo, offer⟩ none (some greedy) trader sender none
      return sim.returnAmount) seed.offerAmount
    let budget ← search.2.calls.foldlM (fun b _ => b.charge hop 1) budget
    let offer ← search.1.mapError greedySearchError
    return (offer, budget)

/-- The funded offer of a hop whose pair must return `target`. -/
def reverseEconomic (pair : Pair) (offerInfo askInfo : AssetInfo)
    (hybrid : Option HybridSwapParams) (greedy : Option GreedySwapParams) (hop target : ℕ)
    (budget : ReverseQueryBudget) : Except QuoteError (ℕ × ReverseQueryBudget) :=
  match greedy with
  | some g => reverseGreedyOffer trader sender pair offerInfo askInfo g hop target budget
  | none => do
      let params := hybrid.getD poolOnlyHybridTemplate
      let budget ← budget.charge hop (if params.bookInput = 0 then poolReverseCost pair
        else maxPairHybridReverseSimulations)
      let sim ← asked (pair.hybridReverseSimulation ⟨askInfo, target⟩ params trader sender none)
      return (sim.offerAmount, budget)

def reverseHop (hop : ℕ) (op : SwapOperation) (state : ℕ × ReverseQueryBudget) :
    Except QuoteError (ℕ × ReverseQueryBudget) :=
  match op with
  | .nativeSwap _ _ => .error (.std (.generic "Native swaps are not supported"))
  | .terraSwap offerInfo askInfo hybrid greedy => do
      let pair ← asked (q.pair offerInfo askInfo)
      let ask ← asked (assertIsToken askInfo)
      let target ← asked (reverseBuy (q.token ask) pair.contractAddr trader q.router state.1)
      ensure (¬(hybrid.isSome ∧ greedy.isSome))
        (QuoteError.std (.generic "cannot set both hybrid and greedy on a hop"))
      let economic ← reverseEconomic trader sender pair offerInfo askInfo hybrid greedy hop target
        state.2
      let offer ← asked (assertIsToken offerInfo)
      let gross ← asked (reverseSell (q.token offer) pair.contractAddr trader q.router economic.1)
      return (gross, economic.2)

/-- The hops from `hop` on, the last one first. -/
def reverseHops : ℕ → List SwapOperation → ℕ × ReverseQueryBudget →
    Except QuoteError (ℕ × ReverseQueryBudget)
  | _, [], state => .ok state
  | hop, op :: operations, state => do
      let behind ← reverseHops (hop + 1) operations state
      reverseHop q trader sender hop op behind

def queryReverseSimulateSwapOperations (askAmount : ℕ) (operations : List SwapOperation) :
    Except QuoteError ℕ := do
  asked (checkHops operations)
  asked (validateRouteSupport operations)
  asked (validateAssetPath q operations none)
  let budget ← ReverseQueryBudget.reserve operations.length
  let found ← reverseHops q trader sender 0 operations (askAmount, budget)
  let forward ← asked (simulateSwapOperations q trader sender true found.1 operations)
  ensure (askAmount ≤ forward) QuoteError.reverseForwardInsufficient
  return found.1

end Reverse

end Cl8yDex.Router
