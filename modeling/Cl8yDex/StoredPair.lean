import Cl8yDex.PairRuns
import Cl8yDex.PoolInverse
import Cl8yDex.AmmLadder
import Cl8yDex.RouteHops

/-!
# The pool-only reverse quote

A template without a book leg sends the whole offer to the pool, so the forward quote of the
inverted offer is the net output the inverse was computed for.
-/

namespace Cl8yDex

open Outcome

variable {p : PairStorage} {q : Querier} {env : Env} {hybrid scaled : HybridSwapParams}
  {offerToken : Addr} {offer fee target : ℕ} {beliefPrice : Option Decimal}
  {side : LimitOrderSide} {sim : HybridSimulationResponse}

theorem mapError_eq_ok {α ε δ : Type} {f : ε → δ} {x : Except ε α} {a : α}
    (h : x.mapError f = .ok a) : x = .ok a := by
  cases x with
  | ok b =>
      cases h
      rfl
  | error e => cases h

theorem mapError_failed {α : Type} {x : Except ContractError α}
    (h : x.mapError ReverseError.failed = .error .forwardValidation) : False := by
  cases x with
  | ok a => cases h
  | error e => cases h

theorem scaleHybridTemplate_poolOnly (hbook : hybrid.bookInput = 0)
    (h : scaleHybridTemplate hybrid offer = .ok scaled) :
    scaled.poolInput = offer ∧ scaled.bookInput = 0 := by
  unfold scaleHybridTemplate at h
  obtain ⟨den, -, h⟩ := bind_eq_ok.1 h
  obtain ⟨_, hden, h⟩ := bind_eq_ok.1 h
  obtain ⟨product, hproduct, h⟩ := bind_eq_ok.1 h
  obtain ⟨share, hshare, h⟩ := bind_eq_ok.1 h
  obtain ⟨book, hnarrow, h⟩ := bind_eq_ok.1 h
  obtain ⟨pool, hpool, h⟩ := bind_eq_ok.1 h
  obtain ⟨-, rfl⟩ := mul256_eq_ok.1 hproduct
  obtain ⟨-, rfl⟩ := divOrZero_eq_ok.1 hshare
  obtain ⟨-, rfl⟩ := subOrOverflow_eq_ok.1 hpool
  rw [hbook, Nat.mul_zero, Nat.zero_div] at hnarrow
  cases hnarrow
  cases h
  exact ⟨rfl, rfl⟩

/-- A declared quote without a book leg is the pool's net output. -/
theorem quote_poolOnly (hscaled : scaled.poolInput = offer ∧ scaled.bookInput = 0)
    (hoffer : offer ≠ 0) (hside : p.pairInfo.takenSide offerToken = .ok side)
    (h : simulateHybridSwapBeforeHooksWithFee p q env offer (some scaled) none offerToken fee
      beliefPrice = .ok sim) :
    sim.returnAmount = ConstantProduct.net
      (ConstantProduct.output (inputReserve p.reserves side) (outputReserve p.reserves side) offer)
      fee := by
  unfold simulateHybridSwapBeforeHooksWithFee at h
  rw [if_neg hoffer] at h
  obtain ⟨_, -, h⟩ := bind_eq_ok.1 h
  obtain ⟨mode, hmode, h⟩ := bind_eq_ok.1 h
  obtain ⟨plan, hplan, h⟩ := bind_eq_ok.1 h
  obtain ⟨side', hside', h⟩ := bind_eq_ok.1 h
  obtain ⟨legs, hlegs, h⟩ := bind_eq_ok.1 h
  rw [hside] at hside'
  cases hside'
  cases hmode
  obtain ⟨_, -, hplan⟩ := bind_eq_ok.1 hplan
  obtain ⟨_, -, hplan⟩ := bind_eq_ok.1 hplan
  cases hplan
  unfold simulateLegs at hlegs
  obtain ⟨book, hbook, hlegs⟩ := bind_eq_ok.1 hlegs
  obtain ⟨poolInput, hinput, hlegs⟩ := bind_eq_ok.1 hlegs
  obtain ⟨leg, hleg, hlegs⟩ := bind_eq_ok.1 hlegs
  have hnobook : ¬ 0 < (planDeclared scaled).bookLeg := by
    change ¬ 0 < scaled.bookInput
    omega
  unfold simulateBookLeg at hbook
  rw [if_neg hnobook] at hbook
  cases hbook
  cases hlegs
  obtain ⟨unfilled, hunfilled, hinput⟩ := bind_eq_ok.1 hinput
  obtain ⟨-, rfl⟩ := subOrOverflow_eq_ok.1 hunfilled
  obtain ⟨-, rfl⟩ := addOrOverflow_eq_ok.1 hinput
  have hpool : (planDeclared scaled).poolLeg + ((planDeclared scaled).bookLeg -
      BookSimulateResult.none.offerConsumed) = offer := by
    change scaled.poolInput + (scaled.bookInput - 0) = offer
    omega
  rw [hpool] at hleg
  have hpriced := simulatePoolLeg_eq_ok hoffer hleg
  obtain ⟨total, htotal, h⟩ := bind_eq_ok.1 h
  obtain ⟨commission, -, h⟩ := bind_eq_ok.1 h
  obtain ⟨-, rfl⟩ := addOrOverflow_eq_ok.1 htotal
  cases h
  have hsplit := hpriced.split
  rw [hpriced.commission, hpriced.gross] at hsplit
  change 0 + leg.returnAmount = _
  unfold ConstantProduct.net
  omega

/-- The forward quote of the inverted offer meets the target. -/
theorem inverse_validates (hi : inputReserve p.reserves side ≤ u128Max)
    (ho : outputReserve p.reserves side ≤ u128Max) (ht : target ≤ u128Max)
    (hbook : hybrid.bookInput = 0) (hside : p.pairInfo.takenSide offerToken = .ok side)
    (hmin : minPoolInputForNetOutput (inputReserve p.reserves side) (outputReserve p.reserves side)
      fee target = .ok offer)
    (hsim : runSim p q env hybrid offerToken fee beliefPrice offer = .ok sim) :
    target ≤ sim.returnAmount := by
  obtain ⟨-, n, hnet, htn⟩ := (minPoolInput_isLeast hi ho ht hmin).1
  obtain ⟨scaled, hscaled, hsim⟩ := bind_eq_ok.1 hsim
  rcases Nat.eq_zero_or_pos offer with rfl | hpos
  · cases hnet
    omega
  have hreturn := quote_poolOnly (scaleHybridTemplate_poolOnly hbook hscaled) hpos.ne' hside hsim
  have hi0 : 0 < inputReserve p.reserves side := by
    have hval := hnet
    rw [poolNetOutputForInput_eq hi ho, if_neg hpos.ne'] at hval
    split_ifs at hval with hempty
    exact Nat.pos_of_ne_zero (not_or.1 hempty).1
  rw [hreturn, ← poolNet_eq_net hi ho hi0 hnet]
  exact htn

theorem reversePoolOnly_validates (hi : inputReserve p.reserves side ≤ u128Max)
    (ho : outputReserve p.reserves side ≤ u128Max) (ht : target ≤ u128Max)
    (hbook : hybrid.bookInput = 0) (hside : p.pairInfo.takenSide offerToken = .ok side) :
    reversePoolOnly p q env hybrid offerToken fee beliefPrice side target ≠
      .error .forwardValidation := by
  intro h
  unfold reversePoolOnly at h
  rcases bind_eq_error.1 h with h | ⟨offer, hmin, h⟩
  · exact mapError_failed h
  rcases bind_eq_error.1 h with h | ⟨sim, hsim, h⟩
  · exact mapError_failed h
  rcases bind_eq_error.1 h with h | ⟨_, _, h⟩
  · obtain ⟨hlow, -⟩ := ensure_eq_error.1 h
    exact hlow (inverse_validates hi ho ht hbook hside (mapError_eq_ok hmin) (mapError_eq_ok hsim))
  · cases h

theorem outputReserve_le (hreserves : p.reserves.1 ≤ u128Max ∧ p.reserves.2 ≤ u128Max)
    (side : LimitOrderSide) : outputReserve p.reserves side ≤ u128Max := by
  cases side with
  | bid => exact hreserves.2
  | ask => exact hreserves.1

theorem query_validates {askAsset : Asset} {trader sender : Option Addr}
    (hreserves : p.reserves.1 ≤ u128Max ∧ p.reserves.2 ≤ u128Max)
    (ht : askAsset.amount ≤ u128Max) (hbook : hybrid.bookInput = 0) :
    queryHybridReverseSimulation p q env askAsset hybrid trader sender beliefPrice ≠
      .error .forwardValidation := by
  intro h
  unfold queryHybridReverseSimulation at h
  rcases bind_eq_error.1 h with h | ⟨⟨offerToken, askToken⟩, -, h⟩
  · exact mapError_failed h
  rcases bind_eq_error.1 h with h | ⟨side, hside, h⟩
  · exact mapError_failed h
  rcases bind_eq_error.1 h with h | ⟨deductions, -, h⟩
  · exact mapError_failed h
  rcases bind_eq_error.1 h with h | ⟨_, -, h⟩
  · cases (ensure_eq_error.1 h).2
  dsimp only at h
  split_ifs at h
  · cases h
  rcases bind_eq_error.1 h with h | ⟨_, -, h⟩
  · unfold reverseOffer at h
    rw [if_pos hbook] at h
    exact reversePoolOnly_validates (outputReserve_le hreserves side.other)
      (outputReserve_le hreserves side) ht hbook (mapError_eq_ok hside) h
  · cases h

/-- The closed form against the pool's rounded output. -/
structure ExactInverse (i o fee t : ℕ) : Prop where
  least : ∀ x, minPoolInputForNetOutput i o fee t = .ok x ↔ IsLeast (feasibleOffers i o fee t) x
  solved : (∃ x, minPoolInputForNetOutput i o fee t = .ok x) ↔
    t = 0 ∨ (feasibleOffers i o fee t).Nonempty
  zero : t = 0 → minPoolInputForNetOutput i o fee t = .ok 0
  inverse_returns : ∀ site, minPoolInputForNetOutput i o fee t ≠ .error (.abort site)
  forward_returns : ∀ x site, poolNetOutputForInput x i o fee ≠ .error (.abort site)
  mono : ∀ x y n m, x ≤ y → poolNetOutputForInput x i o fee = .ok n →
    poolNetOutputForInput y i o fee = .ok m → n ≤ m

/-- The pool inverse is the least sufficient input, and a pool-only reverse quote that was computed
from it always passes its forward check. -/
theorem pool_inverse_exact {i o t : ℕ} {askAsset : Asset} {trader sender : Option Addr}
    (hi : i ≤ u128Max) (ho : o ≤ u128Max) (ht : t ≤ u128Max)
    (hreserves : p.reserves.1 ≤ u128Max ∧ p.reserves.2 ≤ u128Max)
    (hask : askAsset.amount ≤ u128Max) (hbook : hybrid.bookInput = 0) :
    ExactInverse i o fee t ∧
      queryHybridReverseSimulation p q env askAsset hybrid trader sender beliefPrice ≠
        .error .forwardValidation := by
  refine ⟨?_, query_validates hreserves hask hbook⟩
  constructor
  · exact fun x => minPoolInput_eq_ok_iff hi ho ht
  · constructor
    · rintro ⟨x, hx⟩
      exact .inr ⟨x, (minPoolInput_isLeast hi ho ht hx).1⟩
    · rintro (rfl | ⟨x, hx⟩)
      · exact ⟨0, rfl⟩
      · exact minPoolInput_of_feasible hi ho ht hx
  · rintro rfl
    rfl
  · exact minPoolInput_no_abort hi ho ht
  · exact fun x => poolNet_no_abort hi ho
  · exact fun x y n m => poolNet_mono hi ho

theorem pool_inverse_exact_sample : ExactInverse 1000000 1000000 30 10000 ∧
    queryHybridReverseSimulation samplePool .permissive (sampleEnv 1012) ⟨.token 2, 10000⟩
      ⟨1, 0, 1, none⟩ none none none ≠ .error .forwardValidation :=
  pool_inverse_exact (by decide) (by decide) (by decide) (by decide +kernel) (by decide) rfl

end Cl8yDex

/-!
## A pair's queries as the router sees them

The pair's own quotes, asked through the chain. Without fee hooks that deduct, and while the spread
of its largest trade is a machine integer, a pair answers a pool-only hop with its exact pool return
and with its least pool offer.
-/

namespace Cl8yDex

open Outcome Router FirstReaching

section Query

variable (p : PairStorage) (q : Querier) (env : Env)

/-- `query_hybrid_simulation`. -/
def queryHybridSimulation (offerAsset : Asset) (hybrid : Option HybridSwapParams)
    (greedy : Option GreedySwapParams) (trader sender : Option Addr)
    (beliefPrice : Option Decimal) : Except ContractError HybridSimulationResponse :=
  let fee := effectiveFeeBpsForSim q p.discountCache env.blockTime p.feeConfig.feeBps
    p.discountRegistry trader sender
  match offerAsset.info with
  | .token offerToken =>
      simulateHybridSwapWithFee p q env offerAsset.amount hybrid greedy offerToken fee beliefPrice
  | .nativeToken _ => .error .invalidToken

/-- The stored pair at an address; `text` renders its errors. -/
def storedPair (text : ContractError → Router.StdError) (contractAddr : Addr)
    (contractInfo : Option ContractVersion) : Router.Pair where
  contractAddr := contractAddr
  contractInfo := contractInfo
  hybridSimulation := fun asset hybrid greedy trader sender belief =>
    (queryHybridSimulation p q env asset hybrid greedy trader sender belief).mapError text
  hybridReverseSimulation := fun asset hybrid trader sender belief =>
    (queryHybridReverseSimulation p q env asset hybrid trader sender belief).mapError
      fun e => text e.toStd

end Query

theorem meets_mapError {α ε δ : Type} {f : ε → δ} {x : Except ε α} {Q : α → Prop} {R : Prop}
    (h : Meets x Q fun _ => R) : Meets (x.mapError f) Q fun _ => R := by
  cases x with
  | ok a => exact h
  | error e => exact h

variable {p : PairStorage} {q : Querier} {env : Env} {offer ask : Addr} {side : LimitOrderSide}
  {i o x fee target : ℕ} {beliefPrice : Option Decimal}

/-- A pool-only quote prices the pool leg and nothing else. -/
theorem simulate_poolOnly (hside : p.pairInfo.takenSide offer = .ok side) (hx : 0 < x)
    (hmax : x ≤ u128Max) :
    simulateHybridSwapBeforeHooksWithFee p q env x (some (poolOnlyHybridParams x)) none offer fee
      none = (do
        let leg ← simulatePoolLeg (inputReserve p.reserves side) (outputReserve p.reserves side) x
          fee
        QuotedLegs.response ⟨BookSimulateResult.none, leg⟩) := by
  have htotal : addOrOverflow x 0 = .ok x := addOrOverflow_eq_ok.2 ⟨hmax, rfl⟩
  have hunfilled : subOrOverflow 0 0 = .ok 0 := subOrOverflow_eq_ok.2 ⟨le_rfl, rfl⟩
  have hplan : planQuote x none (.declared (poolOnlyHybridParams x)) =
      .ok (planDeclared (poolOnlyHybridParams x)) := by
    unfold planQuote checkDeclaredSplit
    change ((addOrOverflow x 0 >>= _) >>= _) = _
    rw [htotal, ok_bind, ensure_pos rfl]
    rfl
  have hlegs : simulateLegs p q env side (planDeclared (poolOnlyHybridParams x)) fee = (do
      let leg ← simulatePoolLeg (inputReserve p.reserves side) (outputReserve p.reserves side) x fee
      return ⟨BookSimulateResult.none, leg⟩) := by
    unfold simulateLegs simulateBookLeg
    rw [if_neg (by exact Nat.lt_irrefl 0), ok_bind]
    unfold poolInputAmount
    change (subOrOverflow 0 0 >>= fun unfilled => addOrOverflow x unfilled) >>= _ = _
    rw [hunfilled, ok_bind, htotal, ok_bind]
  unfold simulateHybridSwapBeforeHooksWithFee
  rw [if_neg hx.ne']
  change (planQuote x none (.declared (poolOnlyHybridParams x)) >>= _) = _
  rw [hplan, ok_bind, hside, ok_bind, hlegs]
  cases simulatePoolLeg (inputReserve p.reserves side) (outputReserve p.reserves side) x fee with
  | ok leg => rfl
  | error e => rfl

/-- The spread of every trade that the reserve has room for is a machine integer. -/
def SpreadInRange (i o : ℕ) : Prop := ∀ x, i + x ≤ u128Max → x * o / i ≤ u128Max

theorem poolLeg_meets (hi : i ≤ u128Max) (ho : o ≤ u128Max) (hspread : SpreadInRange i o)
    (hx : 0 < x) :
    Meets (simulatePoolLeg i o x fee)
      (fun leg => pooled i o fee x = some leg.returnAmount ∧
        leg.returnAmount + leg.commissionAmount ≤ u128Max)
      (fun _ => pooled i o fee x = none) := by
  cases hleg : simulatePoolLeg i o x fee with
  | ok leg =>
      have hpriced := simulatePoolLeg_eq_ok hx.ne' hleg
      have hsplit := hpriced.split
      have hgross : leg.grossOutput ≤ o := by
        rw [hpriced.gross]
        exact Nat.sub_le _ _
      have hnet : leg.returnAmount = ConstantProduct.net (ConstantProduct.output i o x) fee := by
        unfold ConstantProduct.net
        rw [← hpriced.gross, ← hpriced.commission]
        omega
      constructor
      · unfold pooled
        rw [toOption_eq_some, poolNetOutputForInput_eq hi ho, if_neg hx.ne',
          if_neg (not_or.2 ⟨hpriced.reserves.1.ne', hpriced.reserves.2.ne'⟩),
          if_neg (not_lt.2 hpriced.inRange), if_neg (not_lt.2 hpriced.fee_le), hnet]
      · omega
  | error e =>
      change pooled i o fee x = none
      by_contra hne
      obtain ⟨n, hn⟩ := Option.ne_none_iff_exists'.1 hne
      have hval := toOption_eq_some.1 hn
      rw [poolNetOutputForInput_eq hi ho, if_neg hx.ne'] at hval
      split_ifs at hval with hempty hover hfee
      obtain ⟨hi0, ho0⟩ := not_or.1 hempty
      obtain ⟨leg, hok, -⟩ := Listing.simulatePoolLeg_eq (Nat.pos_of_ne_zero hi0)
        (Nat.pos_of_ne_zero ho0) ho hx (not_lt.1 hover) (not_lt.1 hfee) (hspread x (not_lt.1 hover))
      rw [hok] at hleg
      cases hleg

theorem quote_meets (hside : p.pairInfo.takenSide offer = .ok side)
    (hi : inputReserve p.reserves side ≤ u128Max) (ho : outputReserve p.reserves side ≤ u128Max)
    (hspread : SpreadInRange (inputReserve p.reserves side) (outputReserve p.reserves side))
    (hmax : x ≤ u128Max) :
    Meets (simulateHybridSwapBeforeHooksWithFee p q env x (some (poolOnlyHybridParams x)) none offer
      fee none)
      (fun sim => pooled (inputReserve p.reserves side) (outputReserve p.reserves side) fee x =
        some sim.returnAmount)
      (fun _ => pooled (inputReserve p.reserves side) (outputReserve p.reserves side) fee x =
        none) := by
  rcases Nat.eq_zero_or_pos x with rfl | hx
  · exact rfl
  rw [simulate_poolOnly hside hx hmax]
  apply (poolLeg_meets hi ho hspread hx).bind
  rintro leg ⟨hreturn, hsum⟩
  have htotal : addOrOverflow 0 leg.returnAmount = .ok leg.returnAmount :=
    addOrOverflow_eq_ok.2 ⟨by omega, (Nat.zero_add _).symm⟩
  have hcommission : addOrOverflow leg.commissionAmount 0 = .ok leg.commissionAmount :=
    addOrOverflow_eq_ok.2 ⟨by omega, rfl⟩
  unfold QuotedLegs.response
  change Meets (addOrOverflow 0 leg.returnAmount >>= _) _ _
  rw [htotal, ok_bind]
  change Meets (addOrOverflow leg.commissionAmount 0 >>= _) _ _
  rw [hcommission, ok_bind]
  exact hreturn

/-- No hook takes a part of what the pair returns. -/
def Undeducted (p : PairStorage) (q : Querier) (ask : Addr) : Prop :=
  ∀ total, collectFeeHookDeductions q p.hooks ask total = .ok []

theorem forward_meets (hside : p.pairInfo.takenSide offer = .ok side)
    (hask : p.pairInfo.quotedAsk offer = ask) (hhooks : Undeducted p q ask)
    (hi : inputReserve p.reserves side ≤ u128Max) (ho : outputReserve p.reserves side ≤ u128Max)
    (hspread : SpreadInRange (inputReserve p.reserves side) (outputReserve p.reserves side))
    (hmax : x ≤ u128Max) :
    Meets (simulateHybridSwapWithFee p q env x (some (poolOnlyHybridParams x)) none offer fee none)
      (fun sim => pooled (inputReserve p.reserves side) (outputReserve p.reserves side) fee x =
        some sim.returnAmount)
      (fun _ => pooled (inputReserve p.reserves side) (outputReserve p.reserves side) fee x =
        none) := by
  unfold simulateHybridSwapWithFee
  apply (quote_meets hside hi ho hspread hmax).bind
  intro sim hsim
  have hnet : netReturnAfterHooks sim.returnAmount [] = .ok sim.returnAmount :=
    subOrOverflow_eq_ok.2 ⟨Nat.zero_le _, rfl⟩
  rw [hask, hhooks, ok_bind, hnet, ok_bind]
  exact hsim

theorem scaled_template (x : ℕ) :
    scaleHybridTemplate poolOnlyHybridTemplate x = .ok (poolOnlyHybridParams x) := by
  have hzero : narrowU128 0 "hybrid book" = .ok 0 := if_pos (Nat.zero_le _)
  have hsub : subOrOverflow x 0 = .ok x := subOrOverflow_eq_ok.2 ⟨Nat.zero_le _, rfl⟩
  have hmul : mul256OrOverflow x 0 = .ok 0 := mul256_eq_ok.2 ⟨Nat.zero_le _, rfl⟩
  have hdiv : divOrZero 0 1 = .ok 0 := divOrZero_eq_ok.2 ⟨Nat.one_ne_zero, rfl⟩
  have hadd : addOrOverflow 1 0 = .ok 1 := addOrOverflow_eq_ok.2 ⟨by decide, rfl⟩
  unfold scaleHybridTemplate
  change (addOrOverflow 1 0 >>= _) = _
  rw [hadd, ok_bind, ensure_pos Nat.one_ne_zero, ok_bind]
  change (mul256OrOverflow x 0 >>= _) = _
  rw [hmul, ok_bind]
  rw [hdiv, ok_bind, hzero, ok_bind, hsub]
  rfl

theorem reverse_pool_meets (hside : p.pairInfo.takenSide offer = .ok side)
    (hi : inputReserve p.reserves side ≤ u128Max) (ho : outputReserve p.reserves side ≤ u128Max)
    (hspread : SpreadInRange (inputReserve p.reserves side) (outputReserve p.reserves side))
    (ht : target ≤ u128Max) (hpos : 0 < target) :
    Meets (reversePoolOnly p q env poolOnlyHybridTemplate offer fee none side target)
      (fun r => IsLeast (feasibleOffers (inputReserve p.reserves side)
        (outputReserve p.reserves side) fee target) r.1)
      (fun _ => feasibleOffers (inputReserve p.reserves side) (outputReserve p.reserves side) fee
        target = ∅) := by
  unfold reversePoolOnly
  cases hmin : minPoolInputForNetOutput (inputReserve p.reserves side)
      (outputReserve p.reserves side) fee target with
  | error e =>
      apply Set.eq_empty_of_forall_notMem
      intro y hy
      obtain ⟨w, hw⟩ := minPoolInput_of_feasible hi ho ht hy
      rw [hw] at hmin
      cases hmin
  | ok w =>
      have hleast := minPoolInput_isLeast hi ho ht hmin
      have hreaches : w ∈ reaching (pooled (inputReserve p.reserves side)
          (outputReserve p.reserves side) fee) target := by
        rw [reaching_pooled hi ho hpos]
        exact hleast.1
      obtain ⟨n, hn, htn⟩ := hreaches
      have hw := (pooled_within hi ho hn).1
      change Meets ((runSim p q env poolOnlyHybridTemplate offer fee none w).mapError _ >>= _) _ _
      unfold runSim
      rw [scaled_template, ok_bind]
      have hquote := @quote_meets p q env offer side w fee hside hi ho hspread hw
      cases hsim : simulateHybridSwapBeforeHooksWithFee p q env w (some (poolOnlyHybridParams w))
          none offer fee none with
      | error e =>
          rw [hquote.failure hsim] at hn
          cases hn
      | ok sim =>
          obtain rfl : sim.returnAmount = n :=
            Option.some.inj ((hquote.success hsim).symm.trans hn)
          change Meets (ensure (target ≤ sim.returnAmount) ReverseError.forwardValidation >>= _) _ _
          rw [ensure_pos htn, ok_bind]
          exact hleast

theorem reverse_query_meets {askInfo : Asset} {trader sender : Option Addr}
    (hoffer : p.pairInfo.offerFor askInfo.info = .ok (offer, ask))
    (hside : p.pairInfo.takenSide offer = .ok side) (hhooks : Undeducted p q ask)
    (hi : inputReserve p.reserves side ≤ u128Max) (ho : outputReserve p.reserves side ≤ u128Max)
    (hspread : SpreadInRange (inputReserve p.reserves side) (outputReserve p.reserves side))
    (ht : askInfo.amount ≤ u128Max) (hpos : 0 < askInfo.amount) :
    Meets (queryHybridReverseSimulation p q env askInfo poolOnlyHybridTemplate trader sender none)
      (fun sim => IsLeast (feasibleOffers (inputReserve p.reserves side)
        (outputReserve p.reserves side) (effectiveFeeBpsForSim q p.discountCache env.blockTime
          p.feeConfig.feeBps p.discountRegistry trader sender) askInfo.amount) sim.offerAmount)
      (fun _ => feasibleOffers (inputReserve p.reserves side) (outputReserve p.reserves side)
        (effectiveFeeBpsForSim q p.discountCache env.blockTime p.feeConfig.feeBps
          p.discountRegistry trader sender) askInfo.amount = ∅) := by
  have hdeductions : (collectFeeHookDeductions q p.hooks ask 10000).mapError ReverseError.failed =
      .ok [] := by
    rw [hhooks]
    rfl
  unfold queryHybridReverseSimulation
  rw [hoffer]
  change Meets ((p.pairInfo.takenSide offer).mapError _ >>= _) _ _
  rw [hside]
  change Meets ((collectFeeHookDeductions q p.hooks ask 10000).mapError _ >>= _) _ _
  rw [hdeductions, ok_bind, ensure_pos rfl, ok_bind, if_neg hpos.ne']
  dsimp only
  exact (reverse_pool_meets hside hi ho hspread ht hpos).bind fun r hr => hr

/-- The terms of a hop through a stored pair. -/
def storedTerms (p : PairStorage) (side : LimitOrderSide) (fee sellBps buyBps : ℕ) : HopTerms :=
  ⟨inputReserve p.reserves side, outputReserve p.reserves side, fee, sellBps, buyBps⟩

/-- A stored pair answers as a pool-only hop takes it to. -/
theorem storedPair_answers {text : ContractError → Router.StdError} {contractAddr : Addr}
    {contractInfo : Option ContractVersion} {trader sender : Option Addr} {sellBps buyBps : ℕ}
    (hoffer : p.pairInfo.offerFor (.token ask) = .ok (offer, ask))
    (hside : p.pairInfo.takenSide offer = .ok side) (hask : p.pairInfo.quotedAsk offer = ask)
    (hhooks : Undeducted p q ask) (hi : inputReserve p.reserves side ≤ u128Max)
    (ho : outputReserve p.reserves side ≤ u128Max)
    (hspread : SpreadInRange (inputReserve p.reserves side) (outputReserve p.reserves side)) :
    (storedPair p q env text contractAddr contractInfo).Answers trader sender (.token offer)
      (.token ask) (storedTerms p side (effectiveFeeBpsForSim q p.discountCache env.blockTime
        p.feeConfig.feeBps p.discountRegistry trader sender) sellBps buyBps) where
  forward := fun _ hx => meets_mapError (forward_meets hside hask hhooks hi ho hspread hx)
  reverse := fun _ ht hpos =>
    meets_mapError (reverse_query_meets hoffer hside hhooks hi ho hspread ht hpos)

end Cl8yDex
