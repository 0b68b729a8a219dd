import Cl8yDex.SwapSpec
import Cl8yDex.LiquiditySpec
import Cl8yDex.PoolEvents

/-!
# What events tell of the reserves

Swaps, deposits and withdrawals account for the change of the reserves in their attributes, and
the indexer reads the change off them when they are faithful.
-/

namespace Cl8yDex.PoolEvents

open Outcome EventReserves

section Steps

variable {p : PairStorage} {out : PairStorage × Response}

/-- Reserves as the indexer has them. -/
def amounts (reserves : ℕ × ℕ) : ℤ × ℤ := (reserves.1, reserves.2)

/-- The legs account for the offer, whatever the book is. -/
theorem executeLegs_accounts {q : Querier} {env : Env} {side : LimitOrderSide} {plan : SwapPlan}
    {bps : ℕ} {legs : SwapLegs} (h : executeLegs p q env side plan bps = .ok legs) :
    legs.Accounts p side plan bps ∧ (plan.bookLeg = 0 → legs.bookMatch.offerConsumed = 0) := by
  unfold executeLegs at h
  obtain ⟨⟨book, bookMatch⟩, hbook, h⟩ := bind_eq_ok.1 h
  obtain ⟨poolInput, hinput, h⟩ := bind_eq_ok.1 h
  obtain ⟨leg, hleg, h⟩ := bind_eq_ok.1 h
  obtain ⟨reserves, hreserves, h⟩ := bind_eq_ok.1 h
  cases h
  obtain ⟨-, -, hoffer⟩ := (poolInputAmount_spec plan bookMatch.offerConsumed).success hinput
  have hpool : leg.input = poolInput ∧ (leg = PoolLeg.none ∨ leg.input ≠ 0 ∧
      leg.Priced (inputReserve p.reserves side) (outputReserve p.reserves side) leg.input bps) := by
    by_cases hzero : poolInput = 0
    · unfold executePoolLeg at hleg
      rw [if_pos hzero] at hleg
      cases hleg
      exact ⟨hzero.symm, Or.inl rfl⟩
    · have hpriced := simulatePoolLeg_eq_ok hzero (executePoolLeg_eq_ok_iff.1 hleg)
      have heq : leg.input = poolInput := hpriced.input
      rw [heq]
      exact ⟨rfl, Or.inr ⟨hzero, hpriced⟩⟩
  obtain ⟨reserves', hafter, hin, hout⟩ := reservesAfter_spec hpool.2
  rw [hreserves] at hafter
  cases hafter
  constructor
  · constructor
    · rw [hpool.1]
      exact hoffer
    · exact hpool.2
    · exact hin
    · exact hout
  · intro hnone
    unfold executeBookLeg at hbook
    rw [if_neg (by omega)] at hbook
    cases hbook
    rfl

/-- What a swap did to the pool, and how its attributes tell it. -/
structure SwapAccounts (p : PairStorage) (offerToken : Addr) (inputAmount : ℕ) (args : SwapArgs)
    (out : PairStorage × Response) (report : SwapReport) (side : LimitOrderSide)
    (pool : PoolLeg) : Prop where
  taken : p.pairInfo.takenSide offerToken = .ok side
  info : out.1.pairInfo = p.pairInfo
  attributes : out.2.attributes = .swap report
  token : report.offerToken = offerToken
  offer : pool.input + report.limitBookOfferConsumed = report.offerAmount
  bookless : bookLeg p inputAmount args = 0 → report.limitBookOfferConsumed = 0
  gross : report.poolReturnAmount + report.commissionAmount = pool.grossOutput
  idle : pool.input = 0 → pool.grossOutput = 0
  income : inputReserve out.1.reserves side = inputReserve p.reserves side + pool.input
  outgo : outputReserve out.1.reserves side + pool.grossOutput = outputReserve p.reserves side

theorem executeSwap_accounts {q : Querier} {env : Env} {offerToken sender : Addr}
    {inputAmount : ℕ} {args : SwapArgs}
    (h : executeSwap p q env offerToken sender inputAmount args = .ok out) :
    ∃ report side pool, SwapAccounts p offerToken inputAmount args out report side pool := by
  unfold executeSwap at h
  obtain ⟨plan, hplan, h⟩ := bind_eq_ok.1 h
  obtain ⟨p', hp', h⟩ := bind_eq_ok.1 h
  obtain ⟨o, -, rfl⟩ := updateOracle_spec.success hp'
  obtain ⟨side, hside, h⟩ := bind_eq_ok.1 h
  obtain ⟨receiver, -, h⟩ := bind_eq_ok.1 h
  obtain ⟨⟨cache, bps, deregisterMsgs⟩, -, h⟩ := bind_eq_ok.1 h
  obtain ⟨n, hscope⟩ := openTxSwapScope_eq { p with oracle := o, discountCache := cache } env
  dsimp only at h hside
  rw [hscope] at h
  obtain ⟨legs, hlegs, h⟩ := bind_eq_ok.1 h
  obtain ⟨s, -, h⟩ := bind_eq_ok.1 h
  obtain ⟨m, hadvance⟩ := advanceTxSwapIndex_eq { p with
    oracle := o, discountCache := cache, txSwapScope := some (PairStorage.txSwapScopeOf env),
    txSwapCounter := n, book := legs.book, reserves := legs.reserves } env
  obtain ⟨haccounts, hnone⟩ := executeLegs_accounts hlegs
  obtain ⟨-, hoffer, -⟩ := validateSwap_spec.success hplan
  have hbookLeg : bookLeg p inputAmount args = plan.bookLeg := by
    unfold bookLeg
    rw [hplan]
  refine ⟨legs.report s sender receiver offerToken (p.pairInfo.escrowToken side) inputAmount bps,
    side, legs.pool, ?_⟩
  dsimp only at h
  rw [hadvance] at h
  cases h
  constructor
  · exact hside
  · rfl
  · rfl
  · rfl
  · exact haccounts.offer.trans hoffer
  · rw [hbookLeg]
    exact hnone
  · exact haccounts.split
  · intro hzero
    rcases haccounts.pool with hidle | ⟨hne, -⟩
    · rw [hidle]
      rfl
    · exact absurd hzero hne
  · exact haccounts.input
  · exact haccounts.output

/-- A delta leads from one pair of reserves to another when it is their difference. -/
theorem applyDelta_amounts {pre post : ℕ × ℕ} {delta : ReserveDelta} :
    applyDelta (amounts pre) delta = some (amounts post) ↔
      (pre.1 : ℤ) + delta.d0 = post.1 ∧ (pre.2 : ℤ) + delta.d1 = post.2 := by
  unfold applyDelta amounts
  dsimp only
  constructor
  · intro h
    split at h
    · cases h
    · exact Prod.mk.inj (Option.some.inj h)
  · intro ⟨h0, h1⟩
    rw [if_neg (by omega), h0, h1]

/-- The amounts of a swap that reports both of its legs. -/
theorem legs_of_report {offer consumed : ℕ} {reported : Option ℤ}
    (poolReturn bookReturn commission : ℕ) (returned : ℤ) (hreported : reported.getD 0 = consumed)
    (hle : consumed ≤ offer) :
    let bookOnly := 0 < bookReturn ∧ poolReturn = 0
    poolInput offer (some poolReturn) (some bookReturn) reported =
        (if bookOnly then 0 else (offer : ℤ) - consumed) ∧
      grossOutput returned (some poolReturn) (some bookReturn) reported (some commission) =
        (if bookOnly then 0 else (poolReturn : ℤ) + commission) := by
  unfold poolInput grossOutput isBookOnly hybridLegsPresent
  rw [hreported]
  by_cases hbook : 0 < bookReturn
  · by_cases hpool : poolReturn = 0
    · simp [hbook, hpool]
    · simp [hpool]
      omega
  · simp [hbook]
    omega

/-- Told by its attributes, a swap changed the reserves as it did when it is faithful. -/
theorem swap_delta {offerToken : Addr} {inputAmount : ℕ} {args : SwapArgs} {report : SwapReport}
    {side : LimitOrderSide} {pool : PoolLeg} {consumed : Option ℕ}
    (h : SwapAccounts p offerToken inputAmount args out report side pool)
    (hconsumed : consumed.getD 0 = report.limitBookOfferConsumed) :
    applyDelta (amounts p.reserves)
        ((PoolEvent.swap report consumed).read.delta p.pairInfo.token0) =
        some (amounts out.1.reserves) ↔
      (PoolEvent.swap report consumed).Faithful p.pairInfo.token0 := by
  have hreported : (consumed.map fun n : ℕ => (n : ℤ)).getD 0 =
      (report.limitBookOfferConsumed : ℤ) := by
    rw [← hconsumed]
    cases consumed <;> rfl
  have hle : report.limitBookOfferConsumed ≤ report.offerAmount := by
    have hoffer := h.offer
    omega
  obtain ⟨hin, hgross⟩ := legs_of_report report.poolReturnAmount report.bookReturnAmount
    report.commissionAmount report.returnAmount hreported hle
  have hoffer := h.offer
  have hsplit := h.gross
  have hidle := h.idle
  have hincome := h.income
  have houtgo := h.outgo
  have htaken := h.taken
  unfold PairInfo.takenSide at htaken
  rw [applyDelta_amounts]
  unfold PoolEvent.read ParsedEvent.delta swapPoolDelta PoolEvent.Faithful
  dsimp only
  rw [hin, hgross, h.token, hconsumed]
  split at htaken
  · rename_i hfirst
    cases htaken
    simp only [inputReserve, outputReserve, LimitOrderSide.other] at hincome houtgo
    rw [decide_eq_true hfirst, if_pos rfl]
    dsimp only
    split <;> omega
  · rename_i hfirst
    split at htaken
    · cases htaken
      simp only [inputReserve, outputReserve, LimitOrderSide.other] at hincome houtgo
      rw [decide_eq_false hfirst, if_neg (by decide)]
      dsimp only
      split <;> omega
    · cases htaken

/-- A deposit adds the amounts that it lists, in the order of the pair's tokens. -/
theorem executeProvide_accounts {q : Querier} {env : Env} {sender : Addr} {assets : Asset × Asset}
    {tolerance : Option Decimal} {receiver : Option Addr}
    (h : executeProvideLiquidity p q env sender assets tolerance receiver = .ok out) :
    ∃ amountA amountB lpReceiver share burned,
      matchAssetAmounts p.pairInfo assets = .ok (amountA, amountB) ∧
      out.1.pairInfo = p.pairInfo ∧
      out.1.reserves = (p.reserves.1 + amountA, p.reserves.2 + amountB) ∧
      out.2.attributes = .provideLiquidity sender lpReceiver amountA amountB share burned := by
  unfold executeProvideLiquidity at h
  obtain ⟨⟨amountA, amountB⟩, hmatch, h⟩ := bind_eq_ok.1 h
  obtain ⟨-, -, h⟩ := bind_eq_ok.1 h
  obtain ⟨p', hp', h⟩ := bind_eq_ok.1 h
  obtain ⟨o, -, rfl⟩ := updateOracle_spec.success hp'
  obtain ⟨lpTokens, -, h⟩ := bind_eq_ok.1 h
  obtain ⟨-, -, h⟩ := bind_eq_ok.1 h
  obtain ⟨⟨lpToUser, lpToBurn⟩, -, h⟩ := bind_eq_ok.1 h
  obtain ⟨-, -, h⟩ := bind_eq_ok.1 h
  obtain ⟨reserveA, hA, h⟩ := bind_eq_ok.1 h
  obtain ⟨reserveB, hB, h⟩ := bind_eq_ok.1 h
  obtain ⟨totalSupply, -, h⟩ := bind_eq_ok.1 h
  obtain ⟨lpReceiver, -, h⟩ := bind_eq_ok.1 h
  obtain ⟨rfl, -⟩ := (add_noUnderflow _ _).success hA
  obtain ⟨rfl, -⟩ := (add_noUnderflow _ _).success hB
  cases h
  exact ⟨amountA, amountB, lpReceiver, lpToUser, lpToBurn, hmatch, rfl, rfl, rfl⟩

theorem provide_delta {sender : Addr} {assets : Asset × Asset} {share amountA amountB : ℕ}
    (hmatch : matchAssetAmounts p.pairInfo assets = .ok (amountA, amountB))
    (hreserves : out.1.reserves = (p.reserves.1 + amountA, p.reserves.2 + amountB)) :
    applyDelta (amounts p.reserves)
        ((PoolEvent.provide sender assets share).read.delta p.pairInfo.token0) =
        some (amounts out.1.reserves) ↔
      (PoolEvent.provide sender assets share).Faithful p.pairInfo.token0 := by
  rw [applyDelta_amounts, hreserves]
  unfold PoolEvent.read ParsedEvent.delta liquidityDelta PoolEvent.Faithful
  dsimp only
  rw [decide_eq_true rfl, if_pos rfl]
  unfold matchAssetAmounts at hmatch
  split at hmatch
  · rename_i hsame
    cases hmatch
    simp only [hsame.1, true_or, iff_true]
    constructor <;> push_cast <;> rfl
  · rename_i hother
    split at hmatch
    · rename_i hcrossed
      cases hmatch
      dsimp only
      constructor
      · intro ⟨h0, h1⟩
        right
        omega
      · intro hfaithful
        rcases hfaithful with hfirst | hequal
        · have htokens : AssetInfo.token p.pairInfo.token1 = .token p.pairInfo.token0 := by
            rw [← hcrossed.1, hfirst]
          exact absurd ⟨hfirst, by rw [hcrossed.2, htokens]⟩ hother
        · omega
    · cases hmatch

theorem withdraw_delta {env : Env} {offerToken sender : Addr} {lpAmount : ℕ}
    (h : Withdrawn p env offerToken sender lpAmount out) {refunds : Asset × Asset} {share : ℕ}
    (h0 : refunds.1.amount = lpAmount * p.reserves.1 / p.totalLpSupply)
    (h1 : refunds.2.amount = lpAmount * p.reserves.2 / p.totalLpSupply) :
    applyDelta (amounts p.reserves)
        ((PoolEvent.withdraw sender share refunds).read.delta p.pairInfo.token0) =
        some (amounts out.1.reserves) := by
  have hle : ∀ r, lpAmount * r / p.totalLpSupply ≤ r := fun r =>
    Nat.div_le_of_le_mul (Nat.mul_le_mul_right r h.supply)
  have hle0 := hle p.reserves.1
  have hle1 := hle p.reserves.2
  rw [applyDelta_amounts, h.stored]
  unfold PoolEvent.read ParsedEvent.delta liquidityDelta
  dsimp only
  rw [decide_eq_false (by decide), if_neg (by decide), h0, h1]
  dsimp only
  omega

/-- An accepted call emits one event and keeps the tokens; from the event the indexer gets the
stored reserves when it is faithful, and not otherwise. -/
theorem run_event {call : PoolCall} (h : call.run p = .ok out) :
    out.1.pairInfo = p.pairInfo ∧ ∃ event, emitted p call out.2.attributes = some event ∧
      (applyDelta (amounts p.reserves) (event.read.delta p.pairInfo.token0) =
        some (amounts out.1.reserves) ↔ event.Faithful p.pairInfo.token0) := by
  cases call with
  | swap q env offerToken sender inputAmount args =>
    obtain ⟨report, side, pool, hswap⟩ := executeSwap_accounts h
    constructor
    · exact hswap.info
    · refine ⟨.swap report (if 0 < bookLeg p inputAmount args then
        some report.limitBookOfferConsumed else none), ?_, swap_delta hswap ?_⟩
      · rw [hswap.attributes]
        rfl
      · split
        · rfl
        · rename_i hnone
          exact (hswap.bookless (by omega)).symm
  | provide q env sender assets slippageTolerance receiver =>
    obtain ⟨amountA, amountB, lpReceiver, share, burned, hmatch, hinfo, hreserves, hattributes⟩ :=
      executeProvide_accounts h
    constructor
    · exact hinfo
    · refine ⟨.provide sender assets share, ?_, provide_delta hmatch hreserves⟩
      · rw [hattributes]
        rfl
  | withdraw env offerToken sender lpAmount minAssets =>
    have hwithdrawn : Withdrawn p env offerToken sender lpAmount out :=
      (executeWithdrawLiquidity_spec minAssets).success h
    constructor
    · rw [hwithdrawn.stored]
    · refine ⟨.withdraw sender lpAmount
          (⟨.token p.pairInfo.token0, lpAmount * p.reserves.1 / p.totalLpSupply⟩,
            ⟨.token p.pairInfo.token1, lpAmount * p.reserves.2 / p.totalLpSupply⟩), ?_, ?_⟩
      · rw [hwithdrawn.attributes]
        rfl
      · exact iff_of_true (withdraw_delta hwithdrawn rfl rfl) trivial

end Steps

end Cl8yDex.PoolEvents
