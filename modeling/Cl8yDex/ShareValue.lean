import Cl8yDex.PoolRuns

/-!
# The value of an LP share

Along every run the product of the reserves behind the square of one share does not fall, a funded
pool stays funded, and neither a closed sequence of swaps nor a deposit with its withdrawal takes
anything out of the pool.
-/

namespace Cl8yDex

open Outcome ProportionalShares

theorem Deposit.Priced.minted_le {d : Deposit} {p : PairStorage} (h : d.Priced p)
    (hA : p.reserves.1 ≠ 0) : d.lpToBurn = 0 ∧
      d.lpToUser * p.reserves.1 ≤ d.amountA * p.totalLpSupply ∧
      d.lpToUser * p.reserves.2 ≤ d.amountB * p.totalLpSupply := by
  have hprice := h.price
  rw [if_neg (fun h => hA h.1)] at hprice
  obtain ⟨-, -, hburn, huser⟩ := hprice
  refine ⟨hburn, mul_le_of_minted ?_, mul_le_of_minted ?_⟩
  · rw [huser]
    exact Nat.min_le_left _ _
  · rw [huser]
    exact Nat.min_le_right _ _

namespace Pool

variable {s s' : Pool}

/-- What a share is worth, as a product of both assets. -/
def shareValue (s : Pool) : ℚ := value s.reserveA s.reserveB s.totalSupply

/-- The reserves behind one share do not fall. -/
def NoDilution (s s' : Pool) : Prop :=
  s.reserveA * s'.totalSupply ≤ s'.reserveA * s.totalSupply ∧
    s.reserveB * s'.totalSupply ≤ s'.reserveB * s.totalSupply

theorem Funded.totalSupply_pos (h : s.Funded) : 0 < s.totalSupply :=
  lt_of_lt_of_le (by decide) h.totalSupply

theorem product_eq (r : ℕ × ℕ) (side : LimitOrderSide) :
    r.1 * r.2 = inputReserve r side * outputReserve r side := by
  cases side
  · rfl
  · exact Nat.mul_comm _ _

/-- The reserves after a priced pool leg. -/
theorem outputReserve_after {r r' : ℕ × ℕ} {side : LimitOrderSide} {x g : ℕ}
    (hpos : 0 < inputReserve r side)
    (hg : g = ConstantProduct.output (inputReserve r side) (outputReserve r side) x)
    (hout : outputReserve r' side + g = outputReserve r side) :
    outputReserve r' side =
      ConstantProduct.reserveAfter (inputReserve r side) (outputReserve r side) x := by
  have h := ConstantProduct.output_add (o := outputReserve r side) (x := x) hpos
  omega

section OneChange

variable {out : PairStorage × Response}

theorem product_le_of_swapped {r r' : ℕ × ℕ} {side : LimitOrderSide} {x g : ℕ}
    (hpos : 0 < inputReserve r side)
    (hg : g = ConstantProduct.output (inputReserve r side) (outputReserve r side) x)
    (hin : inputReserve r' side = inputReserve r side + x)
    (hout : outputReserve r' side + g = outputReserve r side) : r.1 * r.2 ≤ r'.1 * r'.2 := by
  rw [product_eq r side, product_eq r' side, hin, outputReserve_after hpos hg hout]
  exact ConstantProduct.product_le hpos

/-- The burns of a message are covered by the LP tokens there are. -/
def Covered (s : Pool) (out : PairStorage × Response) : Prop :=
  totalOf (CosmosMsg.burned s.lpToken) out.2.messages ≤
    s.lpSupply + totalOf (CosmosMsg.minted s.lpToken) out.2.messages

instance (s : Pool) (out : PairStorage × Response) : Decidable (s.Covered out) :=
  inferInstanceAs (Decidable (_ ≤ _))

/-- A message leaves an empty pool empty or funds it. -/
theorem Empty.after (h : s.Empty) (hc : PoolChange s.storage out) :
    (s.after out).Empty ∨ (s.after out).Funded := by
  have hA : s.storage.reserves.1 = 0 := h.reserveA
  have hB : s.storage.reserves.2 = 0 := h.reserveB
  have hT : s.storage.totalLpSupply = 0 := h.totalSupply
  cases hc with
  | still reserves total lp =>
      obtain ⟨h1, h2⟩ := lp s.lpToken
      refine .inl ⟨?_, ?_, ?_, ?_⟩
      · exact (congrArg Prod.fst reserves).trans hA
      · exact (congrArg Prod.snd reserves).trans hB
      · exact total.trans hT
      · simp only [Pool.after, h1, h2, h.lpSupply]
  | swapped side x g positive =>
      cases side
      · exact absurd hA positive.1.ne'
      · exact absurd hB positive.1.ne'
  | provided d priced reserves total minted burned =>
      have hprice := priced.price
      rw [if_pos ⟨hA, hB⟩] at hprice
      obtain ⟨hburn, -⟩ := hprice
      have hpos := priced.positive
      have hsupply : (s.after out).lpSupply = d.lpToUser := by
        change s.lpSupply + totalOf (CosmosMsg.minted s.storage.pairInfo.lpToken) out.2.messages -
          totalOf (CosmosMsg.burned s.storage.pairInfo.lpToken) out.2.messages = d.lpToUser
        rw [minted, burned, h.lpSupply]
        omega
      have htotal : (s.after out).totalSupply = d.lpToUser + minimumLiquidity := by
        change out.1.totalLpSupply = _
        rw [total, hT, hburn, Nat.zero_add]
      refine .inr ⟨?_, ?_, ?_, ?_⟩
      · change 1 ≤ out.1.reserves.1
        rw [reserves]
        exact hpos.1.trans_le (Nat.le_add_left _ _)
      · change 1 ≤ out.1.reserves.2
        rw [reserves]
        exact hpos.2.trans_le (Nat.le_add_left _ _)
      · rw [htotal]
        exact Nat.le_add_left _ _
      · rw [htotal, hsupply]
  | withdrawn lpAmount positive supply => omega

theorem Funded.after (h : s.Funded) (hc : PoolChange s.storage out) (hburn : s.Covered out) :
    (s.after out).Funded := by
  have hA : 1 ≤ s.storage.reserves.1 := h.reserveA
  have hB : 1 ≤ s.storage.reserves.2 := h.reserveB
  have hT : minimumLiquidity ≤ s.storage.totalLpSupply := h.totalSupply
  have hS : s.lpSupply + minimumLiquidity ≤ s.storage.totalLpSupply := h.lpSupply
  have hafter : (s.after out).lpSupply = s.lpSupply +
      totalOf (CosmosMsg.minted s.storage.pairInfo.lpToken) out.2.messages -
        totalOf (CosmosMsg.burned s.storage.pairInfo.lpToken) out.2.messages := rfl
  have hcov : totalOf (CosmosMsg.burned s.storage.pairInfo.lpToken) out.2.messages ≤
      s.lpSupply + totalOf (CosmosMsg.minted s.storage.pairInfo.lpToken) out.2.messages := hburn
  suffices hmain : 1 ≤ out.1.reserves.1 ∧ 1 ≤ out.1.reserves.2 ∧
      minimumLiquidity ≤ out.1.totalLpSupply ∧
      (s.after out).lpSupply + minimumLiquidity ≤ out.1.totalLpSupply from
    ⟨hmain.1, hmain.2.1, hmain.2.2.1, hmain.2.2.2⟩
  cases hc with
  | still reserves total lp =>
      obtain ⟨h1, h2⟩ := lp s.storage.pairInfo.lpToken
      rw [reserves, total, hafter, h1, h2]
      exact ⟨hA, hB, hT, hS⟩
  | swapped side x g positive gross input output total lp =>
      obtain ⟨h1, h2⟩ := lp s.storage.pairInfo.lpToken
      have hout : 1 ≤ outputReserve out.1.reserves side := by
        rw [outputReserve_after positive.1 gross output]
        exact ConstantProduct.reserveAfter_pos positive.1 positive.2
      have hin : 1 ≤ inputReserve out.1.reserves side := by
        rw [input]
        exact positive.1.trans_le (Nat.le_add_right _ _)
      rw [total, hafter, h1, h2]
      cases side
      · exact ⟨hin, hout, hT, hS⟩
      · exact ⟨hout, hin, hT, hS⟩
  | provided d priced reserves total minted burned =>
      obtain ⟨hzero, -, -⟩ := priced.minted_le (Nat.one_le_iff_ne_zero.1 hA)
      rw [hafter, reserves, total, minted, burned, hzero]
      exact ⟨hA.trans (Nat.le_add_right _ _), hB.trans (Nat.le_add_right _ _), by omega, by omega⟩
  | withdrawn lpAmount positive supply reserves total minted burned =>
      rw [minted, burned] at hcov
      have hpos : 0 < minimumLiquidity := by decide
      have hlt : lpAmount < s.storage.totalLpSupply := by omega
      have hkeepA := redeem_lt hA hlt
      have hkeepB := redeem_lt hB hlt
      rw [hafter, reserves, total, minted, burned]
      refine ⟨Nat.le_sub_of_add_le ?_, Nat.le_sub_of_add_le ?_, ?_, ?_⟩
      · rwa [Nat.add_comm]
      · rwa [Nat.add_comm]
      · omega
      · omega

/-- Deposits and withdrawals do not dilute; nothing else changes the recorded supply. -/
theorem Funded.noDilution_or_product (h : s.Funded) (hc : PoolChange s.storage out) :
    s.NoDilution (s.after out) ∨ (s.after out).totalSupply = s.totalSupply ∧
      s.reserveA * s.reserveB ≤ (s.after out).reserveA * (s.after out).reserveB := by
  cases hc with
  | still reserves total lp =>
      refine .inr ⟨total, ?_⟩
      change _ ≤ out.1.reserves.1 * out.1.reserves.2
      rw [reserves]
      exact le_rfl
  | swapped side x g positive gross input output total lp =>
      exact .inr ⟨total, product_le_of_swapped positive.1 gross input output⟩
  | provided d priced reserves total minted burned =>
      refine .inl ?_
      obtain ⟨hzero, hleA, hleB⟩ := priced.minted_le (Nat.one_le_iff_ne_zero.1 h.reserveA)
      change _ * out.1.totalLpSupply ≤ out.1.reserves.1 * _ ∧
        _ * out.1.totalLpSupply ≤ out.1.reserves.2 * _
      rw [reserves, total, hzero]
      exact ⟨mint_ratio hleA, mint_ratio hleB⟩
  | withdrawn lpAmount positive supply reserves total minted burned =>
      refine .inl ?_
      change _ * out.1.totalLpSupply ≤ out.1.reserves.1 * _ ∧
        _ * out.1.totalLpSupply ≤ out.1.reserves.2 * _
      rw [reserves, total]
      exact ⟨redeem_ratio supply, redeem_ratio supply⟩

end OneChange

section Runs

theorem Reach.healthy (h : s.Reach) : ∃ A, Healthy s.storage A := by
  induction h with
  | start h => exact ⟨_, h.healthy⟩
  | step _ hs ih =>
      obtain ⟨A, hA⟩ := ih
      cases hs with
      | call hcall =>
          obtain ⟨-, A', -, hA'⟩ := (Change.call hcall).healthy hA
          exact ⟨A', hA'⟩
      | burn => exact ⟨A, hA⟩

theorem Step.change (hs : Step s s') (hA : ∃ A, Healthy s.storage A) :
    (∃ out, s' = s.after out ∧ PoolChange s.storage out ∧ s.Covered out) ∨
      ∃ n ≤ s.lpSupply, s' = { s with lpSupply := s.lpSupply - n } := by
  obtain ⟨A, hA⟩ := hA
  cases hs with
  | call hcall hburn =>
      exact .inl ⟨_, rfl, ((execute_spec hA.rep hA.balanced _).success hcall).pool, hburn⟩
  | burn h => exact .inr ⟨_, h, rfl⟩

theorem Reach.empty_or_funded (h : s.Reach) : s.Empty ∨ s.Funded := by
  induction h with
  | start h =>
      obtain ⟨-, -, hreserves, htotal⟩ := h.fresh
      exact .inl ⟨congrArg Prod.fst hreserves, congrArg Prod.snd hreserves, htotal, rfl⟩
  | step hr hs ih =>
      rcases hs.change hr.healthy with ⟨out, rfl, hc, hburn⟩ | ⟨n, hn, rfl⟩
      · exact ih.elim (fun h => h.after hc) fun h => .inr (h.after hc hburn)
      · refine ih.imp (fun h => ⟨h.reserveA, h.reserveB, h.totalSupply, ?_⟩)
          fun h => ⟨h.reserveA, h.reserveB, h.totalSupply, ?_⟩
        · simp only [h.lpSupply, Nat.zero_sub]
        · exact (Nat.add_le_add_right (Nat.sub_le _ _) _).trans h.lpSupply

/-- One step keeps a pool funded and the value of its shares. -/
theorem Funded.step (h : s.Funded) (hr : s.Reach) (hs : Step s s') :
    s'.Funded ∧ s.shareValue ≤ s'.shareValue := by
  rcases hs.change hr.healthy with ⟨out, rfl, hc, hburn⟩ | ⟨n, hn, rfl⟩
  · have hafter := h.after hc hburn
    refine ⟨hafter, ?_⟩
    rcases h.noDilution_or_product hc with ⟨hA, hB⟩ | ⟨htotal, hproduct⟩
    · exact value_le_of_ratios h.totalSupply_pos hafter.totalSupply_pos hA hB
    · rw [shareValue, shareValue, htotal]
      exact value_le_of_product hproduct
  · exact ⟨⟨h.reserveA, h.reserveB, h.totalSupply,
      (Nat.add_le_add_right (Nat.sub_le _ _) _).trans h.lpSupply⟩, le_rfl⟩

theorem Funded.run (h : s.Funded) (hr : s.Reach) (hs : Relation.ReflTransGen Step s s') :
    s'.Funded ∧ s.shareValue ≤ s'.shareValue := by
  suffices hmain : s'.Reach ∧ s'.Funded ∧ s.shareValue ≤ s'.shareValue from hmain.2
  induction hs with
  | refl => exact ⟨hr, h, le_rfl⟩
  | tail _ hstep ih =>
      obtain ⟨hr', h', hle⟩ := ih
      obtain ⟨h'', hle'⟩ := h'.step hr' hstep
      exact ⟨hr'.step hstep, h'', hle.trans hle'⟩

end Runs

section Swaps

/-- An amount of one of the two assets, by the side that escrows it. -/
def amountOf (side : LimitOrderSide) (n : ℕ) (t : LimitOrderSide) : ℕ := if t = side then n else 0

/-- A sequence of swaps, with what was paid into the pool and what it returned, by asset. -/
inductive Swaps (s : Pool) : (LimitOrderSide → ℕ) → (LimitOrderSide → ℕ) → Pool → Prop
  | nil : Swaps s (fun _ => 0) (fun _ => 0) s
  | swap {s' : Pool} {paid got : LimitOrderSide → ℕ} (h : Swaps s paid got s') {q : Querier}
      {env : Env} {token sender : Addr} {amount : ℕ} {args : SwapArgs}
      {out : PairStorage × Response} {side : LimitOrderSide} {report : SwapReport}
      (hswap : executeSwap s'.storage q env token sender amount args = .ok out)
      (hside : s'.storage.pairInfo.takenSide token = .ok side)
      (hreport : out.2.attributes = .swap report) :
      Swaps s (fun t => paid t + amountOf side.other (amount - report.limitBookOfferConsumed) t)
        (fun t => got t + amountOf side report.poolReturnAmount t) (s'.after out)

/-- One swap: what the pool returned came out of its reserve, and the product did not fall. -/
theorem swap_flow {p : PairStorage} {A : AbsBook} {q : Querier} {env : Env} {token sender : Addr}
    {amount : ℕ} {args : SwapArgs} {out : PairStorage × Response} {side : LimitOrderSide}
    {report : SwapReport} (hA : Healthy p A)
    (hswap : executeSwap p q env token sender amount args = .ok out)
    (hside : p.pairInfo.takenSide token = .ok side) (hreport : out.2.attributes = .swap report) :
    (∃ A', Healthy out.1 A') ∧
      p.reserves.1 * p.reserves.2 ≤ out.1.reserves.1 * out.1.reserves.2 ∧
      ∀ t, outputReserve out.1.reserves t + amountOf side report.poolReturnAmount t ≤
        outputReserve p.reserves t +
          amountOf side.other (amount - report.limitBookOfferConsumed) t := by
  obtain ⟨bps, hfee⟩ := exists_takerFee p q env args sender
  obtain ⟨parts, h⟩ := (executeSwap_spec hA.rep hA.balanced hfee).success hswap
  have hserved : Served p A q env token (.receive ⟨sender, amount, .swap args none⟩) out :=
    .swapped bps parts h
  obtain ⟨-, A', -, hA'⟩ := hserved.healthy hA
  refine ⟨⟨A', hA'⟩, ?_, fun t => ?_⟩
  · rcases h.reserves with hsame | ⟨hpos, hgross, hin, hout⟩
    · rw [hsame]
    · exact product_le_of_swapped hpos.1 hgross hin hout
  obtain rfl : side = parts.side := Except.ok.inj (hside.symm.trans h.side)
  have hrep := h.attributes
  rw [hreport] at hrep
  obtain rfl := Attributes.swap.inj hrep
  have hacc := h.accounts
  have hsplit := hacc.split
  have hoffer := h.offer
  have hinput := hacc.offer
  have hin := hacc.input
  have hout := hacc.output
  have hreserves : out.1.reserves = parts.legs.reserves := by rw [h.stored]
  have hconsumed : (parts.legs.report parts.settlement sender parts.receiver token
      (p.pairInfo.escrowToken parts.side) amount bps).limitBookOfferConsumed =
        parts.legs.bookMatch.offerConsumed := rfl
  have hreturn : (parts.legs.report parts.settlement sender parts.receiver token
      (p.pairInfo.escrowToken parts.side) amount bps).poolReturnAmount =
        parts.legs.pool.returnAmount := rfl
  rw [hreserves, hconsumed, hreturn, amountOf, amountOf]
  by_cases ht : t = parts.side
  · subst ht
    rw [if_pos rfl, if_neg (Ne.symm (LimitOrderSide.other_ne _))]
    omega
  · obtain rfl := LimitOrderSide.eq_other_of_ne ht
    have hin' : outputReserve parts.legs.reserves parts.side.other =
        outputReserve p.reserves parts.side.other + parts.legs.pool.input := hin
    rw [if_neg ht, if_pos rfl]
    omega

theorem Swaps.flow {paid got : LimitOrderSide → ℕ} (hA : ∃ A, Healthy s.storage A)
    (h : s.Swaps paid got s') : (∃ A, Healthy s'.storage A) ∧
      s.reserveA * s.reserveB ≤ s'.reserveA * s'.reserveB ∧
      ∀ t, outputReserve s'.storage.reserves t + got t ≤
        outputReserve s.storage.reserves t + paid t := by
  induction h with
  | nil => exact ⟨hA, le_rfl, fun t => le_rfl⟩
  | @swap s' paid got _ q env token sender amount args out side report hswap hside hreport ih =>
      obtain ⟨⟨A, hA'⟩, hproduct, hflow⟩ := ih
      obtain ⟨hA'', hle, hone⟩ := swap_flow hA' hswap hside hreport
      refine ⟨hA'', hproduct.trans hle, fun t => ?_⟩
      have h1 := hflow t
      have h2 := hone t
      simp only [Pool.after]
      omega

/-- Swaps that return as much of one asset as they paid return no more of the other. -/
theorem Swaps.no_gain {paid got : LimitOrderSide → ℕ} (hr : s.Reach) (h : s.Swaps paid got s')
    {side : LimitOrderSide} (hclosed : paid side ≤ got side) :
    got side.other ≤ paid side.other := by
  obtain ⟨-, hproduct, hflow⟩ := h.flow hr.healthy
  have hside := hflow side
  have hother := hflow side.other
  have hle : outputReserve s'.storage.reserves side ≤ outputReserve s.storage.reserves side := by
    omega
  change s.storage.reserves.1 * s.storage.reserves.2 ≤
    s'.storage.reserves.1 * s'.storage.reserves.2 at hproduct
  rw [product_eq _ side, product_eq _ side] at hproduct
  rcases hr.empty_or_funded with he | hf
  · have hzero : outputReserve s.storage.reserves side.other = 0 := by
      cases side
      · exact he.reserveA
      · exact he.reserveB
    omega
  · have hpos : 0 < outputReserve s.storage.reserves side := by
      cases side
      · exact hf.reserveB
      · exact hf.reserveA
    have hkept : inputReserve s.storage.reserves side ≤ inputReserve s'.storage.reserves side :=
      Nat.le_of_mul_le_mul_right (hproduct.trans (Nat.mul_le_mul_left _ hle)) hpos
    have hkept' : outputReserve s.storage.reserves side.other ≤
        outputReserve s'.storage.reserves side.other := hkept
    omega

end Swaps

section Deposits

variable {q : Querier} {env env' : Env} {sender sender' token : Addr}
  {out out' : PairStorage × Response}

theorem noDilution_of_provide {assets : Asset × Asset} {tolerance : Option Decimal}
    {receiver : Option Addr} (hf : s.Funded)
    (h : executeProvideLiquidity s.storage q env sender assets tolerance receiver = .ok out) :
    s.NoDilution (s.after out) := by
  obtain ⟨d, hd⟩ := (executeProvideLiquidity_spec assets tolerance receiver).success h
  obtain ⟨hzero, hleA, hleB⟩ := hd.priced.minted_le (Nat.one_le_iff_ne_zero.1 hf.reserveA)
  have hreserves : out.1.reserves =
      (s.storage.reserves.1 + d.amountA, s.storage.reserves.2 + d.amountB) := by rw [hd.stored]
  have htotal : out.1.totalLpSupply = s.storage.totalLpSupply + (d.lpToUser + d.lpToBurn) := by
    rw [hd.stored]
  change _ * out.1.totalLpSupply ≤ out.1.reserves.1 * _ ∧
    _ * out.1.totalLpSupply ≤ out.1.reserves.2 * _
  rw [hreserves, htotal, hzero]
  exact ⟨mint_ratio hleA, mint_ratio hleB⟩

theorem noDilution_of_withdraw {lpAmount : ℕ} {minAssets : Option (ℕ × ℕ)}
    (h : executeWithdrawLiquidity s.storage env token sender lpAmount minAssets = .ok out) :
    s.NoDilution (s.after out) := by
  have hw := (executeWithdrawLiquidity_spec minAssets).success h
  have hreserves : out.1.reserves =
      (s.storage.reserves.1 - lpAmount * s.storage.reserves.1 / s.storage.totalLpSupply,
        s.storage.reserves.2 - lpAmount * s.storage.reserves.2 / s.storage.totalLpSupply) := by
    rw [hw.stored]
  have htotal : out.1.totalLpSupply = s.storage.totalLpSupply - lpAmount := by rw [hw.stored]
  change _ * out.1.totalLpSupply ≤ out.1.reserves.1 * _ ∧
    _ * out.1.totalLpSupply ≤ out.1.reserves.2 * _
  rw [hreserves, htotal]
  exact ⟨redeem_ratio hw.supply, redeem_ratio hw.supply⟩

/-- A deposit and the withdrawal of what it minted, or of a part of it. -/
theorem round_trip {assets : Asset × Asset} {tolerance : Option Decimal}
    {receiver : Option Addr} {lpAmount amountA amountB share burnt refundA refundB : ℕ}
    {minAssets : Option (ℕ × ℕ)} {lpReceiver user : Addr} (hr : s.Reach)
    (h : executeProvideLiquidity s.storage q env sender assets tolerance receiver = .ok out)
    (h' : executeWithdrawLiquidity out.1 env' token sender' lpAmount minAssets = .ok out')
    (hprovide : out.2.attributes =
      .provideLiquidity sender lpReceiver amountA amountB share burnt)
    (hwithdraw : out'.2.attributes = .withdrawLiquidity user lpAmount refundA refundB)
    (hle : lpAmount ≤ share) : refundA ≤ amountA ∧ refundB ≤ amountB := by
  obtain ⟨d, hd⟩ := (executeProvideLiquidity_spec assets tolerance receiver).success h
  have hw := (executeWithdrawLiquidity_spec minAssets).success h'
  rw [hd.attributes] at hprovide
  rw [hw.attributes] at hwithdraw
  cases hprovide
  cases hwithdraw
  have hreserves : out.1.reserves =
      (s.storage.reserves.1 + d.amountA, s.storage.reserves.2 + d.amountB) := by rw [hd.stored]
  have htotal : out.1.totalLpSupply = s.storage.totalLpSupply + (d.lpToUser + d.lpToBurn) := by
    rw [hd.stored]
  rw [hreserves, htotal]
  rcases hr.empty_or_funded with he | hf
  · have hA : s.storage.reserves.1 = 0 := he.reserveA
    have hB : s.storage.reserves.2 = 0 := he.reserveB
    have hcap : lpAmount ≤ s.storage.totalLpSupply + (d.lpToUser + d.lpToBurn) := by omega
    rw [hA, hB, Nat.zero_add, Nat.zero_add]
    exact ⟨redeem_le hcap, redeem_le hcap⟩
  · obtain ⟨hzero, hleA, hleB⟩ := hd.priced.minted_le (Nat.one_le_iff_ne_zero.1 hf.reserveA)
    rw [hzero, Nat.add_zero]
    exact ⟨round_trip_le hleA hle, round_trip_le hleB hle⟩

end Deposits

/-- What the first deposit secures for every later state. -/
structure Protected (s : Pool) : Prop where
  funded : ∀ s', Relation.ReflTransGen Step s s' → 1 ≤ s'.reserveA ∧ 1 ≤ s'.reserveB ∧
    minimumLiquidity ≤ s'.totalSupply ∧ s'.lpSupply + minimumLiquidity ≤ s'.totalSupply ∧
      isFirstDeposit s'.storage.reserves = false
  value : ∀ s', Relation.ReflTransGen Step s s' → s.shareValue ≤ s'.shareValue
  provide : ∀ q env sender assets tolerance receiver out,
    executeProvideLiquidity s.storage q env sender assets tolerance receiver = .ok out →
      s.NoDilution (s.after out)
  withdraw : ∀ env token sender lpAmount minAssets out,
    executeWithdrawLiquidity s.storage env token sender lpAmount minAssets = .ok out →
      s.NoDilution (s.after out)

/-- No one takes more out of the pool than he put in. -/
structure NoGain (s : Pool) : Prop where
  swap : ∀ q env token sender amount args out,
    executeSwap s.storage q env token sender amount args = .ok out →
      s.reserveA * s.reserveB ≤ (s.after out).reserveA * (s.after out).reserveB
  swaps : ∀ paid got s', s.Swaps paid got s' → ∀ side, paid side ≤ got side →
    got side.other ≤ paid side.other
  roundTrip : ∀ q env sender assets tolerance receiver out env' token sender' lpAmount minAssets
    out' lpReceiver amountA amountB share burnt user refundA refundB,
    executeProvideLiquidity s.storage q env sender assets tolerance receiver = .ok out →
    executeWithdrawLiquidity out.1 env' token sender' lpAmount minAssets = .ok out' →
    out.2.attributes = .provideLiquidity sender lpReceiver amountA amountB share burnt →
    out'.2.attributes = .withdrawLiquidity user lpAmount refundA refundB → lpAmount ≤ share →
      refundA ≤ amountA ∧ refundB ≤ amountB

theorem Reach.noGain (hr : s.Reach) : s.NoGain where
  swap q env token sender amount args out h := by
    obtain ⟨A, hA⟩ := hr.healthy
    obtain ⟨bps, hfee⟩ := exists_takerFee s.storage q env args sender
    obtain ⟨parts, hparts⟩ := (executeSwap_spec hA.rep hA.balanced hfee).success h
    exact (swap_flow hA h hparts.side hparts.attributes).2.1
  swaps paid got s' h side hclosed := h.no_gain hr hclosed
  roundTrip q env sender assets tolerance receiver out env' token sender' lpAmount minAssets out'
      lpReceiver amountA amountB share burnt user refundA refundB h h' hp hw hle :=
    round_trip hr h h' hp hw hle

/-- The first deposit funds the pool for good. From then on no deposit or withdrawal dilutes the
shares and their value never falls; and at no time does anyone gain from the pool's rounding. -/
theorem share_value_never_falls (hr : s.Reach) :
    s.NoGain ∧ (s.totalSupply = 0 → s.reserveA = 0 ∧ s.reserveB = 0) ∧
      (s.totalSupply ≠ 0 → s.Protected) := by
  refine ⟨hr.noGain, fun hzero => ?_, fun hne => ?_⟩
  · rcases hr.empty_or_funded with he | hf
    · exact ⟨he.reserveA, he.reserveB⟩
    · exact absurd hzero hf.totalSupply_pos.ne'
  · have hf := hr.empty_or_funded.resolve_left fun he => hne he.totalSupply
    refine ⟨fun s' hs => ?_, fun s' hs => (hf.run hr hs).2, fun _ _ _ _ _ _ _ h =>
      noDilution_of_provide hf h, fun _ _ _ _ _ _ h => noDilution_of_withdraw h⟩
    obtain ⟨hf', -⟩ := hf.run hr hs
    refine ⟨hf'.reserveA, hf'.reserveB, hf'.totalSupply, hf'.lpSupply, ?_⟩
    have hA : s'.storage.reserves.1 ≠ 0 := Nat.one_le_iff_ne_zero.1 hf'.reserveA
    simp [isFirstDeposit, hA]

end Pool

/-- The first deposit of a new pair. -/
def sampleDeposit : Except ContractError (PairStorage × Response) :=
  execute samplePair .permissive (sampleEnv 1000) 7 (.provideLiquidity
    (⟨.token 1, 1000000⟩, ⟨.token 2, 3000000⟩) none none none)

theorem share_value_never_falls_sample : ∃ s : Pool, s.totalSupply = 1732050 ∧ s.Protected := by
  have hok : Meets sampleDeposit (fun out => (⟨samplePair, 0⟩ : Pool).Covered out ∧
      out.1.totalLpSupply = 1732050) (fun _ => False) := by
    decide +kernel
  obtain ⟨out, h, hburn, htotal⟩ := hok.accepted
  have hreach : ((⟨samplePair, 0⟩ : Pool).after out).Reach :=
    .step (.start samplePair_starts) (.call h hburn)
  have hne : out.1.totalLpSupply ≠ 0 := by
    rw [htotal]
    decide
  exact ⟨(⟨samplePair, 0⟩ : Pool).after out, htotal, (Pool.share_value_never_falls hreach).2.2 hne⟩

end Cl8yDex
