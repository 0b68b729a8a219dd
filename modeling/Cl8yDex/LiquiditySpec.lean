import Cl8yDex.SwapPlanSpec

/-!
# What deposits and withdrawals do

A deposit mints no more than its share of either reserve, and a withdrawal pays no more than the
share of the tokens it burns. The book is left alone.
-/

namespace Cl8yDex

open Outcome

section Arithmetic

variable {amount whole base lp amountA amountB a b total : ℕ}

theorem floorShare_spec (ctx : String) : Meets (floorShare amount whole base ctx)
    (fun out => base ≠ 0 ∧ out.2 = amount * whole / base) (fun e => ¬e.Underflow) := by
  unfold floorShare
  refine (mul256_noUnderflow _ _).self.bind fun n hn => ?_
  have hdiv : Meets (divOrZero n base) (fun _ => True) (fun e => ¬e.Underflow) :=
    (orThrow_noUnderflow (by rintro ⟨_, _, ⟨⟩⟩)).weaken fun _ _ => trivial
  refine hdiv.self.bind fun c hc => ?_
  obtain ⟨hbase, rfl⟩ := divOrZero_eq_ok.1 hc.1
  refine (narrowU128_noUnderflow _ ctx).bind fun share hshare => ?_
  exact ⟨hbase, by rw [hshare.1, (mul256_eq_ok.1 hn.1).2]⟩

theorem checkFloor_noUnderflow (numerator share base : ℕ) (reason : ℕ → InvariantReason)
    (hreason : ∀ n s path, reason n ≠ .pendingEscrowUnderflow s path) :
    Meets (checkFloor numerator share base reason) (fun _ => True) (fun e => ¬e.Underflow) := by
  unfold checkFloor
  refine (mul256_noUnderflow _ _).bind fun scaled _ => ?_
  refine (ensure_noUnderflow ?_).weaken fun _ _ => trivial
  rintro ⟨s, path, he⟩
  exact hreason _ s path (ContractError.invariantViolation.inj he)

/-- The checks alone say that the first mint is the square root of the product. -/
theorem firstDepositLp_spec : Meets (firstDepositLp amountA amountB)
    (fun lp => lp * lp ≤ amountA * amountB ∧ amountA * amountB < (lp + 1) * (lp + 1))
    (fun e => ¬e.Underflow) := by
  have hmul : ∀ m n, Meets (mul256OrOverflow m n) (fun k => k = m * n) (fun e => ¬e.Underflow) :=
    fun m n => (mul256_noUnderflow m n).self.weaken fun k hk => (mul256_eq_ok.1 hk.1).2
  unfold firstDepositLp
  refine (hmul amountA amountB).bind fun product hproduct => ?_
  refine (narrowU128_noUnderflow _ _).bind fun lp _ => ?_
  refine (hmul lp lp).bind fun square hsquare => ?_
  refine (ensure_noUnderflow (by rintro ⟨_, _, ⟨⟩⟩)).bind fun _ hle => ?_
  refine (hmul (lp + 1) (lp + 1)).bind fun next hnext => ?_
  refine (ensure_noUnderflow (by rintro ⟨_, _, ⟨⟩⟩)).bind fun _ hlt => ?_
  subst hproduct hsquare hnext
  exact ⟨hle, hlt⟩

theorem proportionalLp_spec : Meets (proportionalLp amountA amountB a b total)
    (fun lp => a ≠ 0 ∧ b ≠ 0 ∧ lp = min (amountA * total / a) (amountB * total / b))
    (fun e => ¬e.Underflow) := by
  unfold proportionalLp
  refine (floorShare_spec _).bind fun outA hA => ?_
  refine (floorShare_spec _).bind fun outB hB => ?_
  refine (checkFloor_noUnderflow _ _ _ _ (by rintro _ _ _ ⟨⟩)).bind fun _ _ => ?_
  refine (checkFloor_noUnderflow _ _ _ _ (by rintro _ _ _ ⟨⟩)).bind fun _ _ => ?_
  exact ⟨hA.1, hB.1, by rw [hA.2, hB.2]⟩

end Arithmetic

section Provide

variable {p : PairStorage} {q : Querier} {env : Env} {sender : Addr}

theorem addrValidateOr_noUnderflow (a : Option Addr) (default : Addr) :
    Meets (q.addrValidateOr a default) (fun _ => True) (fun e => ¬e.Underflow) :=
  (addrValidateOr_gate a default).mono (fun _ h => h) fun _ h => h.noUnderflow

/-- The amounts of a deposit and what it mints. -/
structure Deposit where
  amountA : ℕ
  amountB : ℕ
  receiver : Addr
  lpToUser : ℕ
  lpToBurn : ℕ

/-- How the mint of a deposit is priced. -/
structure Deposit.Priced (p : PairStorage) (d : Deposit) : Prop where
  positive : 0 < d.amountA ∧ 0 < d.amountB
  minted : 0 < d.lpToUser
  price : if p.reserves.1 = 0 ∧ p.reserves.2 = 0 then d.lpToBurn = minimumLiquidity ∧
      (d.lpToUser + d.lpToBurn) * (d.lpToUser + d.lpToBurn) ≤ d.amountA * d.amountB
    else p.reserves.1 ≠ 0 ∧ p.reserves.2 ≠ 0 ∧ d.lpToBurn = 0 ∧ d.lpToUser =
      min (d.amountA * p.totalLpSupply / p.reserves.1) (d.amountB * p.totalLpSupply / p.reserves.2)

/-- What the pair stored and answered to a deposit. -/
structure Provided (p : PairStorage) (env : Env) (sender : Addr) (out : PairStorage × Response)
    (d : Deposit) : Prop where
  priced : d.Priced p
  oracle : p.oracle.update env.blockTime p.reserves.1 p.reserves.2 = .ok out.1.oracle
  stored : out.1 = { p with
    oracle := out.1.oracle
    reserves := (p.reserves.1 + d.amountA, p.reserves.2 + d.amountB)
    totalLpSupply := p.totalLpSupply + (d.lpToUser + d.lpToBurn) }
  messages : out.2.messages = [.transferFrom p.pairInfo.token0 sender env.contract d.amountA,
    .transferFrom p.pairInfo.token1 sender env.contract d.amountB,
    .mint p.pairInfo.lpToken d.receiver d.lpToUser] ++
      burnMessages env.contract p.pairInfo.lpToken d.lpToBurn
  attributes : out.2.attributes =
    .provideLiquidity sender d.receiver d.amountA d.amountB d.lpToUser d.lpToBurn

theorem lpTokensTotal_spec (amountA amountB : ℕ) : Meets (lpTokensTotal p q amountA amountB)
    (fun lp => if p.reserves.1 = 0 ∧ p.reserves.2 = 0 then lp * lp ≤ amountA * amountB
      else p.reserves.1 ≠ 0 ∧ p.reserves.2 ≠ 0 ∧ lp =
        min (amountA * p.totalLpSupply / p.reserves.1) (amountB * p.totalLpSupply / p.reserves.2))
    (fun e => ¬e.Underflow) := by
  unfold lpTokensTotal
  by_cases hfirst : p.reserves.1 = 0 ∧ p.reserves.2 = 0
  · rw [if_pos (by simpa [isFirstDeposit] using hfirst)]
    refine Meets.bind (Q := fun _ => True) ?_ fun _ _ => ?_
    · exact (queryPairAssetDecimals_noUnderflow q p.pairInfo).bind fun _ _ =>
        (ensure_noUnderflow (by rintro ⟨_, _, ⟨⟩⟩)).weaken fun _ _ => trivial
    · refine firstDepositLp_spec.weaken fun lp hlp => ?_
      rw [if_pos hfirst]
      exact hlp.1
  · rw [if_neg (by simpa [isFirstDeposit] using hfirst)]
    refine proportionalLp_spec.weaken fun lp hlp => ?_
    rw [if_neg hfirst]
    exact hlp

theorem checkLpSlippage_noUnderflow (amountA amountB lpToUser : ℕ) (tolerance : Option Decimal) :
    Meets (checkLpSlippage p amountA amountB lpToUser tolerance) (fun _ => True)
      (fun e => ¬e.Underflow) := by
  unfold checkLpSlippage
  cases tolerance with
  | none => exact trivial
  | some tolerance =>
      simp only
      split_ifs
      · exact trivial
      · unfold assertLpSlippage
        refine (floorShare_spec _).bind fun outA _ => ?_
        refine (floorShare_spec _).bind fun outB _ => ?_
        simp only
        split_ifs
        · exact trivial
        · refine Meets.bind (Q := fun _ => True) ?_ fun _ _ => ?_
          · exact (orThrow_noUnderflow (by rintro ⟨_, _, ⟨⟩⟩)).bind fun _ _ =>
              (orThrow_noUnderflow (by rintro ⟨_, _, ⟨⟩⟩)).weaken fun _ _ => trivial
          · exact (ensure_noUnderflow (by rintro ⟨_, _, ⟨⟩⟩)).weaken fun _ _ => trivial

theorem splitMint_spec (lpTokens : ℕ) : Meets (splitMint (isFirstDeposit p.reserves) lpTokens)
    (fun out => out.1 + out.2 = lpTokens ∧ (lpTokens ≠ 0 → 0 < out.1) ∧
      if p.reserves.1 = 0 ∧ p.reserves.2 = 0 then out.2 = minimumLiquidity else out.2 = 0)
    (fun e => ¬e.Underflow) := by
  unfold splitMint
  by_cases hfirst : p.reserves.1 = 0 ∧ p.reserves.2 = 0
  · rw [if_pos (by simpa [isFirstDeposit] using hfirst)]
    refine (ensure_noUnderflow (by rintro ⟨_, _, ⟨⟩⟩)).bind fun _ hlt => ?_
    refine (sub_noUnderflow _ _).bind fun toUser hsub => ?_
    obtain ⟨hto, hle⟩ := hsub
    change toUser + minimumLiquidity = lpTokens ∧ (lpTokens ≠ 0 → 0 < toUser) ∧ _
    rw [hto, if_pos hfirst]
    exact ⟨Nat.sub_add_cancel hle, fun _ => Nat.sub_pos_of_lt hlt, rfl⟩
  · rw [if_neg (by simpa [isFirstDeposit] using hfirst)]
    exact ⟨rfl, Nat.pos_of_ne_zero, by rw [if_neg hfirst]⟩

theorem executeProvideLiquidity_spec (assets : Asset × Asset) (tolerance : Option Decimal)
    (receiver : Option Addr) :
    Meets (executeProvideLiquidity p q env sender assets tolerance receiver)
      (fun out => ∃ d, Provided p env sender out d) (fun e => ¬e.Underflow) := by
  unfold executeProvideLiquidity
  refine Meets.bind (Q := fun _ => True) ?_ fun amounts _ => ?_
  · unfold matchAssetAmounts
    split_ifs
    · exact trivial
    · exact trivial
    · rintro ⟨_, _, ⟨⟩⟩
  obtain ⟨amountA, amountB⟩ := amounts
  refine (ensure_noUnderflow (by rintro ⟨_, _, ⟨⟩⟩)).bind fun _ hpos => ?_
  refine (updateOracle_spec.mono (fun _ h => h) fun e he => he.1).bind ?_
  rintro _ ⟨o, ho, rfl⟩
  refine (lpTokensTotal_spec amountA amountB).bind fun lp hlp => ?_
  refine (ensure_noUnderflow (by rintro ⟨_, _, ⟨⟩⟩)).bind fun _ hne => ?_
  refine (splitMint_spec lp).bind fun out hsplit => ?_
  obtain ⟨toUser, toBurn⟩ := out
  obtain ⟨rfl, hminted, hburn⟩ := hsplit
  refine (checkLpSlippage_noUnderflow _ _ _ _).bind fun _ _ => ?_
  refine (add_noUnderflow _ _).bind fun reserveA hA => ?_
  refine (add_noUnderflow _ _).bind fun reserveB hB => ?_
  refine (add_noUnderflow _ _).bind fun totalSupply hT => ?_
  refine (addrValidateOr_noUnderflow receiver sender).bind fun lpReceiver _ => ?_
  obtain ⟨rfl, -⟩ := hA
  obtain ⟨rfl, -⟩ := hB
  obtain ⟨rfl, -⟩ := hT
  refine ⟨⟨amountA, amountB, lpReceiver, toUser, toBurn⟩, ⟨?_, hminted hne, ?_⟩, ho, rfl, rfl, rfl⟩
  · simp only at hpos ⊢
    omega
  · simp only at hlp hburn ⊢
    split_ifs at hlp hburn ⊢ with hfirst
    · exact ⟨hburn, hlp⟩
    · subst hburn
      exact ⟨hlp.1, hlp.2.1, rfl, hlp.2.2⟩

theorem amounts_of_burn (token pair lpToken : Addr) (n : ℕ) :
    totalOf (CosmosMsg.sent token) (burnMessages pair lpToken n) = 0 ∧
      totalOf (CosmosMsg.pulled token) (burnMessages pair lpToken n) = 0 := by
  unfold burnMessages
  split_ifs <;> exact ⟨rfl, rfl⟩

theorem Provided.operation {A : AbsBook} {out : PairStorage × Response} {d : Deposit}
    (h : Provided p env sender out d) (hrep : Represents p.book A) :
    Operation A p sender (fun _ => 0) out := by
  have hbook : out.1.book = p.book := by rw [h.stored]
  have hinfo : out.1.pairInfo = p.pairInfo := by rw [h.stored]
  have hreserves : out.1.reserves = (p.reserves.1 + d.amountA, p.reserves.2 + d.amountB) := by
    rw [h.stored]
  refine ⟨[], A, .idle hrep hbook hinfo, fun hd s => ?_⟩
  obtain ⟨h1, h2⟩ := amounts_of_burn (p.pairInfo.escrowToken s) env.contract p.pairInfo.lpToken
    d.lpToBurn
  rw [h.messages]
  simp only [totalOf_append, totalOf_cons, totalOf_nil, h1, h2, CosmosMsg.sent, CosmosMsg.pulled,
    PairStorage.owed, hbook, hreserves]
  cases s with
  | bid =>
      simp only [PairInfo.escrowToken, outputReserve, hd.assets, if_true, if_false]
      omega
  | ask =>
      simp only [PairInfo.escrowToken, outputReserve, Ne.symm hd.assets, if_true, if_false]
      omega

end Provide

section Withdraw

variable {p : PairStorage} {env : Env} {offerToken sender : Addr} {lpAmount : ℕ}

/-- What the pair stored and answered to a withdrawal. -/
structure Withdrawn (p : PairStorage) (env : Env) (offerToken sender : Addr) (lpAmount : ℕ)
    (out : PairStorage × Response) : Prop where
  token : offerToken = p.pairInfo.lpToken
  positive : 0 < lpAmount
  supply : lpAmount ≤ p.totalLpSupply
  oracle : p.oracle.update env.blockTime p.reserves.1 p.reserves.2 = .ok out.1.oracle
  stored : out.1 = { p with
    oracle := out.1.oracle
    reserves := (p.reserves.1 - lpAmount * p.reserves.1 / p.totalLpSupply,
      p.reserves.2 - lpAmount * p.reserves.2 / p.totalLpSupply)
    totalLpSupply := p.totalLpSupply - lpAmount }
  messages : out.2.messages = [.burn p.pairInfo.lpToken lpAmount,
    .transfer p.pairInfo.token0 sender (lpAmount * p.reserves.1 / p.totalLpSupply),
    .transfer p.pairInfo.token1 sender (lpAmount * p.reserves.2 / p.totalLpSupply)]
  attributes : out.2.attributes = .withdrawLiquidity sender lpAmount
    (lpAmount * p.reserves.1 / p.totalLpSupply) (lpAmount * p.reserves.2 / p.totalLpSupply)

theorem withdrawAmounts_spec : Meets (withdrawAmounts p lpAmount)
    (fun out => out = (lpAmount * p.reserves.1 / p.totalLpSupply,
      lpAmount * p.reserves.2 / p.totalLpSupply)) (fun e => ¬e.Underflow) := by
  unfold withdrawAmounts
  refine (floorShare_spec _).bind fun outA hA => ?_
  refine (floorShare_spec _).bind fun outB hB => ?_
  refine (checkFloor_noUnderflow _ _ _ _ (by rintro _ _ _ ⟨⟩)).bind fun _ _ => ?_
  refine (checkFloor_noUnderflow _ _ _ _ (by rintro _ _ _ ⟨⟩)).bind fun _ _ => ?_
  exact Prod.ext hA.2 hB.2

theorem assertMinAssets_noUnderflow (info : PairInfo) (amounts : ℕ × ℕ)
    (minAssets : Option (ℕ × ℕ)) :
    Meets (assertMinAssets info amounts minAssets) (fun _ => True) (fun e => ¬e.Underflow) := by
  unfold assertMinAssets
  cases minAssets with
  | none => exact trivial
  | some mins =>
      refine (ensure_noUnderflow (by rintro ⟨_, _, ⟨⟩⟩)).bind fun _ _ => ?_
      exact (ensure_noUnderflow (by rintro ⟨_, _, ⟨⟩⟩)).weaken fun _ _ => trivial

theorem executeWithdrawLiquidity_spec (minAssets : Option (ℕ × ℕ)) :
    Meets (executeWithdrawLiquidity p env offerToken sender lpAmount minAssets)
      (Withdrawn p env offerToken sender lpAmount) (fun e => ¬e.Underflow) := by
  unfold executeWithdrawLiquidity
  refine (ensure_noUnderflow (by rintro ⟨_, _, ⟨⟩⟩)).bind fun _ htoken => ?_
  refine (ensure_noUnderflow (by rintro ⟨_, _, ⟨⟩⟩)).bind fun _ hpos => ?_
  refine (updateOracle_spec.mono (fun _ h => h) fun e he => he.1).bind ?_
  rintro _ ⟨o, ho, rfl⟩
  refine (ensure_noUnderflow (by rintro ⟨_, _, ⟨⟩⟩)).bind fun _ _ => ?_
  refine withdrawAmounts_spec.bind fun amounts hamounts => ?_
  subst hamounts
  refine (assertMinAssets_noUnderflow _ _ _).bind fun _ _ => ?_
  refine (sub_noUnderflow _ _).bind fun reserveA hA => ?_
  refine (sub_noUnderflow _ _).bind fun reserveB hB => ?_
  refine (sub_noUnderflow _ _).bind fun totalSupply hT => ?_
  obtain ⟨rfl, -⟩ := hA
  obtain ⟨rfl, -⟩ := hB
  obtain ⟨rfl, hle⟩ := hT
  exact ⟨htoken, Nat.pos_of_ne_zero hpos, hle, ho, rfl, rfl, rfl⟩

theorem Withdrawn.operation {A : AbsBook} {out : PairStorage × Response}
    (h : Withdrawn p env offerToken sender lpAmount out) (hrep : Represents p.book A) :
    Operation A p sender (incomingOf p.pairInfo offerToken lpAmount) out := by
  have hbook : out.1.book = p.book := by rw [h.stored]
  have hinfo : out.1.pairInfo = p.pairInfo := by rw [h.stored]
  have hreserves : out.1.reserves = (p.reserves.1 - lpAmount * p.reserves.1 / p.totalLpSupply,
      p.reserves.2 - lpAmount * p.reserves.2 / p.totalLpSupply) := by
    rw [h.stored]
  have hle : ∀ r, lpAmount * r / p.totalLpSupply ≤ r := fun r =>
    Nat.div_le_of_le_mul (Nat.mul_le_mul_right r h.supply)
  refine ⟨[], A, .idle hrep hbook hinfo, fun hd s => ?_⟩
  have hin : incomingOf p.pairInfo offerToken lpAmount s = 0 := by
    rw [incomingOf, h.token, if_neg (Ne.symm (hd.lp s))]
  rw [h.messages, hin]
  simp only [totalOf_cons, totalOf_nil, CosmosMsg.sent, CosmosMsg.pulled, PairStorage.owed, hbook,
    hreserves]
  have hle1 := hle p.reserves.1
  have hle2 := hle p.reserves.2
  cases s with
  | bid =>
      simp only [PairInfo.escrowToken, outputReserve, hd.assets, if_true, if_false]
      omega
  | ask =>
      simp only [PairInfo.escrowToken, outputReserve, Ne.symm hd.assets, if_true, if_false]
      omega

end Withdraw

end Cl8yDex
