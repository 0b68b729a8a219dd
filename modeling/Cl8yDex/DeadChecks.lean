import Cl8yDex.ShareChecks

/-!
# Which of the pool's own checks can fail

The exact condition under which a deposit is stopped by one of the checks, over every pool that a
run reaches; swaps and withdrawals are never stopped by them.
-/

namespace Cl8yDex

open Outcome

variable {p : PairStorage} {q : Querier} {env : Env} {sender : Addr} {a b lpAmount : ℕ}
  {assets : Asset × Asset} {tolerance : Option Decimal} {receiver : Option Addr}

section Deposits

/-- The part of a deposit after its shares, which no check of the pair stops. -/
theorem mint_sound {lp : ℕ} (hw : p.Whole) (ha : a ≤ u128Max) (hb : b ≤ u128Max)
    (hlp : isFirstDeposit p.reserves = true → lp < u128Max)
    (f : ℕ → ℕ → ℕ → Addr → PairStorage × Response) :
    Meets (do
      let reserveA ← addOrOverflow p.reserves.1 a
      let reserveB ← addOrOverflow p.reserves.2 b
      let totalSupply ← addOrOverflow p.totalLpSupply lp
      let lpReceiver ← q.addrValidateOr receiver sender
      return f reserveA reserveB totalSupply lpReceiver) (fun _ => True)
      (fun e => ¬e.Defensive (isFirstDeposit p.reserves)) := by
  have hadd : ∀ n m, (isFirstDeposit p.reserves = true → n + m ≤ u128Max) →
      Meets (addOrOverflow n m) (fun _ => True)
        (fun e => ¬e.Defensive (isFirstDeposit p.reserves)) := by
    intro n m hroom
    cases hsum : addOrOverflow n m with
    | ok _ => exact trivial
    | error e =>
        have hsound := add_sound.failure hsum
        rintro (hv | ⟨hfirst, -⟩)
        · exact hsound hv
        · rw [addOrOverflow_eq_ok.2 ⟨hroom hfirst, rfl⟩] at hsum
          cases hsum
  have hzero : isFirstDeposit p.reserves = true →
      p.reserves.1 = 0 ∧ p.reserves.2 = 0 ∧ p.totalLpSupply = 0 := by
    intro hfirst
    rcases hw.kind with ⟨-, hnone, hsupply⟩ | ⟨hlater, -⟩
    · rw [hnone]
      exact ⟨rfl, rfl, hsupply⟩
    · rw [hlater] at hfirst
      cases hfirst
  apply (hadd _ _ fun hfirst => ?_).bind
  · intro _ _
    apply (hadd _ _ fun hfirst => ?_).bind
    · intro _ _
      apply (hadd _ _ fun hfirst => ?_).bind
      · intro _ _
        apply ((addrValidateOr_sound sender).mono (fun _ h => h) ?_).bind
        · exact fun _ _ => trivial
        · exact fun e he => he.not_defensive _
      · rw [(hzero hfirst).2.2, Nat.zero_add]
        exact (hlp hfirst).le
    · rw [(hzero hfirst).2.1, Nat.zero_add]
      exact hb
  · rw [(hzero hfirst).1, Nat.zero_add]
    exact ha

theorem provide_stopped (hw : p.Whole) (ht : env.blockTime ≤ u64Max) (ha : a ≤ u128Max)
    (hb : b ≤ u128Max) (harr : Arrives p q assets a b) (hfit : ¬SharesFit p a b) :
    ∃ e, executeProvideLiquidity p q env sender assets tolerance receiver = .error e ∧
      e.Defensive (isFirstDeposit p.reserves) := by
  obtain ⟨o, ho⟩ := updateOracle_ok hw.sane ht
  have hsame : lpTokensTotal { p with oracle := o } q a b = lpTokensTotal p q a b := rfl
  unfold executeProvideLiquidity
  rw [harr.amounts, ok_bind]
  dsimp only
  rw [ensure_pos harr.positive, ok_bind, ho, ok_bind, hsame]
  cases hlp : lpTokensTotal p q a b with
  | ok lp => exact absurd ((lpTokensTotal_sound hw ha hb harr.decimals).success hlp).1 hfit
  | error e => exact ⟨e, rfl, ((lpTokensTotal_sound hw ha hb harr.decimals).failure hlp).1⟩

theorem provide_sound (hw : p.Whole) (ht : env.blockTime ≤ u64Max)
    (h0 : assets.1.amount ≤ u128Max) (h1 : assets.2.amount ≤ u128Max)
    (hfit : ∀ a b, Arrives p q assets a b → SharesFit p a b) :
    Meets (executeProvideLiquidity p q env sender assets tolerance receiver) (fun _ => True)
      (fun e => ¬e.Defensive (isFirstDeposit p.reserves)) := by
  have hplain : ∀ e : ContractError, e.Plain → ¬e.Defensive (isFirstDeposit p.reserves) :=
    fun e he => he.not_defensive _
  have hzero : ContractError.Plain .zeroAmount := ⟨by rintro ⟨_, ⟨⟩⟩, nofun⟩
  have hmismatch : ContractError.Plain .assetMismatch := ⟨by rintro ⟨_, ⟨⟩⟩, nofun⟩
  have hliquidity : ContractError.Plain .insufficientLiquidity := ⟨by rintro ⟨_, ⟨⟩⟩, nofun⟩
  obtain ⟨o, ho⟩ := updateOracle_ok hw.sane ht
  have hsame : ∀ a b, lpTokensTotal { p with oracle := o } q a b = lpTokensTotal p q a b :=
    fun _ _ => rfl
  unfold executeProvideLiquidity
  apply ((matchAssetAmounts_sound p.pairInfo).mono (fun _ h => h) fun e he => ?_).bind
  · rintro ⟨a, b⟩ hamounts
    obtain ⟨ha, hb⟩ := matchAssetAmounts_le h0 h1 hamounts
    dsimp only
    apply ((ensure_plain hzero).mono (fun _ h => h) hplain).bind
    intro _ hpos
    rw [ho, ok_bind, hsame]
    apply Meets.bind (Q := fun lp => SharesFit p a b ∧
      (isFirstDeposit p.reserves = true → lp < u128Max))
    · by_cases hdecimals : isFirstDeposit p.reserves = true →
          assertPairAssetsDecimalsAllowInitialMint q p.pairInfo = .ok ()
      · have hfits := hfit a b ⟨hamounts, hpos, hdecimals⟩
        have htotal := lpTokensTotal_sound hw ha hb hdecimals
        exact htotal.mono (fun _ h => h) fun e he => absurd hfits he.2
      · exact (lpTokensTotal_refused hdecimals).mono (fun _ h => h.elim) hplain
    · rintro lp ⟨hfits, hlp⟩
      apply ((ensure_plain hliquidity).mono (fun _ h => h) hplain).bind
      intro _ _
      apply ((splitMint_sound _ lp).mono (fun _ h => h) hplain).bind
      rintro ⟨lpToUser, lpToBurn⟩ -
      apply (checkLpSlippage_sound hw ha hb hfits).bind
      intro _ _
      exact mint_sound hw ha hb hlp _
  · rw [he]
    exact hplain _ hmismatch

/-- A deposit is stopped by the pair's own checks exactly if its shares are computed and do not
fit. -/
theorem provide_defensive_iff (hw : p.Whole) (ht : env.blockTime ≤ u64Max)
    (h0 : assets.1.amount ≤ u128Max) (h1 : assets.2.amount ≤ u128Max) :
    (∀ e, executeProvideLiquidity p q env sender assets tolerance receiver = .error e →
      ¬e.Defensive (isFirstDeposit p.reserves)) ↔
    ∀ a b, Arrives p q assets a b → SharesFit p a b := by
  constructor
  · intro h a b harr
    by_contra hfit
    obtain ⟨ha, hb⟩ := matchAssetAmounts_le h0 h1 harr.amounts
    have hstopped : ∃ e, executeProvideLiquidity p q env sender assets tolerance receiver =
        .error e ∧ e.Defensive (isFirstDeposit p.reserves) :=
      provide_stopped hw ht ha hb harr hfit
    obtain ⟨e, he, hdefensive⟩ := hstopped
    exact h e he hdefensive
  · intro hfit e he
    exact (provide_sound hw ht h0 h1 hfit).failure he

end Deposits

section Withdrawals

/-- A share of a reserve is at most the reserve. -/
theorem withdrawAmounts_sound (hs : p.Sized) (hpos : 0 < p.totalLpSupply)
    (hle : lpAmount ≤ p.totalLpSupply) :
    withdrawAmounts p lpAmount = .ok (lpAmount * p.reserves.1 / p.totalLpSupply,
      lpAmount * p.reserves.2 / p.totalLpSupply) := by
  have hlp : lpAmount ≤ u128Max := hle.trans hs.supply
  have hshare : ∀ r, r ≤ u128Max → lpAmount * r / p.totalLpSupply ≤ u128Max ∧
      lpAmount * r ≤ u256Max := by
    intro r hr
    have hproduct : lpAmount * r ≤ p.totalLpSupply * r := Nat.mul_le_mul_right r hle
    have hquotient : lpAmount * r / p.totalLpSupply ≤ r := Nat.div_le_of_le_mul hproduct
    exact ⟨hquotient.trans hr, (Nat.mul_le_mul hlp hr).trans (by decide)⟩
  obtain ⟨hfitA, hnumA⟩ := hshare _ hs.reserveA
  obtain ⟨hfitB, hnumB⟩ := hshare _ hs.reserveB
  unfold withdrawAmounts
  rw [floorShare_eq hlp hs.reserveA hpos, if_pos hfitA, ok_bind]
  dsimp only
  rw [floorShare_eq hlp hs.reserveB hpos, if_pos hfitB, ok_bind]
  dsimp only
  rw [checkFloor_eq hnumA hpos, ok_bind, checkFloor_eq hnumB hpos, ok_bind]
  rfl

theorem assertMinAssets_sound (info : PairInfo) (amounts : ℕ × ℕ) (mins : Option (ℕ × ℕ)) :
    Meets (assertMinAssets info amounts mins) (fun _ => True) (fun e => ¬e.Violation) := by
  unfold assertMinAssets
  cases mins with
  | none => exact trivial
  | some m =>
      dsimp only
      apply (ensure_sound (by rintro ⟨_, ⟨⟩⟩)).bind
      intro _ _
      exact (ensure_sound (by rintro ⟨_, ⟨⟩⟩)).weaken fun _ _ => trivial

theorem withdraw_sound {offerToken : Addr} {mins : Option (ℕ × ℕ)} (hw : p.Whole)
    (ht : env.blockTime ≤ u64Max) (hle : lpAmount ≤ p.totalLpSupply) :
    Meets (executeWithdrawLiquidity p env offerToken sender lpAmount mins) (fun _ => True)
      (fun e => ¬e.Violation) := by
  obtain ⟨o, ho⟩ := updateOracle_ok hw.sane ht
  have hsame : withdrawAmounts { p with oracle := o } lpAmount = withdrawAmounts p lpAmount := rfl
  unfold executeWithdrawLiquidity
  apply (ensure_sound (by rintro ⟨_, ⟨⟩⟩)).bind
  intro _ _
  apply (ensure_sound (by rintro ⟨_, ⟨⟩⟩)).bind
  intro _ _
  rw [ho, ok_bind]
  apply (ensure_sound (by rintro ⟨_, ⟨⟩⟩)).bind
  intro _ hne
  rw [hsame, withdrawAmounts_sound hw.sized (Nat.pos_of_ne_zero hne) hle, ok_bind]
  apply (assertMinAssets_sound _ _ _).bind
  intro _ _
  apply sub_sound.bind
  intro _ _
  apply sub_sound.bind
  intro _ _
  exact sub_sound.bind fun _ _ => trivial

end Withdrawals

/-- Over every run, swaps and withdrawals are never stopped by the pool's own checks, and a deposit
exactly if its shares do not fit. -/
theorem Pool.Reach.stopped_iff {s : Pool} (hr : s.Reach) (ht : env.blockTime ≤ u64Max)
    (h0 : assets.1.amount ≤ u128Max) (h1 : assets.2.amount ≤ u128Max) :
    ((∀ e, executeProvideLiquidity s.storage q env sender assets tolerance receiver = .error e →
      ¬e.Defensive (isFirstDeposit s.storage.reserves)) ↔
      ∀ a b, Arrives s.storage q assets a b → SharesFit s.storage a b) ∧
    (∀ side input feeBps e, executePoolLeg (inputReserve s.storage.reserves side)
      (outputReserve s.storage.reserves side) input feeBps = .error e → ¬e.Violation) ∧
    (∀ token lpAmount minAssets e, lpAmount ≤ s.lpSupply →
      executeWithdrawLiquidity s.storage env token sender lpAmount minAssets = .error e →
      ¬e.Violation) := by
  have hw := hr.whole
  refine ⟨provide_defensive_iff hw ht h0 h1, ?_, ?_⟩
  · intro side input feeBps e he
    have ho : outputReserve s.storage.reserves side ≤ u128Max := by
      cases side with
      | bid => exact hw.sized.reserveB
      | ask => exact hw.sized.reserveA
    exact (executePoolLeg_sound ho).failure he
  · intro token lpAmount minAssets e hle he
    have hheld : lpAmount ≤ s.storage.totalLpSupply := by
      rcases hr.empty_or_funded with hempty | hfunded
      · have hnone := hempty.lpSupply
        omega
      · have hall : s.lpSupply + minimumLiquidity ≤ s.storage.totalLpSupply := hfunded.lpSupply
        omega
    exact (withdraw_sound hw ht hheld).failure he

/-- The next deposit of a new pair, whose first asset is worth more shares than a field holds. -/
def lopsidedDeposit (p : PairStorage) : Except ContractError (PairStorage × Response) :=
  executeProvideLiquidity p .permissive (sampleEnv 2000) 7
    (⟨.token 1, 3 * 10 ^ 38⟩, ⟨.token 2, 1000000⟩) none none

theorem lopsided_deposit_trips : ∃ s : Pool, s.Reach ∧
    lopsidedDeposit s.storage =
      .error (.invariantViolation (.exceedsU128 "lp_a" (3 * 10 ^ 32 * 1732050))) ∧
    s.storage.reserves.1 + 3 * 10 ^ 38 ≤ u128Max := by
  have hok : Meets sampleDeposit (fun out => (⟨samplePair, 0⟩ : Pool).Covered out ∧
      Meets (lopsidedDeposit out.1) (fun _ => False) (fun e => e =
        .invariantViolation (.exceedsU128 "lp_a" (3 * 10 ^ 32 * 1732050))) ∧
      out.1.reserves.1 + 3 * 10 ^ 38 ≤ u128Max) (fun _ => False) := by
    decide +kernel
  obtain ⟨out, h, hburn, hdeposit, hroom⟩ := hok.accepted
  have hreach : ((⟨samplePair, 0⟩ : Pool).after out).Reach :=
    .step (.start samplePair_starts) (.call h hburn)
  refine ⟨(⟨samplePair, 0⟩ : Pool).after out, hreach, ?_, hroom⟩
  change lopsidedDeposit out.1 = _
  cases hresult : lopsidedDeposit out.1 with
  | ok _ => exact (hdeposit.success hresult).elim
  | error e => rw [hdeposit.failure hresult]

/-- The deposit of the sample that fits is not stopped either. -/
theorem stopped_iff_sample : ∃ s : Pool, s.Reach ∧ s.storage.totalLpSupply = 1732050 ∧
    ∀ e, executeProvideLiquidity s.storage .permissive (sampleEnv 2000) 7
      (⟨.token 1, 1000⟩, ⟨.token 2, 3000⟩) none none = .error e →
      ¬e.Defensive (isFirstDeposit s.storage.reserves) := by
  have hok : Meets sampleDeposit (fun out => (⟨samplePair, 0⟩ : Pool).Covered out ∧
      out.1.reserves = (1000000, 3000000) ∧ out.1.totalLpSupply = 1732050 ∧
      out.1.pairInfo = samplePair.pairInfo) (fun _ => False) := by
    decide +kernel
  obtain ⟨out, h, hburn, hreserves, htotal, hinfo⟩ := hok.accepted
  have hreach : ((⟨samplePair, 0⟩ : Pool).after out).Reach :=
    .step (.start samplePair_starts) (.call h hburn)
  refine ⟨(⟨samplePair, 0⟩ : Pool).after out, hreach, htotal, ?_⟩
  apply (Pool.Reach.stopped_iff hreach (by decide) (by decide) (by decide)).1.2
  intro a b harr
  have hamounts : matchAssetAmounts out.1.pairInfo (⟨.token 1, 1000⟩, ⟨.token 2, 3000⟩) =
      .ok (a, b) := harr.amounts
  rw [hinfo] at hamounts
  cases hamounts
  change SharesFit out.1 1000 3000
  unfold SharesFit
  rw [hreserves, htotal]
  decide

end Cl8yDex
