import Cl8yDex.PoolDefences

/-!
# The checks on the shares of a deposit

The condition under which the shares of a deposit pass the pair's checks, and the kinds of error
that are no check's.
-/

namespace Cl8yDex

open Outcome

variable {p : PairStorage} {q : Querier} {env : Env} {sender : Addr} {a b lpAmount : ℕ}
  {assets : Asset × Asset} {tolerance : Option Decimal} {receiver : Option Addr}

/-- A violation, or the overflow of the check of a root. On a first deposit nothing else overflows:
the reserves and the supply are zero. -/
def ContractError.Defensive (e : ContractError) (first : Bool) : Prop :=
  e.Violation ∨ first = true ∧ e = .overflow

/-- An error that is no check's on any deposit. -/
def ContractError.Plain (e : ContractError) : Prop := ¬e.Violation ∧ e ≠ .overflow

theorem ContractError.Plain.not_defensive {e : ContractError} (h : e.Plain) (first : Bool) :
    ¬e.Defensive first := by
  rintro (hv | ⟨-, hover⟩)
  · exact h.1 hv
  · exact h.2 hover

/-- Every mint is a machine integer, and the root of a first deposit is not the largest one. -/
def SharesFit (p : PairStorage) (a b : ℕ) : Prop :=
  if isFirstDeposit p.reserves then ¬(a = u128Max ∧ b = u128Max)
  else a * p.totalLpSupply / p.reserves.1 ≤ u128Max ∧ b * p.totalLpSupply / p.reserves.2 ≤ u128Max

/-- A deposit that no earlier check stops before its shares are computed. -/
structure Arrives (p : PairStorage) (q : Querier) (assets : Asset × Asset) (a b : ℕ) : Prop where
  amounts : matchAssetAmounts p.pairInfo assets = .ok (a, b)
  positive : ¬(a = 0 ∨ b = 0)
  decimals : isFirstDeposit p.reserves = true →
    assertPairAssetsDecimalsAllowInitialMint q p.pairInfo = .ok ()

/-- A pool that holds nothing, or something of both assets. -/
structure PairStorage.Whole (p : PairStorage) : Prop where
  sized : p.Sized
  sane : p.oracle.Sane
  kind : isFirstDeposit p.reserves = true ∧ p.reserves = (0, 0) ∧ p.totalLpSupply = 0 ∨
    isFirstDeposit p.reserves = false ∧ 0 < p.reserves.1 ∧ 0 < p.reserves.2

theorem Pool.Reach.whole {s : Pool} (h : s.Reach) : s.storage.Whole where
  sized := h.sized
  sane := by
    obtain ⟨A, hA⟩ := h.healthy
    exact hA.oracle
  kind := by
    rcases h.empty_or_funded with he | hf
    · have hA : s.storage.reserves.1 = 0 := he.reserveA
      have hB : s.storage.reserves.2 = 0 := he.reserveB
      left
      refine ⟨?_, Prod.ext hA hB, he.totalSupply⟩
      simp [isFirstDeposit, hA, hB]
    · have hA : 0 < s.storage.reserves.1 := hf.reserveA
      right
      refine ⟨?_, hA, hf.reserveB⟩
      simp [isFirstDeposit, hA.ne']

theorem updateOracle_ok (h : p.oracle.Sane) (ht : env.blockTime ≤ u64Max) :
    ∃ o, p.updateOracle env = .ok { p with oracle := o } := by
  have hspec := @updateOracle_spec p env
  cases ho : p.updateOracle env with
  | ok p' =>
      obtain ⟨o, -, rfl⟩ := hspec.success ho
      exact ⟨o, rfl⟩
  | error e => exact absurd ((hspec.failure ho).2 h) (not_lt.2 ht)

section Later

theorem proportionalLp_eq (hs : p.Sized) (hA : 0 < p.reserves.1) (hB : 0 < p.reserves.2)
    (ha : a ≤ u128Max) (hb : b ≤ u128Max) :
    Meets (proportionalLp a b p.reserves.1 p.reserves.2 p.totalLpSupply)
      (fun _ => a * p.totalLpSupply / p.reserves.1 ≤ u128Max ∧
        b * p.totalLpSupply / p.reserves.2 ≤ u128Max)
      (fun e => e.Violation ∧ ¬(a * p.totalLpSupply / p.reserves.1 ≤ u128Max ∧
        b * p.totalLpSupply / p.reserves.2 ≤ u128Max)) := by
  have hnumA : a * p.totalLpSupply ≤ u256Max := (Nat.mul_le_mul ha hs.supply).trans (by decide)
  have hnumB : b * p.totalLpSupply ≤ u256Max := (Nat.mul_le_mul hb hs.supply).trans (by decide)
  unfold proportionalLp
  rw [floorShare_eq ha hs.supply hA, floorShare_eq hb hs.supply hB]
  by_cases hfitA : a * p.totalLpSupply / p.reserves.1 ≤ u128Max
  · rw [if_pos hfitA, ok_bind]
    dsimp only
    by_cases hfitB : b * p.totalLpSupply / p.reserves.2 ≤ u128Max
    · rw [if_pos hfitB, ok_bind]
      dsimp only
      rw [checkFloor_eq hnumA hA, ok_bind, checkFloor_eq hnumB hB, ok_bind]
      exact ⟨hfitA, hfitB⟩
    · rw [if_neg hfitB]
      exact ⟨⟨_, rfl⟩, fun h => hfitB h.2⟩
  · rw [if_neg hfitA]
    exact ⟨⟨_, rfl⟩, fun h => hfitA h.1⟩

theorem assertLpSlippage_sound {lpToUser : ℕ} {tolerance : Decimal} (hs : p.Sized)
    (hA : 0 < p.reserves.1) (hB : 0 < p.reserves.2) (ha : a ≤ u128Max) (hb : b ≤ u128Max)
    (hfit : a * p.totalLpSupply / p.reserves.1 ≤ u128Max ∧
      b * p.totalLpSupply / p.reserves.2 ≤ u128Max) :
    Meets (assertLpSlippage p a b lpToUser tolerance) (fun _ => True)
      (fun e => ¬e.Violation) := by
  unfold assertLpSlippage
  rw [floorShare_eq ha hs.supply hA, if_pos hfit.1, ok_bind]
  dsimp only
  rw [floorShare_eq hb hs.supply hB, if_pos hfit.2, ok_bind]
  dsimp only
  split_ifs with hzero
  · exact trivial
  · have hmin : Meets (minLpFor (max (a * p.totalLpSupply / p.reserves.1)
        (b * p.totalLpSupply / p.reserves.2)) tolerance) (fun _ => True)
        (fun e => ¬e.Violation) := by
      unfold minLpFor
      apply (orThrow_sound (by rintro ⟨_, ⟨⟩⟩)).bind
      intro keep _
      exact (orThrow_sound (by rintro ⟨_, ⟨⟩⟩)).weaken fun _ _ => trivial
    apply hmin.bind
    intro minLp _
    exact (ensure_sound (by rintro ⟨_, ⟨⟩⟩)).weaken fun _ _ => trivial

end Later

section Receiver

theorem ensure_plain {P : Prop} [Decidable P] {e : ContractError} (he : e.Plain) :
    Meets (ensure P e) (fun _ => P) ContractError.Plain :=
  meets_ensure fun _ => he

theorem addrValidateOr_sound (default : Addr) : Meets (q.addrValidateOr receiver default)
    (fun _ => True) ContractError.Plain := by
  unfold Querier.addrValidateOr Querier.addrValidate
  cases receiver with
  | none => exact trivial
  | some r =>
      dsimp only
      split_ifs
      · exact trivial
      · constructor
        · rintro ⟨_, ⟨⟩⟩
        · exact nofun

theorem matchAssetAmounts_sound (info : PairInfo) : Meets (matchAssetAmounts info assets)
    (fun out => matchAssetAmounts info assets = .ok out) (fun e => e = .assetMismatch) := by
  unfold matchAssetAmounts
  split_ifs
  · exact rfl
  · exact rfl
  · exact rfl

theorem matchAssetAmounts_le {info : PairInfo} (h0 : assets.1.amount ≤ u128Max)
    (h1 : assets.2.amount ≤ u128Max) (h : matchAssetAmounts info assets = .ok (a, b)) :
    a ≤ u128Max ∧ b ≤ u128Max := by
  unfold matchAssetAmounts at h
  split_ifs at h
  · cases h
    exact ⟨h0, h1⟩
  · cases h
    exact ⟨h1, h0⟩

theorem decimals_sound (info : PairInfo) :
    Meets (assertPairAssetsDecimalsAllowInitialMint q info) (fun _ => True)
      ContractError.Plain := by
  have hquery : queryErr.Plain := by
    constructor
    · rintro ⟨_, ⟨⟩⟩
    · exact nofun
  unfold assertPairAssetsDecimalsAllowInitialMint queryPairAssetDecimals
  have hasked : ∀ token, Meets (orThrow (q.decimals token) queryErr) (fun _ => True)
      ContractError.Plain := by
    intro token
    have hanswer : Meets (orThrow (q.decimals token) queryErr)
        (fun d => q.decimals token = some d) ContractError.Plain :=
      meets_orThrow fun _ => hquery
    exact hanswer.weaken fun _ _ => trivial
  have hdecimals : Meets (do
      let decimals0 ← orThrow (q.decimals info.token0) queryErr
      let decimals1 ← orThrow (q.decimals info.token1) queryErr
      return (decimals0, decimals1)) (fun _ => True)
      ContractError.Plain := by
    apply (hasked _).bind
    intro _ _
    apply (hasked _).bind
    exact fun _ _ => trivial
  apply hdecimals.bind
  intro d _
  apply (meets_ensure ?_).weaken fun _ _ => trivial
  intro _
  constructor
  · rintro ⟨_, ⟨⟩⟩
  · exact nofun

end Receiver

section Shares

/-- Once the decimals allow the deposit, its shares are computed exactly if they fit. -/
theorem lpTokensTotal_sound (hw : p.Whole) (ha : a ≤ u128Max) (hb : b ≤ u128Max)
    (hdecimals : isFirstDeposit p.reserves = true →
      assertPairAssetsDecimalsAllowInitialMint q p.pairInfo = .ok ()) :
    Meets (lpTokensTotal p q a b)
      (fun lp => SharesFit p a b ∧ (isFirstDeposit p.reserves = true → lp < u128Max))
      (fun e => e.Defensive (isFirstDeposit p.reserves) ∧ ¬SharesFit p a b) := by
  unfold lpTokensTotal SharesFit
  rcases hw.kind with ⟨hfirst, -, -⟩ | ⟨hlater, hA, hB⟩
  · rw [if_pos hfirst, if_pos hfirst, hdecimals hfirst, ok_bind]
    by_cases htop : a = u128Max ∧ b = u128Max
    · obtain ⟨rfl, rfl⟩ := htop
      rw [firstDepositLp_largest]
      exact ⟨.inr ⟨hfirst, rfl⟩, fun h => h ⟨rfl, rfl⟩⟩
    · obtain ⟨hroot, hsmall⟩ := firstDepositLp_fits ha hb htop
      rw [hroot]
      exact ⟨htop, fun _ => hsmall⟩
  · have hno : ¬isFirstDeposit p.reserves = true := by
      rw [hlater]
      decide
    rw [if_neg hno, if_neg hno]
    apply (proportionalLp_eq hw.sized hA hB ha hb).mono
    · exact fun _ hfit => ⟨hfit, fun h => absurd h hno⟩
    · exact fun e he => ⟨.inl he.1, he.2⟩

/-- Decimals that do not allow a first deposit end it before its shares are computed. -/
theorem lpTokensTotal_refused (h : ¬(isFirstDeposit p.reserves = true →
    assertPairAssetsDecimalsAllowInitialMint q p.pairInfo = .ok ())) :
    Meets (lpTokensTotal p q a b) (fun _ => False) ContractError.Plain := by
  obtain ⟨hfirst, hno⟩ := not_forall.1 h
  unfold lpTokensTotal
  rw [if_pos hfirst]
  cases hd : assertPairAssetsDecimalsAllowInitialMint q p.pairInfo with
  | ok _ => exact absurd hd hno
  | error e => exact (decimals_sound p.pairInfo).failure hd

/-- A first deposit overflows nothing after its shares are known. -/
theorem splitMint_sound (first : Bool) (lp : ℕ) :
    Meets (splitMint first lp) (fun _ => True) ContractError.Plain := by
  unfold splitMint
  split_ifs
  · have hliquidity : Meets (ensure (minimumLiquidity < lp) ContractError.insufficientLiquidity)
        (fun _ => minimumLiquidity < lp) ContractError.Plain := by
      apply meets_ensure
      intro _
      constructor
      · rintro ⟨_, ⟨⟩⟩
      · intro hover
        cases hover
    apply hliquidity.bind
    intro _ hlt
    rw [subOrOverflow_eq_ok.2 ⟨hlt.le, rfl⟩, ok_bind]
    exact trivial
  · exact trivial

theorem checkLpSlippage_sound {lpToUser : ℕ} (hw : p.Whole) (ha : a ≤ u128Max) (hb : b ≤ u128Max)
    (hfit : SharesFit p a b) : Meets (checkLpSlippage p a b lpToUser tolerance) (fun _ => True)
      (fun e => ¬e.Defensive (isFirstDeposit p.reserves)) := by
  unfold checkLpSlippage
  cases tolerance with
  | none => exact trivial
  | some t =>
      dsimp only
      split_ifs with hfirst
      · exact trivial
      · obtain ⟨hlater, hA, hB⟩ := hw.kind.resolve_left fun h => hfirst h.1
        unfold SharesFit at hfit
        rw [if_neg hfirst] at hfit
        apply (assertLpSlippage_sound hw.sized hA hB ha hb hfit).mono
        · exact fun _ h => h
        · rintro e he (hv | ⟨hf, -⟩)
          · exact he hv
          · exact hfirst hf

end Shares

end Cl8yDex
