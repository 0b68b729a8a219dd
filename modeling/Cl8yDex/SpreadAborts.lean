import Cl8yDex.MaxSpread

/-!
# When the slippage check aborts

Three panicking operators stand in the check. The reciprocal of a belief price always fits; its
product with the offer and the ratio of a book shortfall need not.
-/

namespace Cl8yDex

open Outcome

variable {bp maxAllowed : Decimal} {inputs : MaxSpreadInputs} {site : AbortSite}

/-- The return that a belief price promises, rounded down twice, is representable. -/
def BeliefFits (bp : Decimal) (offerAmount : ℕ) : Prop :=
  offerAmount * (Decimal.fractional * Decimal.fractional / bp.atomics) / Decimal.fractional ≤
    u128Max

namespace MaxSpreadInputs

variable (inputs : MaxSpreadInputs)

def grossOut (inputs : MaxSpreadInputs) : ℕ :=
  inputs.poolNetReturn + inputs.poolCommission + inputs.bookNetReturn

/-- What the book leg would return at the pool's net rate. -/
def fairNetBook (inputs : MaxSpreadInputs) : ℕ :=
  inputs.poolNetReturn * inputs.bookInput / inputs.poolInput

def spreadTotal (inputs : MaxSpreadInputs) : ℕ :=
  min inputs.poolSpread (inputs.poolNetReturn + inputs.poolCommission) +
    (inputs.fairNetBook - inputs.bookNetReturn)

/-- A book leg that falls so far short of the pool's rate that the ratio does not fit. -/
structure Overruns (inputs : MaxSpreadInputs) : Prop where
  legs : inputs.poolInput ≠ 0 ∧ inputs.bookInput ≠ 0
  material : inputs.declaredPoolInput = 0 ∨
    minPoolInputForBookHybrid inputs.offerAmount ≤ inputs.declaredPoolInput ∧
      inputs.poolNetReturn ≠ 0
  grossOut : 0 < inputs.grossOut ∧ inputs.grossOut ≤ u128Max
  fair : inputs.fairNetBook ≤ u128Max
  spread : inputs.spreadTotal ≤ u128Max
  ratio : u128Max < inputs.spreadTotal * Decimal.fractional / inputs.grossOut

end MaxSpreadInputs

/-- The inputs for which no operator of the check overflows. -/
def SpreadFits : Option Decimal → MaxSpreadInputs → Prop
  | some bp, inputs => BeliefFits bp inputs.offerAmount
  | none, inputs => ¬ inputs.Overruns

theorem ratio_fits {spread total : ℕ} (h : spread ≤ total) :
    spread * Decimal.fractional / total ≤ u128Max := by
  have hone : spread * Decimal.fractional / total ≤ Decimal.fractional := by
    apply Nat.div_le_of_le_mul
    exact Nat.mul_le_mul_right _ h
  exact hone.trans (by decide)

theorem checkRatio_abort_iff {spread total : ℕ} (htotal : total ≠ 0) :
    checkRatio spread total maxAllowed = .error (.abort site) ↔
      site = .spreadRatio ∧ u128Max < spread * Decimal.fractional / total := by
  unfold checkRatio
  rw [bind_eq_error, orThrow_eq_error]
  constructor
  · rintro (⟨hratio, hsite⟩ | ⟨ratio, -, h⟩)
    · cases hsite
      refine ⟨rfl, not_le.1 fun hle => ?_⟩
      have hsome : Decimal.checkedFromRatio spread total =
          some ⟨spread * Decimal.fractional / total⟩ :=
        Decimal.checkedFromRatio_eq_some.2 ⟨htotal, hle, rfl⟩
      rw [hsome] at hratio
      cases hratio
    · cases (ensure_eq_error.1 h).2
  · rintro ⟨rfl, hover⟩
    refine .inl ⟨?_, rfl⟩
    rw [Option.eq_none_iff_forall_not_mem]
    intro ratio hratio
    exact absurd (Decimal.checkedFromRatio_eq_some.1 hratio).2.1 (not_le.2 hover)

/-- The reciprocal itself always fits. -/
theorem beliefPriceReciprocal_eq :
    beliefPriceReciprocal bp =
      if Decimal.fractional * Decimal.fractional / bp.atomics = 0 then
        .error (.invalidBeliefPrice bp)
      else .ok ⟨Decimal.fractional * Decimal.fractional / bp.atomics⟩ := by
  unfold beliefPriceReciprocal
  by_cases hzero : bp.atomics = 0
  · have hnot : ¬ ¬ bp.isZero := not_not.2 (decide_eq_true hzero)
    unfold ensure
    rw [hzero, Nat.div_zero, if_pos rfl, if_neg hnot]
    rfl
  have hpos : ¬ bp.isZero := fun h => hzero (of_decide_eq_true h)
  have hle : Decimal.fractional * Decimal.fractional / bp.atomics ≤ u128Max :=
    (Nat.div_le_self _ _).trans (by decide)
  have hdiv : Decimal.one.checkedDiv bp =
      some ⟨Decimal.fractional * Decimal.fractional / bp.atomics⟩ :=
    Decimal.checkedFromRatio_eq_some.2 ⟨hzero, hle, rfl⟩
  rw [ensure_pos hpos, ok_bind, hdiv]
  change (ensure (¬ Decimal.isZero ⟨Decimal.fractional * Decimal.fractional / bp.atomics⟩) _ >>=
    fun _ => (pure _ : Except CheckMaxSpreadError Decimal)) = _
  by_cases hinv : Decimal.fractional * Decimal.fractional / bp.atomics = 0
  · have hunusable : ¬ ¬ Decimal.isZero
        ⟨Decimal.fractional * Decimal.fractional / bp.atomics⟩ := not_not.2 (decide_eq_true hinv)
    unfold ensure
    rw [if_pos hinv, if_neg hunusable]
    rfl
  · have husable : ¬ Decimal.isZero ⟨Decimal.fractional * Decimal.fractional / bp.atomics⟩ :=
      fun h => hinv (of_decide_eq_true h)
    rw [if_neg hinv, ensure_pos husable]
    rfl

theorem expectedReturn_abort_iff {offer : ℕ} :
    expectedReturnFromBelief bp offer = .error (.abort site) ↔
      site = .beliefReturn ∧ ¬ BeliefFits bp offer := by
  unfold expectedReturnFromBelief
  rw [beliefPriceReciprocal_eq]
  by_cases hinv : Decimal.fractional * Decimal.fractional / bp.atomics = 0
  · have hfits : BeliefFits bp offer := by
      unfold BeliefFits
      rw [hinv, Nat.mul_zero, Nat.zero_div]
      exact Nat.zero_le _
    rw [if_pos hinv]
    constructor
    · intro h
      cases h
    · exact fun h => absurd hfits h.2
  rw [if_neg hinv, ok_bind, bind_eq_error, orThrow_eq_error]
  constructor
  · rintro (⟨hmul, hsite⟩ | ⟨expected, -, h⟩)
    · cases hsite
      refine ⟨rfl, fun hfits => ?_⟩
      rw [Decimal.checkedMulFloor_eq_some.2 ⟨hfits, rfl⟩] at hmul
      cases hmul
    · rcases bind_eq_error.1 h with h | ⟨_, -, h⟩
      · cases (ensure_eq_error.1 h).2
      · cases h
  · rintro ⟨rfl, hover⟩
    refine .inl ⟨?_, rfl⟩
    rw [Option.eq_none_iff_forall_not_mem]
    intro expected hexpected
    exact hover (Decimal.checkedMulFloor_eq_some.1 hexpected).1

theorem checkBelief_abort_iff :
    checkBelief bp maxAllowed inputs = .error (.abort site) ↔
      site = .beliefReturn ∧ ¬ BeliefFits bp inputs.offerAmount := by
  rw [← expectedReturn_abort_iff]
  unfold checkBelief
  rw [bind_eq_error]
  constructor
  · rintro (h | ⟨expected, hexpected, h⟩)
    · exact h
    rcases bind_eq_error.1 h with h | ⟨net, -, h⟩
    · cases (orThrow_eq_error.1 h).2
    rcases bind_eq_error.1 h with h | ⟨actual, -, h⟩
    · cases (orThrow_eq_error.1 h).2
    -- the shortfall is measured against an expected return that is not zero
    have hne : expected ≠ 0 := by
      unfold expectedReturnFromBelief at hexpected
      obtain ⟨_, -, hexpected⟩ := bind_eq_ok.1 hexpected
      obtain ⟨e, -, hexpected⟩ := bind_eq_ok.1 hexpected
      obtain ⟨_, hne, hexpected⟩ := bind_eq_ok.1 hexpected
      cases hexpected
      exact ensure_eq_ok.1 hne
    have hover := ((checkRatio_abort_iff hne).1 h).2
    exact absurd (ratio_fits (Nat.sub_le expected actual)) (not_le.2 hover)
  · exact .inl

theorem checkMaterialPool_eq_ok : checkMaterialPool inputs = .ok () ↔
    inputs.bookInput = 0 ∨ inputs.declaredPoolInput = 0 ∨
      minPoolInputForBookHybrid inputs.offerAmount ≤ inputs.declaredPoolInput ∧
        inputs.poolNetReturn ≠ 0 := by
  unfold checkMaterialPool
  split_ifs with hlegs
  · exact iff_of_true rfl (hlegs.imp_right .inl)
  obtain ⟨hbook, hdeclared⟩ := not_or.1 hlegs
  rw [bind_eq_ok]
  constructor
  · rintro ⟨_, hmin, hnet⟩
    exact .inr (.inr ⟨ensure_eq_ok.1 hmin, ensure_eq_ok.1 hnet⟩)
  · rintro (h | h | ⟨hmin, hnet⟩)
    · exact absurd h hbook
    · exact absurd h hdeclared
    · exact ⟨(), ensure_pos hmin, ensure_pos hnet⟩

theorem checkMaterialPool_no_abort : checkMaterialPool inputs ≠ .error (.abort site) := by
  unfold checkMaterialPool
  split_ifs
  · exact nofun
  · intro h
    rcases bind_eq_error.1 h with h | ⟨_, -, h⟩
    · cases (ensure_eq_error.1 h).2
    · cases (ensure_eq_error.1 h).2

theorem bookShortfall_eq_ok {shortfall : ℕ} : bookShortfall maxAllowed inputs = .ok shortfall ↔
    (inputs.poolInput = 0 ∨ inputs.bookInput = 0) ∧ shortfall = 0 ∨
      (inputs.poolInput ≠ 0 ∧ inputs.bookInput ≠ 0) ∧ inputs.fairNetBook ≤ u128Max ∧
        shortfall = inputs.fairNetBook - inputs.bookNetReturn := by
  unfold bookShortfall
  split_ifs with hlegs
  · constructor
    · intro h
      cases h
      exact .inl ⟨hlegs, rfl⟩
    · rintro (⟨-, rfl⟩ | ⟨⟨hp, hb⟩, -⟩)
      · rfl
      · exact absurd hlegs (not_or.2 ⟨hp, hb⟩)
  obtain ⟨hpool, hbook⟩ := not_or.1 hlegs
  rw [bind_eq_ok]
  constructor
  · rintro ⟨fair, hfair, h⟩
    obtain ⟨-, hle, rfl⟩ := checkedMultiplyRatio_eq_some.1 (orThrow_eq_ok.1 hfair)
    cases h
    exact .inr ⟨⟨hpool, hbook⟩, hle, rfl⟩
  · rintro (⟨hlegs', -⟩ | ⟨-, hle, rfl⟩)
    · exact absurd hlegs' hlegs
    · exact ⟨inputs.fairNetBook,
        orThrow_eq_ok.2 (checkedMultiplyRatio_eq_some.2 ⟨hpool, hle, rfl⟩), rfl⟩

theorem bookShortfall_no_abort : bookShortfall maxAllowed inputs ≠ .error (.abort site) := by
  unfold bookShortfall
  split_ifs
  · exact nofun
  · intro h
    rcases bind_eq_error.1 h with h | ⟨_, -, h⟩
    · cases (orThrow_eq_error.1 h).2
    · cases h

/-- The check without a belief price once its sums are known. -/
theorem checkNoBelief_abort_iff :
    checkNoBelief maxAllowed inputs = .error (.abort site) ↔
      site = .spreadRatio ∧ inputs.Overruns := by
  unfold checkNoBelief
  constructor
  · intro h
    rcases bind_eq_error.1 h with h | ⟨_, hmaterial, h⟩
    · exact absurd h checkMaterialPool_no_abort
    rcases bind_eq_error.1 h with h | ⟨gross, hgross, h⟩
    · cases (orThrow_eq_error.1 h).2
    rcases bind_eq_error.1 h with h | ⟨out, hout, h⟩
    · cases (orThrow_eq_error.1 h).2
    rcases bind_eq_error.1 h with h | ⟨shortfall, hshortfall, h⟩
    · exact absurd h bookShortfall_no_abort
    rcases bind_eq_error.1 h with h | ⟨spread, hspread, h⟩
    · cases (orThrow_eq_error.1 h).2
    obtain ⟨-, rfl⟩ := checkedAdd_eq_some.1 (orThrow_eq_ok.1 hgross)
    obtain ⟨hout', rfl⟩ := checkedAdd_eq_some.1 (orThrow_eq_ok.1 hout)
    obtain ⟨hspread', rfl⟩ := checkedAdd_eq_some.1 (orThrow_eq_ok.1 hspread)
    split_ifs at h with hzero
    obtain ⟨hsite, hover⟩ := (checkRatio_abort_iff hzero).1 h
    rcases bookShortfall_eq_ok.1 hshortfall with ⟨-, rfl⟩ | ⟨hlegs, hfair, rfl⟩
    · -- without a shortfall the spread is part of the total
      have hle : min inputs.poolSpread (inputs.poolNetReturn + inputs.poolCommission) + 0 ≤
          inputs.poolNetReturn + inputs.poolCommission + inputs.bookNetReturn := by omega
      exact absurd (ratio_fits hle) (not_le.2 hover)
    · refine ⟨hsite, hlegs, ?_, ⟨Nat.pos_of_ne_zero hzero, hout'⟩, hfair, hspread', hover⟩
      exact (checkMaterialPool_eq_ok.1 hmaterial).resolve_left hlegs.2
  · rintro ⟨rfl, hover⟩
    have hout := hover.grossOut.2
    have hgross : inputs.poolNetReturn + inputs.poolCommission ≤ u128Max :=
      (Nat.le_add_right _ _).trans hout
    have hmaterial := checkMaterialPool_eq_ok.2 (.inr hover.material)
    have hshortfall : bookShortfall maxAllowed inputs =
        .ok (inputs.fairNetBook - inputs.bookNetReturn) :=
      bookShortfall_eq_ok.2 (.inr ⟨hover.legs, hover.fair, rfl⟩)
    have hsum := orThrow_eq_ok (e := CheckMaxSpreadError.spreadExceeded maxAllowed .zero).2
      (checkedAdd_eq_some.2 ⟨hgross, rfl⟩)
    have htotal := orThrow_eq_ok (e := CheckMaxSpreadError.spreadExceeded maxAllowed .zero).2
      (checkedAdd_eq_some.2 ⟨hout, rfl⟩)
    have hspread := orThrow_eq_ok (e := CheckMaxSpreadError.spreadExceeded maxAllowed .zero).2
      (checkedAdd_eq_some.2 ⟨hover.spread, rfl⟩)
    have hne : inputs.grossOut ≠ 0 := hover.grossOut.1.ne'
    rw [hmaterial, ok_bind, hsum, ok_bind, htotal, ok_bind, hshortfall, ok_bind, hspread, ok_bind]
    exact (if_neg hne).trans ((checkRatio_abort_iff hne).2 ⟨rfl, hover.ratio⟩)

/-- The check answers without aborting exactly when its products and ratios are representable. -/
theorem check_max_spread_returns_iff (beliefPrice maxSpread : Option Decimal)
    (inputs : MaxSpreadInputs) :
    (∀ site, checkMaxSpread beliefPrice maxSpread inputs ≠ .error (.abort site)) ↔
      SpreadFits beliefPrice inputs := by
  cases beliefPrice with
  | some bp =>
      constructor
      · intro h
        by_contra hfits
        exact h .beliefReturn (checkBelief_abort_iff.2 ⟨rfl, hfits⟩)
      · intro hfits site h
        exact (checkBelief_abort_iff.1 h).2 hfits
  | none =>
      constructor
      · intro h hover
        exact h .spreadRatio (checkNoBelief_abort_iff.2 ⟨rfl, hover⟩)
      · intro hfits site h
        exact hfits (checkNoBelief_abort_iff.1 h).2

/-- An offer of 1000 tokens of 18 decimals at the smallest belief price, and a book leg that returns
nothing next to a pool leg of one unit. -/
theorem slippage_check_aborts :
    checkMaxSpread (some ⟨1⟩) none ⟨10 ^ 21, 0, 0, 0, 0, 0, 0, 0⟩ = .error (.abort .beliefReturn) ∧
      checkMaxSpread none none ⟨10 ^ 21, 1, 0, 0, 0, 1, 10 ^ 21, 0⟩ =
        .error (.abort .spreadRatio) := by
  decide +kernel

end Cl8yDex
