import Cl8yDex.OracleRing
import Cl8yDex.SettlementSpec

/-!
# The checks in front of a swap

Up to the two legs a swap can be stopped by a limit, by a request that cannot be quoted either, or
by a clock past the last second. None of the checks looks at an escrow counter.
-/

namespace Cl8yDex

open Outcome

section Guards

variable {p : PairStorage} {q : Querier} {env : Env}

theorem Oracle.update_noUnderflow (o : Oracle) (t a b : ℕ) :
    Meets (o.update t a b) (fun o' => o.update t a b = .ok o') (fun e => ¬e.Underflow) := by
  have haddU16 : ∀ i k, Meets (addU16 i k) (fun _ => True) (fun e => ¬e.Underflow) := by
    intro i k
    unfold addU16
    split_ifs
    · exact trivial
    · rintro ⟨_, _, ⟨⟩⟩
  have happend : ∀ last prices, Meets (o.append t last prices) (fun _ => True)
      (fun e => ¬e.Underflow) := by
    intro last prices
    unfold Oracle.append extrapolate
    refine Meets.bind (Q := fun _ => True) ?_ fun _ _ => ?_
    · refine (orThrow_noUnderflow (by rintro ⟨_, _, ⟨⟩⟩)).bind fun _ _ => ?_
      refine (orThrow_noUnderflow (by rintro ⟨_, _, ⟨⟩⟩)).bind fun _ _ => ?_
      refine (orThrow_noUnderflow (by rintro ⟨_, _, ⟨⟩⟩)).bind fun _ _ => ?_
      exact (orThrow_noUnderflow (by rintro ⟨_, _, ⟨⟩⟩)).bind fun _ _ => trivial
    · refine Meets.bind (Q := fun _ => True) ?_ fun _ _ => trivial
      unfold Oracle.nextIndex
      split_ifs
      · exact trivial
      · exact (haddU16 _ _).bind fun _ _ => trivial
  have hmain : Meets (o.update t a b) (fun _ => True) (fun e => ¬e.Underflow) := by
    unfold Oracle.update
    by_cases hzero : a = 0 ∨ b = 0
    · rw [if_pos hzero]
      exact trivial
    rw [if_neg hzero]
    cases o.observations o.state.index with
    | none => exact trivial
    | some last =>
        simp only
        by_cases ht : t ≤ last.timestamp
        · rw [if_pos ht]
          exact trivial
        rw [if_neg ht]
        cases spotPrices a b with
        | none => exact trivial
        | some prices => exact happend last prices
  cases hu : o.update t a b with
  | ok o' => exact rfl
  | error e => exact hmain.failure hu

theorem updateOracle_spec : Meets (p.updateOracle env)
    (fun p' => ∃ o, p.oracle.update env.blockTime p.reserves.1 p.reserves.2 = .ok o ∧
      p' = { p with oracle := o })
    (fun e => ¬e.Underflow ∧ (p.oracle.Sane → u64Max < env.blockTime)) := by
  unfold PairStorage.updateOracle
  have hu := Oracle.update_noUnderflow p.oracle env.blockTime p.reserves.1 p.reserves.2
  cases ho : p.oracle.update env.blockTime p.reserves.1 p.reserves.2 with
  | ok o => exact ⟨o, rfl, rfl⟩
  | error e =>
      exact ⟨hu.failure ho,
        fun hs => (hs.update env.blockTime p.reserves.1 p.reserves.2).failure ho⟩

theorem openTxSwapScope_eq (p : PairStorage) (env : Env) : ∃ n, p.openTxSwapScope env =
    { p with txSwapScope := some (PairStorage.txSwapScopeOf env), txSwapCounter := n } := by
  unfold PairStorage.openTxSwapScope
  split_ifs with h
  · exact ⟨p.txSwapCounter, by rw [← h]⟩
  · exact ⟨0, rfl⟩

theorem advanceTxSwapIndex_eq (p : PairStorage) (env : Env) :
    ∃ n, p.advanceTxSwapIndex env = { p with txSwapCounter := n } := by
  unfold PairStorage.advanceTxSwapIndex
  split_ifs
  · exact ⟨_, rfl⟩
  · exact ⟨p.txSwapCounter, rfl⟩

theorem addrValidateOr_gate (a : Option Addr) (default : Addr) :
    Meets (q.addrValidateOr a default) (fun _ => True) ContractError.SwapGate := by
  cases a with
  | none => exact trivial
  | some a => exact (addrValidate_spec q a).mono (fun _ _ => trivial) fun _ h => h.gate

end Guards

section Plan

variable {p : PairStorage} {inputAmount : ℕ} {args : SwapArgs}

/-- The quote of a plan that the execution follows. -/
def QuotePlan (args : SwapArgs) (inputAmount : ℕ) (plan : SwapPlan) : Prop :=
  ∃ mode, resolveMode args.hybrid args.greedy = .ok mode ∧
    planQuote inputAmount args.beliefPrice mode = .ok plan

theorem checkDeclaredSplit_noUnderflow (h : HybridSwapParams) :
    Meets (checkDeclaredSplit inputAmount h) (fun _ => h.poolInput + h.bookInput = inputAmount)
      (fun e => ¬e.Underflow) := by
  unfold checkDeclaredSplit
  refine (add_noUnderflow _ _).bind fun total htotal => ?_
  refine (ensure_noUnderflow (by rintro ⟨_, _, ⟨⟩⟩)).bind fun _ hsum => ?_
  refine (ensure_noUnderflow (by rintro ⟨_, _, ⟨⟩⟩)).weaken fun _ _ => ?_
  rw [← htotal.1, hsum]

theorem checkDeclaredFloor_gate (beliefPrice : Option Decimal) (minReturn : Option ℕ)
    (h : HybridSwapParams) :
    Meets (checkDeclaredFloor beliefPrice minReturn h) (fun _ => True) ContractError.SwapGate := by
  unfold checkDeclaredFloor
  split_ifs
  · exact meets_liftSpread (floor_expected _ _ _)
  · exact trivial

theorem checkDeclaredPoolLeg_gate (beliefPrice : Option Decimal) (h : HybridSwapParams) :
    Meets (checkDeclaredPoolLeg inputAmount beliefPrice h) (fun _ => True)
      ContractError.SwapGate := by
  unfold checkDeclaredPoolLeg validateDeclaredHybridPoolLegForNoBelief
  split_ifs
  · exact trivial
  · exact meets_liftSpread (ensure_expected (by exact trivial))
  · exact trivial

/-- The plan of the quote, and nothing but the limits in its way. -/
theorem planSwap_spec (mode : SwapHybridMode) :
    Meets (planSwap inputAmount args.beliefPrice args.minReturn mode)
      (fun plan => planQuote inputAmount args.beliefPrice mode = .ok plan ∧
        plan.poolLeg + plan.bookLeg = inputAmount)
      (fun e => ¬e.Underflow ∧
        ((∃ plan, planQuote inputAmount args.beliefPrice mode = .ok plan) → e.SwapGate)) := by
  cases mode with
  | poolOnly => exact ⟨rfl, rfl⟩
  | greedy g =>
      refine ((meets_liftSpread (floor_expected _ _ _)).mono (fun _ h => h) fun e he =>
        ⟨he.noUnderflow, fun _ => he⟩).bind fun _ _ => ⟨rfl, Nat.zero_add _⟩
  | declared h =>
      simp only [planSwap, planQuote]
      cases hsplit : checkDeclaredSplit inputAmount h with
      | error e =>
          refine ⟨(checkDeclaredSplit_noUnderflow h).failure hsplit, ?_⟩
          rintro ⟨plan, hplan⟩
          cases hplan
      | ok u =>
      refine ((checkDeclaredFloor_gate _ _ h).mono (fun _ h => h) fun e he =>
        ⟨he.noUnderflow, fun _ => he⟩).bind fun _ _ => ?_
      cases hpool : checkDeclaredPoolLeg inputAmount args.beliefPrice h with
      | error e =>
          have he := (checkDeclaredPoolLeg_gate _ h).failure hpool
          exact ⟨he.noUnderflow, fun _ => he⟩
      | ok v => exact ⟨rfl, (checkDeclaredSplit_noUnderflow h).success hsplit⟩

theorem validateSwap_spec : Meets (validateSwap p inputAmount args)
    (fun plan => QuotePlan args inputAmount plan ∧ plan.poolLeg + plan.bookLeg = inputAmount ∧
      inputAmount ≠ 0)
    (fun e => ¬e.Underflow ∧ (validateStoredHooks p.hooks = .ok () →
      (∃ plan, QuotePlan args inputAmount plan) → e.SwapGate)) := by
  unfold validateSwap
  refine Meets.bind (Q := fun _ => inputAmount ≠ 0)
    (meets_ensure fun _ => ⟨by rintro ⟨_, _, ⟨⟩⟩, fun _ _ => trivial⟩) fun _ hne => ?_
  cases hhooks : validateStoredHooks p.hooks with
  | error e =>
      refine ⟨(validateStoredHooks_noUnderflow p.hooks).failure hhooks, fun hok => ?_⟩
      cases hok
  | ok u =>
  rw [ok_bind]
  refine Meets.bind (Q := fun _ => True)
    ((meets_ensure (fun _ => ⟨by rintro ⟨_, _, ⟨⟩⟩, fun _ _ => trivial⟩)).weaken fun _ _ => trivial)
    fun _ _ => ?_
  cases hmode : resolveMode args.hybrid args.greedy with
  | error e =>
      refine ⟨(mapError_noUnderflow _ (by rintro _ ⟨_, _, ⟨⟩⟩)).failure hmode, ?_⟩
      rintro - ⟨plan, mode, hmode', -⟩
      cases hmode.symm.trans hmode'
  | ok mode =>
      rw [ok_bind]
      refine (planSwap_spec mode).mono (fun plan h => ⟨⟨mode, hmode, h.1⟩, h.2, hne⟩) fun e he =>
        ⟨he.1, ?_⟩
      rintro - ⟨plan, mode', hmode', hplan⟩
      obtain rfl := Except.ok.inj (hmode.symm.trans hmode')
      exact he.2 ⟨plan, hplan⟩

end Plan

end Cl8yDex
