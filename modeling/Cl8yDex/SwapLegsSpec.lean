import Cl8yDex.PlacementSpec
import Cl8yDex.PoolFacts

/-!
# The two legs of a swap, executed and quoted

The executing legs succeed exactly where the quoted ones do, with the same numbers, as long as the
offer and the escrow are in range. The amounts of both legs add up to the offer and to what leaves
the reserves and the escrow.
-/

namespace Cl8yDex

open Outcome

theorem PairInfo.takenSide_eq_ok {info : PairInfo} {token : Addr} {side : LimitOrderSide}
    (h : info.takenSide token = .ok side) : token = info.escrowToken side.other := by
  unfold PairInfo.takenSide at h
  split_ifs at h with h0 h1
  · cases h
    exact h0
  · cases h
    exact h1

section NoUnderflow

variable {i o x fee : ℕ}

theorem add_noUnderflow (a b : ℕ) : Meets (addOrOverflow a b)
    (fun c => c = a + b ∧ a + b ≤ u128Max) (fun e => ¬e.Underflow) :=
  (meets_add a b).mono (fun _ h => h) fun e he => by
    rintro ⟨_, _, rfl⟩
    cases he.1

theorem sub_noUnderflow (a b : ℕ) : Meets (subOrOverflow a b) (fun c => c = a - b ∧ b ≤ a)
    (fun e => ¬e.Underflow) :=
  (meets_sub a b).mono (fun _ h => h) fun e he => by
    rintro ⟨_, _, rfl⟩
    cases he.1

theorem mul256_noUnderflow (a b : ℕ) :
    Meets (mul256OrOverflow a b) (fun _ => True) (fun e => ¬e.Underflow) :=
  (orThrow_noUnderflow (by rintro ⟨_, _, ⟨⟩⟩)).weaken fun _ _ => trivial

theorem narrowU128_noUnderflow (value : ℕ) (ctx : String) :
    Meets (narrowU128 value ctx) (fun c => c = value ∧ value ≤ u128Max)
      (fun e => ¬e.Underflow) := by
  unfold narrowU128
  split_ifs with h
  · exact ⟨rfl, h⟩
  · rintro ⟨_, _, ⟨⟩⟩

theorem poolOutput_noUnderflow (ctx : String) :
    Meets (poolOutput i o x ctx) (fun _ => True) (fun e => ¬e.Underflow) := by
  unfold poolOutput
  refine (ensure_noUnderflow (by rintro ⟨_, _, ⟨⟩⟩)).bind fun _ _ => ?_
  refine (mul256_noUnderflow _ _).bind fun k _ => ?_
  refine (add_noUnderflow _ _).bind fun ni _ => ?_
  refine (narrowU128_noUnderflow _ _).bind fun no _ => ?_
  exact (sub_noUnderflow _ _).bind fun g _ => trivial

theorem poolCommission_noUnderflow (gross : ℕ) :
    Meets (poolCommission gross fee) (fun _ => True) (fun e => ¬e.Underflow) := by
  unfold poolCommission
  refine (ensure_noUnderflow (by rintro ⟨_, _, ⟨⟩⟩)).bind fun _ _ => ?_
  refine (mul256_noUnderflow _ _).bind fun s _ => ?_
  exact (ensure_noUnderflow (by rintro ⟨_, _, ⟨⟩⟩)).bind fun _ _ => trivial

theorem spotLinearSpreadOverGross_noUnderflow (gross : ℕ) :
    Meets (spotLinearSpreadOverGross x i o gross) (fun _ => True) (fun e => ¬e.Underflow) := by
  unfold spotLinearSpreadOverGross
  refine (ensure_noUnderflow (by rintro ⟨_, _, ⟨⟩⟩)).bind fun _ _ => ?_
  refine (mul256_noUnderflow _ _).bind fun s _ => ?_
  exact (ensure_noUnderflow (by rintro ⟨_, _, ⟨⟩⟩)).bind fun _ _ => trivial

theorem executePoolLeg_noUnderflow : Meets (executePoolLeg i o x fee)
    (fun leg => executePoolLeg i o x fee = .ok leg) (fun e => ¬e.Underflow) := by
  have hmain : Meets (executePoolLeg i o x fee) (fun _ => True) (fun e => ¬e.Underflow) := by
    unfold executePoolLeg
    by_cases hx : x = 0
    · rw [if_pos hx]
      exact trivial
    rw [if_neg hx]
    refine (poolOutput_noUnderflow _).bind fun out _ => ?_
    refine (mul256_noUnderflow _ _).bind fun newK _ => ?_
    refine (ensure_noUnderflow (by rintro ⟨_, _, ⟨⟩⟩)).bind fun _ _ => ?_
    refine (ensure_noUnderflow (by rintro ⟨_, _, ⟨⟩⟩)).bind fun _ _ => ?_
    refine (poolCommission_noUnderflow _).bind fun c _ => ?_
    refine (sub_noUnderflow _ _).bind fun r _ => ?_
    refine (mul256_noUnderflow _ _).bind fun s _ => ?_
    refine (mul256_noUnderflow _ _).bind fun t _ => ?_
    refine (ensure_noUnderflow (by rintro ⟨_, _, ⟨⟩⟩)).bind fun _ _ => ?_
    exact (spotLinearSpreadOverGross_noUnderflow _).bind fun _ _ => trivial
  cases hleg : executePoolLeg i o x fee with
  | ok leg => exact rfl
  | error e => exact hmain.failure hleg

/-- The read-only match never runs into a counter. -/
theorem simulateSide_noUnderflow (w : WalkParams) (b : Book) (budget : ℕ) (hint : Option OrderId) :
    Meets (simulateSide w b budget hint) (fun _ => True) (fun e => ¬e.Underflow) := by
  unfold simulateSide
  refine (simulateWalk_meets b _ _ _).bind fun out _ => ?_
  exact (sub_noUnderflow _ _).bind fun _ _ => trivial

end NoUnderflow

section Legs

variable {p : PairStorage} {A : AbsBook} {q : Querier} {env : Env} {side : LimitOrderSide}
  {plan : SwapPlan} {bps : ℕ}

/-- The walk that a plan asks for. -/
def SwapPlan.walk (plan : SwapPlan) (p : PairStorage) (q : Querier) (env : Env)
    (side : LimitOrderSide) (bps : ℕ) : WalkParams :=
  walkParams side env.blockTime plan.maxMakers bps
    (some (tradeBlacklistGate q p.pairInfo env.contract)) (plan.greedyPool p.reserves side bps)

theorem matchBook_eq (b : Book) (now budget cap : ℕ) (hint : Option OrderId)
    (gate : Option TradeBlacklistGate) (pool : Option GreedyPoolRef) :
    matchBook side b now budget cap hint bps gate pool =
      matchSide (walkParams side now cap bps gate pool) b budget hint := by
  cases side <;> rfl

theorem simulateMatchBook_eq (b : Book) (now budget cap : ℕ) (hint : Option OrderId)
    (gate : Option TradeBlacklistGate) (pool : Option GreedyPoolRef) :
    simulateMatchBook side b now budget cap hint bps gate pool =
      simulateSide (walkParams side now cap bps gate pool) b budget hint := by
  cases side <;> rfl

theorem executeBookLeg_spec (h : Represents p.book A) (hbal : A.Balanced) :
    Meets (executeBookLeg p q env side plan bps)
      (fun out => simulateBookLeg p q env side plan bps = .ok out.2.quoted ∧
        ∃ acts A', Matched (plan.walk p q env side bps) A plan.bookLeg acts A' out.1 out.2)
      (fun e => ¬e.Underflow ∧ (simulateBookLeg p q env side plan bps = .error e ∨
        ¬(plan.bookLeg ≤ u128Max ∧ A.held side ≤ u128Max))) := by
  unfold executeBookLeg simulateBookLeg
  by_cases hleg : 0 < plan.bookLeg
  · rw [if_pos hleg, if_pos hleg, matchBook_eq, simulateMatchBook_eq]
    refine (matchSide_spec (w := plan.walk p q env side bps) h (hbal side) plan.bookLeg
      plan.bookHint).mono (fun _ hm => hm) ?_
    rintro e (he | ⟨rfl, hb⟩)
    · exact ⟨(simulateSide_noUnderflow _ _ _ _).failure he, .inl he⟩
    · refine ⟨?_, .inr hb⟩
      rintro ⟨_, _, ⟨⟩⟩
  · rw [if_neg hleg, if_neg hleg]
    have hz : plan.bookLeg = 0 := Nat.eq_zero_of_not_pos hleg
    exact ⟨rfl, [], A, .nil A, h, by simp, fun _ => rfl, Nat.zero_le _, rfl, rfl⟩

/-- How the legs divide the offer and what they take from the reserves. -/
structure SwapLegs.Accounts (p : PairStorage) (side : LimitOrderSide) (plan : SwapPlan) (bps : ℕ)
    (legs : SwapLegs) : Prop where
  offer : legs.pool.input + legs.bookMatch.offerConsumed = plan.poolLeg + plan.bookLeg
  pool : legs.pool = PoolLeg.none ∨ legs.pool.input ≠ 0 ∧
    legs.pool.Priced (inputReserve p.reserves side) (outputReserve p.reserves side)
      legs.pool.input bps
  input : inputReserve legs.reserves side = inputReserve p.reserves side + legs.pool.input
  output : outputReserve legs.reserves side + legs.pool.grossOutput = outputReserve p.reserves side

theorem SwapLegs.Accounts.split {legs : SwapLegs} (h : legs.Accounts p side plan bps) :
    legs.pool.returnAmount + legs.pool.commissionAmount = legs.pool.grossOutput := by
  rcases h.pool with hnone | ⟨-, hp⟩
  · rw [hnone]
    rfl
  · exact hp.split

/-- Writing the reserves of a priced leg succeeds. -/
theorem reservesAfter_spec {leg : PoolLeg} (h : leg = PoolLeg.none ∨ leg.input ≠ 0 ∧
    leg.Priced (inputReserve p.reserves side) (outputReserve p.reserves side) leg.input bps) :
    ∃ reserves, reservesAfter p.reserves side leg = .ok reserves ∧
      inputReserve reserves side = inputReserve p.reserves side + leg.input ∧
      outputReserve reserves side + leg.grossOutput = outputReserve p.reserves side := by
  unfold reservesAfter
  rcases h with rfl | ⟨hne, hp⟩
  · exact ⟨p.reserves, rfl, rfl, rfl⟩
  · rw [if_neg hne]
    have hin := hp.inRange
    have hgross : leg.grossOutput ≤ outputReserve p.reserves side := by
      rw [hp.gross]
      exact Nat.sub_le _ _
    have hback := Nat.sub_add_cancel hgross
    cases side with
    | bid =>
        refine ⟨(p.reserves.1 + leg.input, p.reserves.2 - leg.grossOutput), ?_, rfl, hback⟩
        exact bind_eq_ok.2 ⟨_, addOrOverflow_eq_ok.2 ⟨hin, rfl⟩,
          bind_eq_ok.2 ⟨_, subOrOverflow_eq_ok.2 ⟨hgross, rfl⟩, rfl⟩⟩
    | ask =>
        refine ⟨(p.reserves.1 - leg.grossOutput, p.reserves.2 + leg.input), ?_, rfl, hback⟩
        exact bind_eq_ok.2 ⟨_, subOrOverflow_eq_ok.2 ⟨hgross, rfl⟩,
          bind_eq_ok.2 ⟨_, addOrOverflow_eq_ok.2 ⟨hin, rfl⟩, rfl⟩⟩

theorem poolInputAmount_spec (plan : SwapPlan) (consumed : ℕ) :
    Meets (poolInputAmount plan consumed)
      (fun x => poolInputAmount plan consumed = .ok x ∧
        (consumed ≤ plan.bookLeg ∧ x + consumed = plan.poolLeg + plan.bookLeg))
      (fun e => ¬e.Underflow ∧ poolInputAmount plan consumed = .error e) := by
  unfold poolInputAmount
  cases hs : subOrOverflow plan.bookLeg consumed with
  | error e => exact ⟨(sub_noUnderflow _ _).failure hs, rfl⟩
  | ok u =>
      obtain ⟨hle, rfl⟩ := subOrOverflow_eq_ok.1 hs
      rw [ok_bind]
      cases ha : addOrOverflow plan.poolLeg (plan.bookLeg - consumed) with
      | error e => exact ⟨(add_noUnderflow _ _).failure ha, rfl⟩
      | ok x =>
          obtain ⟨-, rfl⟩ := addOrOverflow_eq_ok.1 ha
          exact ⟨rfl, hle, by omega⟩

def SwapLegs.quoted (legs : SwapLegs) : QuotedLegs := ⟨legs.bookMatch.quoted, legs.pool⟩

/-- The executed legs against the quoted ones. -/
theorem executeLegs_spec (h : Represents p.book A) (hbal : A.Balanced) :
    Meets (executeLegs p q env side plan bps)
      (fun legs => simulateLegs p q env side plan bps = .ok legs.quoted ∧
        legs.Accounts p side plan bps ∧
        ∃ acts A', Matched (plan.walk p q env side bps) A plan.bookLeg acts A' legs.book
          legs.bookMatch)
      (fun e => ¬e.Underflow ∧ ((∀ legs, simulateLegs p q env side plan bps ≠ .ok legs) ∨
        ¬(plan.bookLeg ≤ u128Max ∧ A.held side ≤ u128Max))) := by
  unfold executeLegs simulateLegs
  refine ((executeBookLeg_spec h hbal).mono (fun _ hm => hm) ?_).bind ?_
  · rintro e ⟨hu, he | hb⟩
    · refine ⟨hu, .inl fun legs hl => ?_⟩
      rw [he] at hl
      cases hl
    · exact ⟨hu, .inr hb⟩
  rintro ⟨book, bookMatch⟩ ⟨hsim, acts, A', hm⟩
  simp only [hsim, ok_bind]
  change Meets _ _ fun e => _ ∧ ((∀ legs, (poolInputAmount plan bookMatch.offerConsumed >>= _) ≠
    Except.ok legs) ∨ _)
  refine ((poolInputAmount_spec plan bookMatch.offerConsumed).mono (fun _ hx => hx) ?_).bind ?_
  · rintro e ⟨hu, he⟩
    refine ⟨hu, .inl fun legs hl => ?_⟩
    rw [he] at hl
    cases hl
  rintro x ⟨hx, -, hoffer⟩
  rw [hx, ok_bind]
  cases hleg : executePoolLeg (inputReserve p.reserves side) (outputReserve p.reserves side) x
      bps with
  | error e =>
      refine ⟨executePoolLeg_noUnderflow.failure hleg, .inl fun legs hl => ?_⟩
      obtain ⟨leg, hleg', -⟩ := bind_eq_ok.1 hl
      rw [executePoolLeg_eq_ok_iff.2 hleg'] at hleg
      cases hleg
  | ok leg =>
      have hsimleg := executePoolLeg_eq_ok_iff.1 hleg
      have hpriced : leg = PoolLeg.none ∧ leg.input = x ∨ leg.input ≠ 0 ∧ leg.input = x ∧
          leg.Priced (inputReserve p.reserves side) (outputReserve p.reserves side) leg.input
            bps := by
        by_cases hx0 : x = 0
        · simp only [simulatePoolLeg, if_pos hx0] at hsimleg
          cases hsimleg
          exact .inl ⟨rfl, hx0.symm⟩
        · have hp := simulatePoolLeg_eq_ok hx0 hsimleg
          exact .inr ⟨hp.input ▸ hx0, hp.input, by rw [hp.input]; exact hp⟩
      have hinput : leg.input = x := hpriced.elim And.right fun hp => hp.2.1
      have hpool : leg = PoolLeg.none ∨ leg.input ≠ 0 ∧
          leg.Priced (inputReserve p.reserves side) (outputReserve p.reserves side) leg.input
            bps := hpriced.imp And.left fun hp => ⟨hp.1, hp.2.2⟩
      obtain ⟨reserves, hres, hin, hout⟩ := reservesAfter_spec hpool
      have hxq : poolInputAmount plan bookMatch.quoted.offerConsumed = .ok x := hx
      simp only [ok_bind, hres, hxq, hsimleg]
      exact ⟨rfl, ⟨by rw [← hoffer, hinput], hpool, hin, hout⟩, acts, A', hm⟩

end Legs

end Cl8yDex
