import Cl8yDex.PairRuns

/-!
# The quote against the swap

The quote repeats the parts of a finished swap, hook fees included, and a quote that answers
provides the parts that a swap of the same request is made of.
-/

namespace Cl8yDex

open Outcome

variable {p : PairStorage} {A : AbsBook} {q : Querier} {env : Env} {offerToken sender : Addr}
  {inputAmount : ℕ} {args : SwapArgs} {bps : ℕ}

/-- The figures on which a report and a quote must agree. -/
structure SwapReport.Agrees (report : SwapReport) (sim : HybridSimulationResponse) : Prop where
  netReturn : report.netReturnAmount = sim.returnAmount
  poolReturn : report.poolReturnAmount = sim.poolReturnAmount
  bookReturn : report.bookReturnAmount = sim.bookReturnAmount
  poolCommission : report.commissionAmount = sim.poolCommissionAmount
  bookCommission : report.bookCommissionAmount = sim.bookCommissionAmount
  consumed : report.limitBookOfferConsumed = sim.limitBookOfferConsumed
  spread : report.spreadAmount = sim.spreadAmount
  greedyStop : report.greedyStop = sim.greedyStop

theorem PairInfo.quotedAsk_eq {info : PairInfo} {side : LimitOrderSide}
    (h : info.takenSide offerToken = .ok side) :
    info.quotedAsk offerToken = info.escrowToken side := by
  unfold PairInfo.takenSide at h
  unfold PairInfo.quotedAsk
  by_cases h0 : offerToken = info.token0
  · rw [if_pos h0] at h ⊢
    cases h
    rfl
  · rw [if_neg h0] at h ⊢
    split_ifs at h
    cases h
    rfl

/-- What the quote answers about the legs of a swap, before the fee hooks. -/
def SwapLegs.answer (legs : SwapLegs) (total commission : ℕ) : HybridSimulationResponse where
  returnAmount := total
  spreadAmount := legs.pool.spreadAmount
  commissionAmount := commission
  poolCommissionAmount := legs.pool.commissionAmount
  bookCommissionAmount := legs.bookMatch.commissionTotal
  bookReturnAmount := legs.bookMatch.returnNet
  poolReturnAmount := legs.pool.returnAmount
  limitBookOfferConsumed := legs.bookMatch.offerConsumed
  greedyStop := legs.bookMatch.greedyStop

theorem SwapLegs.response_eq {legs : SwapLegs} {total commission : ℕ}
    (htotal : addOrOverflow legs.bookMatch.returnNet legs.pool.returnAmount = .ok total)
    (hcommission : addOrOverflow legs.bookMatch.commissionTotal legs.pool.commissionAmount =
      .ok commission) : legs.quoted.response = .ok (legs.answer total commission) := by
  rw [addOrOverflow_comm] at hcommission
  exact bind_eq_ok.2 ⟨total, htotal, bind_eq_ok.2 ⟨commission, hcommission, rfl⟩⟩

theorem quoteBelief_eq_ok {beliefPrice : Option Decimal}
    (h : ∀ bp, beliefPrice = some bp → ∃ inv, beliefPriceReciprocal bp = .ok inv) :
    quoteBelief beliefPrice = .ok () := by
  cases beliefPrice with
  | none => rfl
  | some bp =>
      obtain ⟨inv, hinv⟩ := h bp rfl
      simp only [quoteBelief, liftSpread, hinv]
      rfl

/-- A finished swap was quoted with its own figures. -/
theorem Swapped.quote {out : PairStorage × Response} {parts : SwapParts}
    (h : Swapped p A q env offerToken sender inputAmount args bps out parts) :
    ∃ sim, simulateHybridSwapWithFee p q env inputAmount args.hybrid args.greedy offerToken bps
        args.beliefPrice = .ok sim ∧
      (parts.legs.report parts.settlement sender parts.receiver offerToken
        (p.pairInfo.escrowToken parts.side) inputAmount bps).Agrees sim := by
  obtain ⟨mode, hmode, hplan⟩ := h.plan
  have hs := h.settlement
  have hbefore : simulateHybridSwapBeforeHooksWithFee p q env inputAmount args.hybrid args.greedy
      offerToken bps args.beliefPrice = parts.legs.quoted.response := by
    unfold simulateHybridSwapBeforeHooksWithFee
    rw [if_neg h.positive]
    simp only [quoteBelief_eq_ok hs.belief, hmode, hplan, h.side, h.quoted, ok_bind]
  rw [SwapLegs.response_eq hs.total hs.commission] at hbefore
  have hle : parts.settlement.hookFeeTotal ≤ parts.settlement.totalReturn := by
    have hnet := hs.net
    omega
  have hnet : netReturnAfterHooks parts.settlement.totalReturn parts.settlement.deductions =
      .ok parts.settlement.netReturn := by
    rw [netReturnAfterHooks, hs.hookFee, ok_bind, subOrOverflow_eq_ok]
    exact ⟨hle, (Nat.sub_eq_of_eq_add hs.net.symm).symm⟩
  refine ⟨{ parts.legs.answer parts.settlement.totalReturn parts.settlement.totalCommission with
    returnAmount := parts.settlement.netReturn }, ?_, rfl, rfl, rfl, rfl, rfl, rfl, rfl, rfl⟩
  unfold simulateHybridSwapWithFee
  rw [hbefore, ok_bind, PairInfo.quotedAsk_eq h.side]
  simp only [SwapLegs.answer, hs.collected, ok_bind, hnet]
  rfl

/-- The net return is transferred to the receiver. -/
theorem Swapped.pays {out : PairStorage × Response} {parts : SwapParts}
    (h : Swapped p A q env offerToken sender inputAmount args bps out parts) :
    ∃ before after, out.2.messages = before ++
      maybeTransfer (p.pairInfo.escrowToken parts.side) parts.receiver parts.settlement.netReturn ++
        after := by
  refine ⟨makerPayoutTransferMessages parts.legs.bookMatch.makerPayouts offerToken ++
    feeSettlementTransferMessages parts.settlement.deductions,
    maybeTransfer (p.pairInfo.escrowToken parts.side) p.feeConfig.treasury
      parts.settlement.totalCommission ++ (hookMessages env.contract sender offerToken
        (p.pairInfo.escrowToken parts.side) inputAmount parts.settlement
        parts.legs.pool.spreadAmount p.hooks ++ parts.deregisters), ?_⟩
  rw [h.messages, swapTransferMessages]
  simp only [List.append_assoc]

/-- A quote that answers has a plan, two legs and a settlement. -/
theorem legs_of_quote {sim : HybridSimulationResponse} (hpos : inputAmount ≠ 0)
    (h : simulateHybridSwapWithFee p q env inputAmount args.hybrid args.greedy offerToken bps
      args.beliefPrice = .ok sim) :
    ∃ plan side legs, QuotePlan args inputAmount plan ∧
      p.pairInfo.takenSide offerToken = .ok side ∧
      simulateLegs p q env side plan bps = .ok legs ∧
      legs.Settles q p.hooks (p.pairInfo.escrowToken side) := by
  obtain ⟨r, hbefore, h⟩ := bind_eq_ok.1 h
  obtain ⟨ds, hds, h⟩ := bind_eq_ok.1 h
  obtain ⟨net, hnet, -⟩ := bind_eq_ok.1 h
  unfold simulateHybridSwapBeforeHooksWithFee at hbefore
  rw [if_neg hpos] at hbefore
  obtain ⟨-, -, hbefore⟩ := bind_eq_ok.1 hbefore
  obtain ⟨mode, hmode, hbefore⟩ := bind_eq_ok.1 hbefore
  obtain ⟨plan, hplan, hbefore⟩ := bind_eq_ok.1 hbefore
  obtain ⟨side, hside, hbefore⟩ := bind_eq_ok.1 hbefore
  obtain ⟨legs, hlegs, hr⟩ := bind_eq_ok.1 hbefore
  rw [PairInfo.quotedAsk_eq hside] at hds
  exact ⟨plan, side, legs, ⟨mode, hmode, hplan⟩, hside, hlegs, r, ds, net, hr, hds, hnet⟩

/-- A swap pays what the quote of the state before it says, and where the quote answers only the
swap's own limits can stop it. -/
theorem quote_eq_execution (hp : Reachable p) (hpos : 0 < inputAmount)
    (hoffer : inputAmount ≤ u128Max) (htime : env.blockTime ≤ u64Max)
    (hfee : TakerFee p q env args sender bps) :
    (∀ out, executeSwap p q env offerToken sender inputAmount args = .ok out →
      ∃ sim report before after,
        simulateHybridSwapWithFee p q env inputAmount args.hybrid args.greedy offerToken bps
          args.beliefPrice = .ok sim ∧
        out.2.attributes = .swap report ∧ report.Agrees sim ∧
        out.2.messages = before ++
          maybeTransfer report.askToken report.receiver sim.returnAmount ++ after) ∧
    ∀ sim, simulateHybridSwapWithFee p q env inputAmount args.hybrid args.greedy offerToken bps
        args.beliefPrice = .ok sim →
      ∀ e, executeSwap p q env offerToken sender inputAmount args = .error e → e.SwapGate := by
  obtain ⟨A, hA⟩ := hp.healthy
  constructor
  · intro out hout
    obtain ⟨parts, h⟩ := (executeSwap_spec hA.rep hA.balanced hfee).success hout
    obtain ⟨sim, hsim, hagrees⟩ := h.quote
    obtain ⟨before, after, hpays⟩ := h.pays
    refine ⟨sim, _, before, after, hsim, h.attributes, hagrees, ?_⟩
    rw [← hagrees.netReturn]
    exact hpays
  · intro sim hsim e he
    exact ((executeSwap_spec hA.rep hA.balanced hfee).failure he).2
      ⟨hoffer, htime, hA.held_le, hA.oracle, legs_of_quote (Nat.pos_iff_ne_zero.1 hpos) hsim⟩

/-- A greedy offer that fills one of the bids and sends the rest to the pool. -/
def sampleSwap : SwapArgs where
  beliefPrice := none
  maxSpread := some ⟨10 ^ 18⟩
  minReturn := some 1
  toAddr := none
  trader := none
  hybrid := none
  greedy := some ⟨5, none⟩

theorem quote_eq_execution_sample : ∃ out sim report before after,
    executeSwap sampleBook .permissive (sampleEnv 1012) 1 8 700000 sampleSwap = .ok out ∧
      simulateHybridSwapWithFee sampleBook .permissive (sampleEnv 1012) 700000 none
        (some ⟨5, none⟩) 1 30 none = .ok sim ∧
      out.2.attributes = .swap report ∧ report.Agrees sim ∧
      out.2.messages = before ++
        maybeTransfer report.askToken report.receiver sim.returnAmount ++ after := by
  have hok : (executeSwap sampleBook .permissive (sampleEnv 1012) 1 8 700000 sampleSwap).isOk := by
    decide +kernel
  have hbps : sampleBook.feeConfig.feeBps = 30 := by decide +kernel
  have hfee : TakerFee sampleBook .permissive (sampleEnv 1012) sampleSwap 8 30 :=
    hbps ▸ takerFee_of_none (by decide +kernel)
  have h := (@quote_eq_execution sampleBook _ _ 1 8 700000 _ _ sampleBook_reachable
    (by decide) (by decide) (by decide) hfee).1
  cases hout : executeSwap sampleBook .permissive (sampleEnv 1012) 1 8 700000 sampleSwap with
  | ok out =>
      obtain ⟨sim, report, before, after, hsim⟩ := h out hout
      exact ⟨out, sim, report, before, after, rfl, hsim⟩
  | error e =>
      rw [hout] at hok
      cases hok

end Cl8yDex
