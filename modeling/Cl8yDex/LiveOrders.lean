import Cl8yDex.ExecuteSpec
import Cl8yDex.WalkVisits
import Cl8yDex.PairRuns

/-!
# Every operation keeps the stored orders live

An order is live when it is above the dust floor and fillable at its price. Three operations store
terms: a placement after the maker fee, a reprice and a partial fill. Each of them tests the terms
that it stores; the other operations only drop orders.
-/

namespace Cl8yDex

open Outcome Relation

/-- What every order of a new pair satisfies while it rests. -/
structure OrderTerms.Live (t : OrderTerms) : Prop where
  floor : limitOrderDustFlushThreshold ≤ t.remaining
  fillable : isLimitOrderFillable t.side t.remaining t.price = true

def Book.AllLive (b : Book) : Prop := ∀ x t, b.terms x = some t → t.Live

section Books

variable {b b' : Book} {x : OrderId} {o : LimitOrder} {t : OrderTerms}

theorem Book.AllLive.shrinks (h : b.AllLive) (hb : b.Shrinks b') : b'.AllLive :=
  fun x t ht => h x t (hb x t ht)

theorem Book.AllLive.store (h : b.AllLive) (hterms : b'.terms = Function.update b.terms x (some t))
    (ht : t.Live) : b'.AllLive := by
  intro y u hu
  rw [hterms] at hu
  by_cases hy : y = x
  · rw [hy, Function.update_self] at hu
    rwa [← Option.some.inj hu]
  · rw [Function.update_of_ne hy] at hu
    exact h y u hu

/-- The remainder of a fill is only saved when it is live. -/
theorem finalizeOrderAfterFill_live (h : b.AllLive) {out : Book × Option MatchEvent}
    (hout : finalizeOrderAfterFill b x o = .ok out) : out.1.AllLive := by
  unfold finalizeOrderAfterFill at hout
  by_cases hzero : o.remaining = 0
  · rw [if_pos hzero] at hout
    obtain ⟨⟨b', removed⟩, hunlink, hout⟩ := bind_eq_ok.1 hout
    cases hout
    exact h.shrinks (unlinkOrder_shrinks hunlink)
  rw [if_neg hzero] at hout
  by_cases hflush : shouldFlushDust o.remaining ∨
      ¬isLimitOrderFillable o.side o.remaining o.price
  · rw [if_pos hflush] at hout
    obtain ⟨⟨b', ev⟩, hpark, hout⟩ := bind_eq_ok.1 hout
    cases hout
    have hterms := parkLimitOrderForClean_terms hpark
    rw [Book.terms_save, Function.update_idem] at hterms
    exact h.shrinks (.of_drop hterms)
  · rw [if_neg hflush] at hout
    cases hout
    obtain ⟨hdust, hfill⟩ := not_or.1 hflush
    apply h.store Book.terms_save
    constructor
    · by_contra hlt
      exact hdust (decide_eq_true ⟨hzero, not_le.1 hlt⟩)
    · exact not_not.1 hfill

theorem parkUnderCap_shrinks {st st' : MatchState} {park : Book → Except ContractError _}
    (hpark : ∀ out, park st.book = .ok out → st.book.Shrinks out.1)
    (h : st.parkUnderCap park = .ok st') : st.book.Shrinks st'.book := by
  unfold MatchState.parkUnderCap at h
  split_ifs at h with hcap
  · obtain ⟨out, hout, h⟩ := bind_eq_ok.1 h
    cases h
    exact hpark out hout
  · cases h
    exact .refl _

theorem applyFill_live {w : WalkParams} {st st' : MatchState} {offer taken : ℕ}
    (hlive : st.book.AllLive) (h : st.applyFill w x o offer taken = .ok st') :
    st'.book.AllLive := by
  obtain ⟨tally, -, h⟩ := bind_eq_ok.1 h
  obtain ⟨payouts, -, h⟩ := bind_eq_ok.1 h
  obtain ⟨escrow, -, h⟩ := bind_eq_ok.1 h
  obtain ⟨remaining, -, h⟩ := bind_eq_ok.1 h
  obtain ⟨⟨b', parked⟩, hfin, h⟩ := bind_eq_ok.1 h
  cases h
  exact finalizeOrderAfterFill_live hlive hfin

theorem matchStep_live {w : WalkParams} {st : MatchState} {out : MatchState × Option WalkEnd}
    (hlive : st.book.AllLive) (h : matchStep w st x o = .ok out) : out.1.book.AllLive := by
  obtain ⟨v, -, h⟩ := bind_eq_ok.1 h
  cases v with
  | wrongSide =>
      cases h
      exact hlive
  | expired =>
      obtain ⟨st', hpark, h⟩ := bind_eq_ok.1 h
      cases h
      exact hlive.shrinks (parkUnderCap_shrinks
        (fun out hout => .of_drop (parkExpiredLimitOrderForClaim_terms hout)) hpark)
  | blacklisted =>
      obtain ⟨st', hpark, h⟩ := bind_eq_ok.1 h
      cases h
      exact hlive.shrinks (parkUnderCap_shrinks
        (fun out hout => .of_drop (parkLimitOrderForClean_terms hout)) hpark)
  | unfillable =>
      obtain ⟨st', hpark, h⟩ := bind_eq_ok.1 h
      cases h
      exact hlive.shrinks (parkUnderCap_shrinks
        (fun out hout => .of_drop (parkLimitOrderForClean_terms hout)) hpark)
  | exhausted =>
      cases h
      exact hlive
  | skip =>
      cases h
      exact hlive
  | worse =>
      cases h
      exact hlive
  | fill offer taken =>
      obtain ⟨st', hfill, h⟩ := bind_eq_ok.1 h
      cases h
      exact applyFill_live hlive hfill

/-- Each turn of a match keeps the book live, so every order that it meets is. -/
theorem matchVisits_live {w : WalkParams} {at₀ at₁ : Option OrderId × MatchState}
    (hlive : at₀.2.book.AllLive) (hrun : ReflTransGen (MatchVisit w) at₀ at₁) :
    at₁.2.book.AllLive := by
  induction hrun with
  | refl => exact hlive
  | tail _ hvisit ih =>
      cases hvisit with
      | pass _ hstep => exact matchStep_live ih hstep

theorem matchSide_live {w : WalkParams} {budget : ℕ} {hint : Option OrderId}
    {out : Book × BookMatchResult} (hlive : b.AllLive)
    (h : matchSide w b budget hint = .ok out) : out.1.AllLive := by
  obtain ⟨cur, st, hrun, hterms⟩ := matchSide_visits h
  have hstart : (MatchState.start b budget).book.AllLive := hlive
  exact Book.AllLive.shrinks (matchVisits_live hstart hrun) (.of_eq hterms)

theorem matchBook_live {side : LimitOrderSide} {now budget cap : ℕ} {hint : Option OrderId}
    {bps : ℕ} {gate : Option TradeBlacklistGate} {pool : Option GreedyPoolRef}
    {out : Book × BookMatchResult} (hlive : b.AllLive)
    (h : matchBook side b now budget cap hint bps gate pool = .ok out) : out.1.AllLive := by
  cases side with
  | bid => exact matchSide_live hlive h
  | ask => exact matchSide_live hlive h

theorem cleanVisits_shrink {now minRemaining : ℕ} {at₀ at₁ : Option OrderId × Book}
    (hrun : ReflTransGen (CleanVisit now minRemaining) at₀ at₁) : at₀.2.Shrinks at₁.2 := by
  induction hrun with
  | refl => exact .refl _
  | tail _ hvisit ih =>
      cases hvisit with
      | keep => exact ih
      | park _ _ hpark => exact ih.trans (.of_drop (parkLimitOrderForClean_terms hpark))

end Books

end Cl8yDex

/-!
## Every message keeps the stored orders live

A batch places what it tests after the maker fee, a reprice tests the remainder at the new price and
a swap saves what a fill left; the messages of the factory and of liquidity leave the book alone. So
the book of every reachable pair is live.
-/

namespace Cl8yDex

open Outcome Relation

section Operations

variable {p : PairStorage} {q : Querier} {env : Env} {sender : Addr} {out : PairStorage × Response}

theorem executeCancelLimitOrder_shrinks {id : OrderId}
    (h : executeCancelLimitOrder p sender id = .ok out) : p.book.Shrinks out.1.book := by
  obtain ⟨o, -, h⟩ := bind_eq_ok.1 h
  obtain ⟨_, -, h⟩ := bind_eq_ok.1 h
  obtain ⟨⟨b, removed⟩, hunlink, h⟩ := bind_eq_ok.1 h
  obtain ⟨b', hescrow, h⟩ := bind_eq_ok.1 h
  cases h
  exact (unlinkOrder_shrinks hunlink).trans (.of_eq (escrowSub_terms hescrow))

theorem executeClaimExpiredLimitOrder_shrinks {id : OrderId}
    (h : executeClaimExpiredLimitOrder p sender id = .ok out) : p.book.Shrinks out.1.book := by
  obtain ⟨row, -, h⟩ := bind_eq_ok.1 h
  obtain ⟨_, -, h⟩ := bind_eq_ok.1 h
  obtain ⟨b, hescrow, h⟩ := bind_eq_ok.1 h
  cases h
  have hclaim : (b.saveClaim id none).terms = b.terms := rfl
  exact .of_eq (hclaim.trans (escrowSub_terms hescrow))

theorem cancelOne_shrinks {st st' : RefundState} {id : OrderId}
    (h : cancelOne sender st id = .ok st') : st.book.Shrinks st'.book := by
  obtain ⟨o, -, h⟩ := bind_eq_ok.1 h
  obtain ⟨_, -, h⟩ := bind_eq_ok.1 h
  obtain ⟨⟨b, removed⟩, hunlink, h⟩ := bind_eq_ok.1 h
  obtain ⟨total, -, h⟩ := bind_eq_ok.1 h
  cases h
  exact unlinkOrder_shrinks hunlink

theorem claimOne_shrinks {st st' : RefundState} {id : OrderId}
    (h : claimOne sender st id = .ok st') : st.book.Shrinks st'.book := by
  obtain ⟨row, -, h⟩ := bind_eq_ok.1 h
  obtain ⟨_, -, h⟩ := bind_eq_ok.1 h
  obtain ⟨total, -, h⟩ := bind_eq_ok.1 h
  cases h
  exact .refl _

/-- Both batches drop what each of their items drops. -/
theorem executeBatchRefund_shrinks {ids : List OrderId} {path : EscrowPath}
    {attributes : Attributes}
    {takeOut : Addr → RefundState → OrderId → Except ContractError RefundState}
    (hone : ∀ st st' id, takeOut sender st id = .ok st' → st.book.Shrinks st'.book)
    (h : executeBatchRefund p sender ids takeOut path attributes = .ok out) :
    p.book.Shrinks out.1.book := by
  obtain ⟨_, -, h⟩ := bind_eq_ok.1 h
  obtain ⟨st, hfold, h⟩ := bind_eq_ok.1 h
  obtain ⟨b, hask, h⟩ := bind_eq_ok.1 h
  obtain ⟨b', hbid, h⟩ := bind_eq_ok.1 h
  cases h
  have htaken : Meets (ids.foldlM (takeOut sender) ⟨p.book, fun _ => 0⟩)
      (fun st => p.book.Shrinks st.book) (fun _ => True) := by
    apply Meets.foldlM
    · intro st id hst
      exact meets_of_ok fun st' hst' => hst.trans (hone st st' id hst')
    · exact .refl _
  apply (htaken.success hfold).trans
  exact .of_eq ((escrowSubPending_terms hbid).trans (escrowSubPending_terms hask))

theorem executeCleanLimitBook_shrinks {side : LimitOrderSide} {maxOrders : ℕ}
    {startHint : Option OrderId} {maxSteps : Option ℕ}
    (h : executeCleanLimitBook p env side maxOrders startHint maxSteps = .ok out) :
    p.book.Shrinks out.1.book := by
  obtain ⟨⟨st, fin⟩, hclean, h⟩ := bind_eq_ok.1 h
  cases h
  obtain ⟨_, -, hclean⟩ := bind_eq_ok.1 hclean
  obtain ⟨_, -, hclean⟩ := bind_eq_ok.1 hclean
  exact cleanVisits_shrink (cleanWalk_visits hclean).1

theorem validateLimitOrderFillability_eq_ok {side : LimitOrderSide} {remaining : ℕ}
    {price : Decimal} {u : Unit}
    (h : (validateLimitOrderFillability side remaining price).mapError
      (fun _ => ContractError.limitOrderUnfillable) = .ok u) :
    isLimitOrderFillable side remaining price = true := by
  unfold validateLimitOrderFillability ensure at h
  split_ifs at h with hfill
  · exact hfill
  · cases h

/-- A reprice keeps the remainder and is tested at the new price. -/
theorem executeUpdateLimitOrderPrice_live {id : OrderId} {price : Decimal}
    {hint : Option OrderId} {steps : ℕ} (hlive : p.book.AllLive)
    (h : executeUpdateLimitOrderPrice p q env sender id price hint steps = .ok out) :
    out.1.book.AllLive := by
  obtain ⟨decimals, -, h⟩ := bind_eq_ok.1 h
  obtain ⟨_, -, h⟩ := bind_eq_ok.1 h
  obtain ⟨o, ho, h⟩ := bind_eq_ok.1 h
  obtain ⟨_, -, h⟩ := bind_eq_ok.1 h
  obtain ⟨_, -, h⟩ := bind_eq_ok.1 h
  obtain ⟨_, hfill, h⟩ := bind_eq_ok.1 h
  obtain ⟨b, hrelink, h⟩ := bind_eq_ok.1 h
  cases h
  have ho := orThrow_eq_ok.1 ho
  apply hlive.store (relinkLimitOrderPrice_terms ho hrelink)
  constructor
  · exact (hlive id _ (Book.terms_of_orders ho)).floor
  · exact validateLimitOrderFillability_eq_ok hfill

theorem placeRung_live {c : BatchParams} {st st' : BatchState} {plan : BatchRungPlan}
    (hlive : st.book.AllLive) (h : placeRung c st plan = .ok st') : st'.book.AllLive := by
  obtain ⟨_, -, h⟩ := bind_eq_ok.1 h
  obtain ⟨⟨makerFee, remaining⟩, hamounts, h⟩ := bind_eq_ok.1 h
  obtain ⟨_, hfill, h⟩ := bind_eq_ok.1 h
  have ht : (c.terms plan.item remaining).Live := by
    constructor
    · obtain ⟨scaled, -, hamounts⟩ := bind_eq_ok.1 hamounts
      obtain ⟨fee, -, hamounts⟩ := bind_eq_ok.1 hamounts
      obtain ⟨_, -, hamounts⟩ := bind_eq_ok.1 hamounts
      obtain ⟨rest, -, hamounts⟩ := bind_eq_ok.1 hamounts
      obtain ⟨_, hmin, hamounts⟩ := bind_eq_ok.1 hamounts
      cases hamounts
      exact ensure_eq_ok.1 hmin
    · exact validateLimitOrderFillability_eq_ok hfill
  dsimp only at h
  rw [insertForBatch_eq] at h
  cases hinsert : insertOrder st.book plan.id (c.terms plan.item remaining) st.threadCursor
      (plan.item.hintAfterOrderId.or st.lastPlacedHint) plan.item.maxAdjustSteps with
  | ok res =>
      rw [hinsert] at h
      obtain ⟨total, -, h⟩ := bind_eq_ok.1 h
      obtain ⟨placed, -, h⟩ := bind_eq_ok.1 h
      obtain ⟨escrow, -, h⟩ := bind_eq_ok.1 h
      cases h
      exact hlive.store (insertOrder_terms hinsert) ht
  | error e =>
      rw [hinsert] at h
      cases e with
      | limitInsertStepsExceeded n =>
          cases h
          exact hlive
      | _ => cases h

theorem placeRungs_live {c : BatchParams} {b : Book} {firstId : OrderId}
    {orders : List LimitOrderPlacementItem} {st : BatchState} (hlive : b.AllLive)
    (h : placeRungs c b firstId orders = .ok st) : st.book.AllLive := by
  obtain ⟨plans, -, h⟩ := bind_eq_ok.1 h
  have hplaced (start : BatchState) (hstart : start.book.AllLive) :
      Meets ((plans.insertionSort (bookOrderLe c.side)).foldlM (placeRung c) start)
        (fun st => st.book.AllLive) (fun _ => True) := by
    apply Meets.foldlM
    · intro st plan hst
      exact meets_of_ok fun st' hst' => placeRung_live hst hst'
    · exact hstart
  exact (hplaced _ hlive).success h

theorem executePlaceLimitOrdersBatch_live {token owner : Addr} {amount : ℕ}
    {side : LimitOrderSide} {orders : List LimitOrderPlacementItem} (hlive : p.book.AllLive)
    (h : executePlaceLimitOrdersBatch p q env token owner amount side orders = .ok out) :
    out.1.book.AllLive := by
  obtain ⟨_, -, h⟩ := bind_eq_ok.1 h
  obtain ⟨decimals, -, h⟩ := bind_eq_ok.1 h
  obtain ⟨fee, -, h⟩ := bind_eq_ok.1 h
  obtain ⟨_, -, h⟩ := bind_eq_ok.1 h
  obtain ⟨⟨b, firstId⟩, hreserve, h⟩ := bind_eq_ok.1 h
  obtain ⟨st, hplaced, h⟩ := bind_eq_ok.1 h
  obtain ⟨b', hescrow, h⟩ := bind_eq_ok.1 h
  obtain ⟨_, -, h⟩ := bind_eq_ok.1 h
  obtain ⟨refund, -, h⟩ := bind_eq_ok.1 h
  cases h
  obtain ⟨_, -, hreserve⟩ := bind_eq_ok.1 hreserve
  obtain ⟨_, -, hreserve⟩ := bind_eq_ok.1 hreserve
  cases hreserve
  have hids : Book.AllLive { p.book with orderNextId := p.book.orderNextId + orders.length } :=
    hlive
  have hlive' := placeRungs_live hids hplaced
  unfold BatchState.bookEscrow at hescrow
  split_ifs at hescrow with hzero
  · cases hescrow
    exact hlive'
  · exact hlive'.shrinks (.of_eq (escrowAdd_terms hescrow))

theorem executePlaceLimitOrderLadder_live {token owner : Addr} {amount : ℕ}
    {ladder : LimitOrderLadderSpec} (hlive : p.book.AllLive)
    (h : executePlaceLimitOrderLadder p q env token owner amount ladder = .ok out) :
    out.1.book.AllLive := by
  obtain ⟨decimals, -, h⟩ := bind_eq_ok.1 h
  obtain ⟨orders, -, h⟩ := bind_eq_ok.1 h
  exact executePlaceLimitOrdersBatch_live hlive h

theorem advanceTxSwapIndex_book : (p.advanceTxSwapIndex env).book = p.book := by
  unfold PairStorage.advanceTxSwapIndex
  split <;> rfl

theorem openTxSwapScope_book : (p.openTxSwapScope env).book = p.book := by
  unfold PairStorage.openTxSwapScope
  split_ifs <;> rfl

theorem executeLegs_live {side : LimitOrderSide} {plan : SwapPlan} {bps : ℕ} {legs : SwapLegs}
    (hlive : p.book.AllLive) (h : executeLegs p q env side plan bps = .ok legs) :
    legs.book.AllLive := by
  obtain ⟨⟨book, bookMatch⟩, hbook, h⟩ := bind_eq_ok.1 h
  obtain ⟨poolInput, -, h⟩ := bind_eq_ok.1 h
  obtain ⟨leg, -, h⟩ := bind_eq_ok.1 h
  obtain ⟨reserves, -, h⟩ := bind_eq_ok.1 h
  cases h
  unfold executeBookLeg at hbook
  split_ifs at hbook with hleg
  · exact matchBook_live hlive hbook
  · cases hbook
    exact hlive

theorem executeSwap_live {token user : Addr} {amount : ℕ} {args : SwapArgs}
    (hlive : p.book.AllLive) (h : executeSwap p q env token user amount args = .ok out) :
    out.1.book.AllLive := by
  obtain ⟨plan, -, h⟩ := bind_eq_ok.1 h
  obtain ⟨p₁, horacle, h⟩ := bind_eq_ok.1 h
  obtain ⟨side, -, h⟩ := bind_eq_ok.1 h
  obtain ⟨receiver, -, h⟩ := bind_eq_ok.1 h
  obtain ⟨⟨cache, bps, deregisters⟩, -, h⟩ := bind_eq_ok.1 h
  obtain ⟨legs, hlegs, h⟩ := bind_eq_ok.1 h
  obtain ⟨s, -, h⟩ := bind_eq_ok.1 h
  cases h
  obtain ⟨o, -, horacle⟩ := bind_eq_ok.1 horacle
  cases horacle
  rw [advanceTxSwapIndex_book]
  refine executeLegs_live ?_ hlegs
  rw [openTxSwapScope_book]
  exact hlive

theorem receiveHandler_live {token user : Addr} {amount : ℕ} {msg : Cw20HookMsg}
    (hlive : p.book.AllLive) (h : receiveHandler p q env token user amount msg = .ok out) :
    out.1.book.AllLive := by
  cases msg with
  | swap args deadline =>
      obtain ⟨_, -, h⟩ := bind_eq_ok.1 h
      exact executeSwap_live hlive h
  | placeLimitOrderBatch side orders => exact executePlaceLimitOrdersBatch_live hlive h
  | placeLimitOrderLadder ladder => exact executePlaceLimitOrderLadder_live hlive h
  | withdrawLiquidity minAssets =>
      have hstored := ((executeWithdrawLiquidity_spec minAssets).success h).stored
      rw [hstored]
      exact hlive

/-- The factory's own messages leave the book alone. -/
theorem governance_live {f : Unit → Except ContractError (PairStorage × Response)}
    (hlive : p.book.AllLive) (hf : ∀ u, Meets (f u) (fun out => out.1.book = p.book) fun _ => True)
    (h : p.assertFactory sender >>= f = .ok out) : out.1.book.AllLive := by
  obtain ⟨u, -, h⟩ := bind_eq_ok.1 h
  rw [(hf u).success h]
  exact hlive

theorem makerGate_passed {f : Unit → Except ContractError (PairStorage × Response)}
    (h : makerGate p q env sender >>= f = .ok out) : f () = .ok out := by
  obtain ⟨_, -, h⟩ := bind_eq_ok.1 h
  exact h

theorem execute_live {msg : ExecuteMsg} (hlive : p.book.AllLive)
    (h : execute p q env sender msg = .ok out) : out.1.book.AllLive := by
  cases msg with
  | receive msg =>
      obtain ⟨_, -, h⟩ := bind_eq_ok.1 h
      obtain ⟨user, -, h⟩ := bind_eq_ok.1 h
      obtain ⟨wallets, -, h⟩ := bind_eq_ok.1 h
      obtain ⟨_, -, h⟩ := bind_eq_ok.1 h
      obtain ⟨_, -, h⟩ := bind_eq_ok.1 h
      exact receiveHandler_live hlive h
  | provideLiquidity assets tolerance receiver deadline =>
      obtain ⟨_, -, h⟩ := bind_eq_ok.1 h
      obtain ⟨_, -, h⟩ := bind_eq_ok.1 h
      obtain ⟨_, -, h⟩ := bind_eq_ok.1 h
      obtain ⟨_, -, h⟩ := bind_eq_ok.1 h
      obtain ⟨d, hprovided⟩ := (executeProvideLiquidity_spec assets tolerance receiver).success h
      rw [hprovided.stored]
      exact hlive
  | swap offerAsset =>
      change directSwap offerAsset = .ok out at h
      unfold directSwap at h
      cases hinfo : offerAsset.info with
      | nativeToken denom =>
          rw [hinfo] at h
          cases h
      | token a =>
          rw [hinfo] at h
          cases h
  | updateFee feeBps =>
      refine governance_live hlive (fun _ => ?_) h
      exact (meets_ensure fun _ => trivial).bind fun _ _ => rfl
  | updateTreasury treasury =>
      refine governance_live hlive (fun _ => ?_) h
      exact (meets_true _).bind fun _ _ => rfl
  | updateHooks hooks =>
      refine governance_live hlive (fun _ => ?_) h
      exact (meets_true _).bind fun _ _ => rfl
  | increaseObservationCardinality n =>
      obtain ⟨oracle, -, h⟩ := bind_eq_ok.1 h
      cases h
      exact hlive
  | setDiscountRegistry registry =>
      refine governance_live hlive (fun _ => ?_) h
      exact (meets_true _).bind fun _ _ => rfl
  | refreshAssetCodeIds =>
      refine governance_live hlive (fun _ => ?_) h
      exact (meets_true _).bind fun _ _ => rfl
  | setPaused paused =>
      refine governance_live hlive (fun _ => ?_) h
      exact rfl
  | sweep token recipient =>
      refine governance_live hlive (fun _ => ?_) h
      refine (meets_true _).bind fun _ _ => (meets_true _).bind fun _ _ => ?_
      exact (meets_true _).bind fun _ _ => (meets_true _).bind fun _ _ => rfl
  | setLpAdmin admin =>
      refine governance_live hlive (fun _ => ?_) h
      exact (meets_true _).bind fun _ _ => rfl
  | cancelLimitOrder id =>
      exact hlive.shrinks (executeCancelLimitOrder_shrinks (makerGate_passed h))
  | cancelLimitOrders ids =>
      exact hlive.shrinks (executeBatchRefund_shrinks (fun _ _ _ hst => cancelOne_shrinks hst)
        (makerGate_passed h))
  | claimExpiredLimitOrder id =>
      exact hlive.shrinks (executeClaimExpiredLimitOrder_shrinks (makerGate_passed h))
  | claimExpiredLimitOrders ids =>
      exact hlive.shrinks (executeBatchRefund_shrinks (fun _ _ _ hst => claimOne_shrinks hst)
        (makerGate_passed h))
  | updateLimitOrderPrice id price hint steps =>
      exact executeUpdateLimitOrderPrice_live hlive (makerGate_passed h)
  | updateLimitOrderConfig maxBatchRungs =>
      refine governance_live hlive (fun _ => ?_) h
      exact (meets_ensure fun _ => trivial).bind fun _ _ => rfl
  | cleanLimitBook side maxOrders startHint maxSteps =>
      obtain ⟨_, -, h⟩ := bind_eq_ok.1 h
      obtain ⟨_, -, h⟩ := bind_eq_ok.1 h
      exact hlive.shrinks (executeCleanLimitBook_shrinks h)
  | updateLimitCleanConfig config =>
      refine governance_live hlive (fun _ => ?_) h
      exact rfl

end Operations

theorem Change.live {p p' : PairStorage} (hc : Change p p') (hlive : p.book.AllLive) :
    p'.book.AllLive := by
  cases hc with
  | call h => exact execute_live hlive h
  | walk h => exact matchBook_live hlive h

theorem Reachable.live {p : PairStorage} (h : Reachable p) : p.book.AllLive := by
  obtain ⟨p₀, hstart, hrun⟩ := h
  induction hrun with
  | refl =>
      rw [hstart.fresh.1]
      intro x t ht
      cases ht
  | tail _ hc ih => exact hc.live ih

end Cl8yDex
