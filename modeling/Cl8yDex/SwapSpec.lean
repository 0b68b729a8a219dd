import Cl8yDex.SwapPlanSpec

/-!
# What a swap does

A finished swap is its two legs and their settlement: the transfers of the response are exactly
what left the offer, the reserves and the escrow. A swap that can be quoted is stopped by its own
gates only.
-/

namespace Cl8yDex

open Outcome

section Frame

variable {p p' : PairStorage} {q : Querier} {env : Env} {side : LimitOrderSide} {plan : SwapPlan}
  {bps : ℕ}

/-- The legs read the book, the reserves and the two assets. -/
theorem executeLegs_congr (hbook : p'.book = p.book) (hreserves : p'.reserves = p.reserves)
    (hinfo : p'.pairInfo = p.pairInfo) :
    executeLegs p' q env side plan bps = executeLegs p q env side plan bps := by
  simp only [executeLegs, executeBookLeg, hbook, hreserves, hinfo]

end Frame

section Messages

variable {ask offer : Addr} {s : Settlement}

theorem sent_makerPayouts (token : Addr) (payouts : List (Addr × ℕ)) :
    totalOf (CosmosMsg.sent token) (makerPayoutTransferMessages payouts offer) =
      (if offer = token then payoutSum payouts else 0) ∧
    totalOf (CosmosMsg.pulled token) (makerPayoutTransferMessages payouts offer) = 0 := by
  induction payouts with
  | nil => simp [makerPayoutTransferMessages, payoutSum]
  | cons r payouts ih =>
      simp only [makerPayoutTransferMessages, List.flatMap_cons, totalOf_append,
        sent_maybeTransfer, pulled_maybeTransfer] at ih ⊢
      rw [ih.1, ih.2]
      split_ifs <;> simp [payoutSum]

theorem sent_feeSettlement (token : Addr) {ds : List HookFeeDeduction}
    (h : ∀ d ∈ ds, d.token = ask) :
    totalOf (CosmosMsg.sent token) (feeSettlementTransferMessages ds) =
      (if ask = token then totalOf HookFeeDeduction.amount ds else 0) ∧
    totalOf (CosmosMsg.pulled token) (feeSettlementTransferMessages ds) = 0 := by
  induction ds with
  | nil => simp [feeSettlementTransferMessages]
  | cons d ds ih =>
      obtain ⟨h1, h2⟩ := ih fun d' hd' => h d' (List.mem_cons_of_mem _ hd')
      have hd := h d (List.mem_cons_self ..)
      simp only [feeSettlementTransferMessages, List.map_cons, totalOf_cons] at h1 h2 ⊢
      rw [h1, h2]
      simp only [CosmosMsg.sent, CosmosMsg.pulled, hd]
      split_ifs <;> simp

variable (offer ask s) in
theorem amounts_of_hooks (token pair sender : Addr) (inputAmount spread : ℕ) (hooks : List Addr) :
    totalOf (CosmosMsg.sent token)
      (hookMessages pair sender offer ask inputAmount s spread hooks) = 0 ∧
    totalOf (CosmosMsg.pulled token)
      (hookMessages pair sender offer ask inputAmount s spread hooks) = 0 := by
  constructor <;>
  · refine totalOf_eq_zero fun m hm => ?_
    obtain ⟨hook, -, rfl⟩ := List.mem_map.1 hm
    rfl

variable (offer) in
/-- The transfers of a swap: the payouts in the offered token, all the rest in the other one. -/
theorem sent_swapTransfers (token receiver treasury : Addr) (payouts : List (Addr × ℕ))
    (h : ∀ d ∈ s.deductions, d.token = ask) :
    totalOf (CosmosMsg.sent token) (swapTransferMessages offer ask receiver treasury payouts s) =
      (if offer = token then payoutSum payouts else 0) +
        (if ask = token then totalOf HookFeeDeduction.amount s.deductions + s.netReturn +
          s.totalCommission else 0) ∧
    totalOf (CosmosMsg.pulled token)
      (swapTransferMessages offer ask receiver treasury payouts s) = 0 := by
  simp only [swapTransferMessages, totalOf_append, sent_maybeTransfer, pulled_maybeTransfer,
    (sent_makerPayouts token payouts).1, (sent_makerPayouts token payouts).2,
    (sent_feeSettlement token h).1, (sent_feeSettlement token h).2]
  refine ⟨?_, trivial⟩
  split_ifs <;> omega

end Messages

section Acts

variable {s s' : LimitOrderSide} {a : Act} {A : AbsBook} {user : Addr}

variable (s' A user) in
/-- What an act of a match, or its entry in the counter, cannot do. -/
theorem Act.of_matches (h : a.Matches s ∨ ∃ n, a = .escrowSub s n) :
    a.Drains ∧ a.AuthorisedBy A user ∧ ¬a.Refunds ∧ a.booked s' = 0 ∧ a.receivedOn s' = 0 ∧
      (s' ≠ s → a.unbooked s' = 0 ∧ a.releasedOn s' = 0) := by
  rcases h with hm | ⟨n, rfl⟩
  · cases a with
    | fill t x paid n =>
        obtain rfl : t = s := hm
        exact ⟨trivial, trivial, id, rfl, rfl, fun hne => ⟨rfl, if_neg (Ne.symm hne)⟩⟩
    | drop x => exact ⟨trivial, trivial, id, rfl, rfl, fun _ => ⟨rfl, rfl⟩⟩
    | park x reason expiresAt => exact ⟨trivial, trivial, id, rfl, rfl, fun _ => ⟨rfl, rfl⟩⟩
    | _ => exact absurd hm id
  · exact ⟨trivial, trivial, id, rfl, rfl, fun hne => ⟨if_neg (Ne.symm hne), rfl⟩⟩

end Acts

section Swap

variable {p : PairStorage} {A : AbsBook} {q : Querier} {env : Env} {offerToken sender : Addr}
  {inputAmount : ℕ} {args : SwapArgs} {bps : ℕ}

/-- The fee that the execution looks up is this one. -/
def TakerFee (p : PairStorage) (q : Querier) (env : Env) (args : SwapArgs) (sender : Addr)
    (bps : ℕ) : Prop :=
  ∀ out, effectiveFeeBpsWithDeregisterMsgs q p.discountCache env.blockTime p.feeConfig.feeBps
    p.discountRegistry (args.trader.getD sender) sender = .ok out → out.2.1 = bps

/-- Without a registry the fee is the configured one. -/
theorem takerFee_of_none (h : p.discountRegistry = none) :
    TakerFee p q env args sender p.feeConfig.feeBps := by
  intro out hout
  rw [h] at hout
  cases hout
  rfl

/-- The parts of a finished swap. -/
structure SwapParts where
  plan : SwapPlan
  side : LimitOrderSide
  legs : SwapLegs
  settlement : Settlement
  receiver : Addr
  deregisters : List CosmosMsg
  acts : List Act
  book : AbsBook

/-- What the pair stored and answered, in terms of the parts. -/
structure Swapped (p : PairStorage) (A : AbsBook) (q : Querier) (env : Env)
    (offerToken sender : Addr) (inputAmount : ℕ) (args : SwapArgs) (bps : ℕ)
    (out : PairStorage × Response) (parts : SwapParts) : Prop where
  positive : inputAmount ≠ 0
  plan : QuotePlan args inputAmount parts.plan
  offer : parts.plan.poolLeg + parts.plan.bookLeg = inputAmount
  side : p.pairInfo.takenSide offerToken = .ok parts.side
  quoted : simulateLegs p q env parts.side parts.plan bps = .ok parts.legs.quoted
  accounts : parts.legs.Accounts p parts.side parts.plan bps
  matched : Matched (parts.plan.walk p q env parts.side bps) A parts.plan.bookLeg parts.acts
    parts.book parts.legs.book parts.legs.bookMatch
  settlement : parts.settlement.Exact q p.hooks (p.pairInfo.escrowToken parts.side) args parts.legs
  oracle : p.oracle.update env.blockTime p.reserves.1 p.reserves.2 = .ok out.1.oracle
  stored : out.1 = { p with
    oracle := out.1.oracle
    discountCache := out.1.discountCache
    txSwapScope := out.1.txSwapScope
    txSwapCounter := out.1.txSwapCounter
    book := parts.legs.book
    reserves := parts.legs.reserves }
  deregisters : ∀ m ∈ parts.deregisters, m.Deregisters
  messages : out.2.messages = swapTransferMessages offerToken (p.pairInfo.escrowToken parts.side)
    parts.receiver p.feeConfig.treasury parts.legs.bookMatch.makerPayouts parts.settlement ++
      hookMessages env.contract sender offerToken (p.pairInfo.escrowToken parts.side) inputAmount
        parts.settlement parts.legs.pool.spreadAmount p.hooks ++ parts.deregisters
  attributes : out.2.attributes = .swap (parts.legs.report parts.settlement sender parts.receiver
    offerToken (p.pairInfo.escrowToken parts.side) inputAmount bps)

/-- A request on a healthy pair that the quote answers. -/
structure Quotable (p : PairStorage) (A : AbsBook) (q : Querier) (env : Env) (offerToken : Addr)
    (inputAmount : ℕ) (args : SwapArgs) (bps : ℕ) : Prop where
  offer : inputAmount ≤ u128Max
  time : env.blockTime ≤ u64Max
  escrow : ∀ s, A.held s ≤ u128Max
  oracle : p.oracle.Sane
  legs : ∃ plan side legs, QuotePlan args inputAmount plan ∧
    p.pairInfo.takenSide offerToken = .ok side ∧ simulateLegs p q env side plan bps = .ok legs ∧
      legs.Settles q p.hooks (p.pairInfo.escrowToken side)

theorem QuotePlan.unique {plan plan' : SwapPlan} (h : QuotePlan args inputAmount plan)
    (h' : QuotePlan args inputAmount plan') : plan' = plan := by
  obtain ⟨mode, hmode, hplan⟩ := h
  obtain ⟨mode', hmode', hplan'⟩ := h'
  obtain rfl := Except.ok.inj (hmode.symm.trans hmode')
  exact Except.ok.inj (hplan'.symm.trans hplan)

theorem QuotedLegs.Settles.hooks_ok {hooks : List Addr} {ask : Addr} {legs : QuotedLegs}
    (h : legs.Settles q hooks ask) : validateStoredHooks hooks = .ok () := by
  obtain ⟨r, ds, net, -, hds, -⟩ := h
  obtain ⟨⟨⟩, hv, -⟩ := bind_eq_ok.1 hds
  exact hv

/-- A swap does what its parts say. It never finds a counter too small, and where the request can
be quoted only a limit of its own stops it. -/
theorem executeSwap_spec (h : Represents p.book A) (hbal : A.Balanced)
    (hfee : TakerFee p q env args sender bps) :
    Meets (executeSwap p q env offerToken sender inputAmount args)
      (fun out => ∃ parts, Swapped p A q env offerToken sender inputAmount args bps out parts)
      (fun e => ¬e.Underflow ∧
        (Quotable p A q env offerToken inputAmount args bps → e.SwapGate)) := by
  unfold executeSwap
  refine Meets.bind (validateSwap_spec.mono (fun _ h => h) fun e he => ⟨he.1, fun hq => ?_⟩) ?_
  · obtain ⟨plan, side, legs, hplan, -, -, hset⟩ := hq.legs
    exact he.2 hset.hooks_ok ⟨plan, hplan⟩
  rintro plan ⟨hplan, hoffer, hpos⟩
  refine Meets.bind (updateOracle_spec.mono (fun _ h => h) fun e he => ⟨he.1, fun hq => ?_⟩) ?_
  · exact absurd (he.2 hq.oracle) (not_lt.2 hq.time)
  rintro _ ⟨o, ho, rfl⟩
  cases hside : p.pairInfo.takenSide offerToken with
  | error e =>
      simp only [error_bind]
      refine ⟨?_, fun hq => ?_⟩
      · unfold PairInfo.takenSide at hside
        split_ifs at hside
        cases hside
        rintro ⟨_, _, ⟨⟩⟩
      · obtain ⟨_, _, _, -, hside', -⟩ := hq.legs
        cases hside.symm.trans hside'
  | ok side =>
  simp only [ok_bind]
  refine ((addrValidateOr_gate args.toAddr sender).mono (fun _ h => h) fun e he =>
    ⟨he.noUnderflow, fun _ => he⟩).bind fun receiver _ => ?_
  cases hfees : effectiveFeeBpsWithDeregisterMsgs q p.discountCache env.blockTime
      p.feeConfig.feeBps p.discountRegistry (args.trader.getD sender) sender with
  | error e =>
      have he := (effectiveFeeBpsWithDeregisterMsgs_spec q p.discountCache _ _ _ _ _).failure hfees
      exact ⟨he.noUnderflow, fun _ => he.gate⟩
  | ok fees =>
  obtain ⟨cache, bps', dereg⟩ := fees
  obtain rfl : bps = bps' := (hfee _ hfees).symm
  have hdereg := (effectiveFeeBpsWithDeregisterMsgs_spec q p.discountCache _ _ _ _ _).success hfees
  rw [ok_bind]
  obtain ⟨n, hscope⟩ := openTxSwapScope_eq { p with oracle := o, discountCache := cache } env
  have hlegs : executeLegs { p with
      oracle := o, discountCache := cache, txSwapScope := some (PairStorage.txSwapScopeOf env),
      txSwapCounter := n } q env side plan bps = executeLegs p q env side plan bps :=
    executeLegs_congr rfl rfl rfl
  simp only [hscope]
  rw [hlegs]
  refine Meets.bind ((executeLegs_spec h hbal).mono (fun _ h => h)
    fun e he => ⟨he.1, fun hq => ?_⟩) ?_
  · obtain ⟨plan', side', legs', hplan', hside', hlegs', -⟩ := hq.legs
    obtain rfl := hplan.unique hplan'
    obtain rfl := Except.ok.inj (hside.symm.trans hside')
    rcases he.2 with hno | hrange
    · exact absurd hlegs' (hno legs')
    · refine absurd ⟨?_, hq.escrow side⟩ hrange
      exact le_trans (by omega) hq.offer
  rintro legs ⟨hquoted, haccounts, acts, A', hmatched⟩
  refine Meets.bind (settleSwap_spec.mono (fun _ h => h) fun e he => ⟨he.1, fun hq => ?_⟩) ?_
  · obtain ⟨plan', side', legs', hplan', hside', hlegs', hset⟩ := hq.legs
    obtain rfl := hplan.unique hplan'
    obtain rfl := Except.ok.inj (hside.symm.trans hside')
    obtain rfl := Except.ok.inj (hquoted.symm.trans hlegs')
    exact he.2.resolve_right (not_not.2 hset)
  intro s hs
  obtain ⟨m, hm⟩ := advanceTxSwapIndex_eq { p with
    oracle := o, discountCache := cache, txSwapScope := some (PairStorage.txSwapScopeOf env),
    txSwapCounter := n, book := legs.book, reserves := legs.reserves } env
  refine ⟨⟨plan, side, legs, s, receiver, dereg, acts, A'⟩, hpos, hplan, hoffer, hside, hquoted,
    haccounts, hmatched, hs, ?_, ?_, hdereg, rfl, rfl⟩
  · rw [hm]
    exact ho
  · rw [hm]

namespace Swapped

variable {out : PairStorage × Response} {parts : SwapParts}

theorem incoming (h : Swapped p A q env offerToken sender inputAmount args bps out parts)
    (hd : p.pairInfo.Distinct) (s : LimitOrderSide) :
    incomingOf p.pairInfo offerToken inputAmount s =
      if s = parts.side.other then inputAmount else 0 := by
  rw [incomingOf, PairInfo.takenSide_eq_ok h.side]
  simp only [PairInfo.escrowToken_inj hd, @eq_comm _ parts.side.other]

/-- The tokens that leave the pair, by side. -/
theorem sent (h : Swapped p A q env offerToken sender inputAmount args bps out parts)
    (hd : p.pairInfo.Distinct) (s : LimitOrderSide) :
    totalOf (CosmosMsg.sent (p.pairInfo.escrowToken s)) out.2.messages =
      (if s = parts.side then parts.legs.pool.grossOutput +
        totalOf (Act.releasedOn parts.side) parts.acts else parts.legs.bookMatch.offerConsumed) ∧
    totalOf (CosmosMsg.pulled (p.pairInfo.escrowToken s)) out.2.messages = 0 := by
  have hs := h.settlement
  have htokens := (collectFeeHookDeductions_spec (q := q)).success hs.collected
  obtain ⟨h1, h2⟩ := sent_swapTransfers offerToken (p.pairInfo.escrowToken s)
    parts.receiver p.feeConfig.treasury parts.legs.bookMatch.makerPayouts htokens
  obtain ⟨h3, h4⟩ := amounts_of_hooks (p.pairInfo.escrowToken parts.side) offerToken
    parts.settlement (p.pairInfo.escrowToken s) env.contract sender
    inputAmount parts.legs.pool.spreadAmount p.hooks
  obtain ⟨h5, h6⟩ := amounts_of_deregisters h.deregisters (p.pairInfo.escrowToken s)
  rw [h.messages]
  simp only [totalOf_append, h1, h2, h3, h4, h5, h6, Nat.add_zero]
  refine ⟨?_, trivial⟩
  obtain ⟨-, htotal⟩ := addOrOverflow_eq_ok.1 hs.total
  obtain ⟨-, hcommission⟩ := addOrOverflow_eq_ok.1 hs.commission
  have hfee := (sumDeductions_spec 0 _).success hs.hookFee
  have hnet := hs.net
  have hpool := h.accounts.split
  have hbook := h.matched.split
  have hside : (parts.plan.walk p q env parts.side bps).side = parts.side := rfl
  rw [hside] at hbook
  rw [PairInfo.takenSide_eq_ok h.side, h.matched.payouts]
  simp only [PairInfo.escrowToken_inj hd]
  by_cases hsame : s = parts.side
  · subst hsame
    rw [if_pos rfl, if_pos rfl, if_neg (LimitOrderSide.other_ne _)]
    omega
  · rw [LimitOrderSide.eq_other_of_ne hsame, if_pos rfl,
      if_neg (Ne.symm (LimitOrderSide.other_ne _)), if_neg (LimitOrderSide.other_ne _),
      Nat.add_zero]

theorem effect (h : Swapped p A q env offerToken sender inputAmount args bps out parts) :
    Effect A p sender parts.acts parts.book out.1 out.2.messages where
  run := h.matched.run
  rep := by
    rw [h.stored]
    exact h.matched.rep
  settled := h.matched.settled
  kind := .draining fun a ha =>
    (Act.of_matches .bid A sender (h.matched.draining a ha)).1
  authorised a ha := (Act.of_matches .bid A sender (h.matched.draining a ha)).2.1
  bounded hb s := by
    have hrun := h.matched.run.escrow (s := s)
    have hzero : totalOf (Act.booked s) parts.acts = 0 := totalOf_eq_zero fun a ha =>
      (Act.of_matches s A sender (h.matched.draining a ha)).2.2.2.1
    have hle := hb s
    omega
  refunds := by
    rintro ⟨a, ha, hr⟩
    exact absurd hr
      (Act.of_matches .bid A sender (h.matched.draining a ha)).2.2.1
  pairInfo := by rw [h.stored]

/-- The counters after a swap: the matched escrow left the taken side. -/
theorem escrow (h : Swapped p A q env offerToken sender inputAmount args bps out parts)
    (s : LimitOrderSide) : parts.book.escrow s +
      (if s = parts.side then totalOf (Act.releasedOn parts.side) parts.acts else 0) =
        A.escrow s := by
  have hrun := h.matched.run.escrow (s := s)
  have hzero : totalOf (Act.booked s) parts.acts = 0 ∧ totalOf (Act.receivedOn s) parts.acts = 0 :=
    ⟨totalOf_eq_zero fun a ha =>
        (Act.of_matches s A sender (h.matched.draining a ha)).2.2.2.1,
      totalOf_eq_zero fun a ha =>
        (Act.of_matches s A sender (h.matched.draining a ha)).2.2.2.2.1⟩
  have hset := h.matched.settled s
  by_cases hs : s = parts.side
  · subst hs
    rw [if_pos rfl]
    omega
  · have hout : totalOf (Act.unbooked s) parts.acts = 0 := totalOf_eq_zero fun a ha =>
      ((Act.of_matches s A sender (h.matched.draining a ha)).2.2.2.2.2 hs).1
    rw [if_neg hs]
    omega

/-- The swap accounts for every unit of both assets. -/
theorem conserves (h : Swapped p A q env offerToken sender inputAmount args bps out parts)
    (hrep : Represents p.book A) (hd : p.pairInfo.Distinct) :
    Conserves p out.1 (incomingOf p.pairInfo offerToken inputAmount) out.2.messages := by
  intro s
  obtain ⟨hsent, hpulled⟩ := h.sent hd s
  have hescrow := h.escrow s
  have hacc := h.accounts
  have hoffer := h.offer
  rw [h.incoming hd, hsent, hpulled]
  simp only [PairStorage.owed, hrep.escrow, h.effect.rep.escrow]
  have hreserves : out.1.reserves = parts.legs.reserves := by rw [h.stored]
  rw [hreserves]
  by_cases hs : s = parts.side
  · subst hs
    have hout := hacc.output
    rw [if_neg (Ne.symm (LimitOrderSide.other_ne _)), if_pos rfl]
    rw [if_pos rfl] at hescrow
    omega
  · obtain rfl := LimitOrderSide.eq_other_of_ne hs
    have hin : outputReserve parts.legs.reserves parts.side.other =
        outputReserve p.reserves parts.side.other + parts.legs.pool.input := hacc.input
    have hsplit := hacc.offer
    rw [if_pos rfl, if_neg hs]
    rw [if_neg hs] at hescrow
    omega

end Swapped

end Swap

end Cl8yDex
