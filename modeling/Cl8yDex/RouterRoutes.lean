import Cl8yDex.RouterEntry

/-!
# What a committed route leaves behind

While a hop is in flight the router holds its own balance, the refunds owed so far and the funds of
the hop. Each reply keeps this, and the last one pays all of it out: the router keeps what it had
before the user's tokens arrived.
-/

namespace Cl8yDex.Router.Entry

open Outcome
open CommunityTax (RouteTransfer RouteTaxContextResponse RouterConfigResponse)

section Steps

variable {a : Answers} {s s' : Storage} {state : SwapState} {sender token pair : Addr}
  {gross residue hopOutput : ℕ} {funded : RouteTaxPreviewResponse}

theorem liftStd_eq_ok {α : Type} {x : Except StdError α} {v : α} :
    liftStd x = .ok v ↔ x = .ok v := by
  cases x with
  | ok b => simp [liftStd, Except.mapError]
  | error e => simp [liftStd, Except.mapError]

theorem fund_of_ok (h : fund a sender token pair gross = .ok (funded, residue)) :
    preview (a.quote.token token) pair (some sender) (some a.quote.router) gross .sell =
        .ok funded ∧ gross = funded.economic + funded.tax + residue := by
  obtain ⟨p, hp, h⟩ := bind_eq_ok.1 h
  obtain ⟨spent, hspent, h⟩ := bind_eq_ok.1 h
  obtain ⟨rest, hrest, h⟩ := bind_eq_ok.1 h
  obtain ⟨rfl, rfl⟩ : p = funded ∧ rest = residue := by
    cases h
    exact ⟨rfl, rfl⟩
  obtain ⟨-, rfl⟩ := checkedAdd_eq_some.1 (orThrow_eq_ok.1 hspent)
  obtain ⟨hle, rfl⟩ := checkedSub_eq_some.1 (orThrow_eq_ok.1 hrest)
  exact ⟨liftStd_eq_ok.1 hp, by omega⟩

/-- An operation asks for a token. -/
def RouteOperation.Asks (op : RouteOperation) (t : Addr) : Prop :=
  ∃ offerInfo hybrid greedy minReturn, op = .terraSwap offerInfo (.token t) hybrid greedy minReturn

theorem openHop_of_ok {op : RouteOperation} {hop : Addr × Addr × ℕ} (h : openHop a op = .ok hop) :
    a.balance hop.2.1 a.quote.router = .ok hop.2.2 ∧ op.Asks hop.2.1 := by
  obtain ⟨resolved, hresolved, h⟩ := bind_eq_ok.1 h
  obtain ⟨out, hout, h⟩ := bind_eq_ok.1 h
  obtain ⟨_, _, h⟩ := bind_eq_ok.1 h
  obtain ⟨pre, hpre, h⟩ := bind_eq_ok.1 h
  cases h
  refine ⟨liftStd_eq_ok.1 hpre, ?_⟩
  cases op with
  | nativeSwap offerDenom askDenom => cases hresolved
  | terraSwap offerInfo askInfo hybrid greedy minReturn =>
    obtain ⟨_, _, hresolved⟩ := bind_eq_ok.1 hresolved
    obtain ⟨_, _, hresolved⟩ := bind_eq_ok.1 hresolved
    obtain ⟨pair, _, hresolved⟩ := bind_eq_ok.1 hresolved
    cases hresolved
    cases askInfo with
    | token t =>
      cases hout
      exact ⟨offerInfo, hybrid, greedy, minReturn, rfl⟩
    | nativeToken denom => cases hout

theorem hopOutput_of_ok {balance pre : ℕ} (h : hopOutputFromBalance balance pre = .ok hopOutput) :
    balance = pre + hopOutput ∧ 0 < hopOutput := by
  obtain ⟨output, houtput, h⟩ := bind_eq_ok.1 h
  obtain ⟨_, hpos, h⟩ := bind_eq_ok.1 h
  cases h
  obtain ⟨hle, rfl⟩ := checkedSub_eq_some.1 (orThrow_eq_ok.1 houtput)
  have hne := ensure_eq_ok.1 hpos
  omega

/-- What a hop in flight has been funded with, and what the state says of it. -/
structure Funds (a : Answers) (send : HopSend) (gross : ℕ) (earlier : List RouteTransfer)
    (funded : RouteTaxPreviewResponse) (state : SwapState) : Prop where
  preview : FundedBy a a.quote.router state.sender send gross funded
  amount : send.amount = funded.economic
  budget : state.taxContext.gross = gross
  split : ∃ residue, gross = funded.economic + funded.tax + residue ∧
    state.refunds = owe state.sender earlier send.token residue
  baseline : a.balance state.outputToken a.quote.router = .ok state.preHopBalance

/-- The start of a route. -/
structure Started (a : Answers) (s : Storage) (sender inputToken : Addr) (amount : ℕ)
    (order : RouteOrder) (s' : Storage) (send : HopSend) (state : SwapState) : Prop where
  idle : s.swapState = none
  bounded : order.operations.length ≤ maxHops
  written : s' = { s with lastRouteId := s.lastRouteId + 1, swapState := some state }
  token : send.token = inputToken
  trader : state.sender = sender
  recipient : state.recipient = order.recipient.getD sender
  remaining : ∃ op, order.operations = op :: state.remainingOperations ∧ op.Asks state.outputToken
  minimum : state.minimumReceive = order.minimumReceive
  unwraps : state.unwrapOutput = decide (order.unwrapOutput = some true)
  routeId : state.taxContext.routeId = s.lastRouteId + 1
  version : state.taxContext.fundingVersion = fundingVersion
  funds : ∃ funded, Funds a send amount [] funded state

theorem executeReceive_of_ok {inputToken : Addr} {amount : ℕ} {order : RouteOrder} {r : Response}
    (h : executeReceive a s inputToken sender amount order = .ok (s', r)) :
    ∃ send state, r = .hop send ∧
      Started a s sender inputToken amount order s' send state := by
  obtain ⟨_, _, h⟩ := bind_eq_ok.1 h
  obtain ⟨_, _, h⟩ := bind_eq_ok.1 h
  obtain ⟨_, _, h⟩ := bind_eq_ok.1 h
  unfold executeSwapOperations at h
  split at h
  · cases h
  · rename_i op remaining hoperations
    obtain ⟨_, hlength, h⟩ := bind_eq_ok.1 h
    split at h
    · cases h
    · obtain ⟨_, _, h⟩ := bind_eq_ok.1 h
      obtain ⟨_, hidle, h⟩ := bind_eq_ok.1 h
      obtain ⟨_, _, h⟩ := bind_eq_ok.1 h
      obtain ⟨_, _, h⟩ := bind_eq_ok.1 h
      obtain ⟨_, _, h⟩ := bind_eq_ok.1 h
      obtain ⟨_, _, h⟩ := bind_eq_ok.1 h
      obtain ⟨hop, hhop, h⟩ := bind_eq_ok.1 h
      obtain ⟨⟨funded, residue⟩, hfunds, h⟩ := bind_eq_ok.1 h
      obtain ⟨routeId, hroute, h⟩ := bind_eq_ok.1 h
      obtain ⟨swap, hswap, h⟩ := bind_eq_ok.1 h
      obtain ⟨hpreview, hsplit⟩ := fund_of_ok hfunds
      obtain ⟨_, _, hroute⟩ := bind_eq_ok.1 (liftStd_eq_ok.1 hroute)
      cases hroute
      cases h
      exact ⟨_, _, rfl, {
        idle := Option.isNone_iff_eq_none.1 (ensure_eq_ok.1 hidle)
        bounded := ensure_eq_ok.1 hlength
        written := rfl
        token := rfl
        trader := rfl
        recipient := rfl
        remaining := ⟨_, hoperations, (openHop_of_ok hhop).2⟩
        minimum := rfl
        unwraps := rfl
        routeId := rfl
        version := rfl
        funds := ⟨funded, {
          preview := hpreview
          amount := rfl
          budget := rfl
          split := ⟨residue, hsplit, rfl⟩
          baseline := (openHop_of_ok hhop).1 }⟩ }⟩

/-- The next hop of a route. -/
structure Advanced (a : Answers) (s : Storage) (state : SwapState) (hopOutput : ℕ) (s' : Storage)
    (send : HopSend) (state' : SwapState) : Prop where
  written : s' = { s with swapState := some state' }
  token : send.token = state.outputToken
  trader : state'.sender = state.sender
  recipient : state'.recipient = state.recipient
  remaining : ∃ op, state.remainingOperations = op :: state'.remainingOperations ∧
    op.Asks state'.outputToken
  minimum : state'.minimumReceive = state.minimumReceive
  unwraps : state'.unwrapOutput = state.unwrapOutput
  routeId : state'.taxContext.routeId = state.taxContext.routeId
  version : state'.taxContext.fundingVersion = fundingVersion
  funds : ∃ funded, Funds a send hopOutput state.refunds funded state'

theorem nextHop_of_ok {op : RouteOperation} {remaining : List RouteOperation} {r : Response}
    (hrest : state.remainingOperations = op :: remaining)
    (h : nextHop a s state hopOutput op remaining = .ok (s', r)) :
    ∃ send state', r = .hop send ∧ Advanced a s state hopOutput s' send state' := by
  obtain ⟨hop, hhop, h⟩ := bind_eq_ok.1 h
  obtain ⟨⟨funded, residue⟩, hfunds, h⟩ := bind_eq_ok.1 h
  obtain ⟨hpreview, hsplit⟩ := fund_of_ok hfunds
  dsimp only at h
  split at h
  · cases h
  · obtain ⟨swap, hswap, h⟩ := bind_eq_ok.1 h
    cases h
    exact ⟨_, _, rfl, {
      written := rfl
      token := rfl
      trader := rfl
      recipient := rfl
      remaining := ⟨_, hrest, (openHop_of_ok hhop).2⟩
      minimum := rfl
      unwraps := rfl
      routeId := rfl
      version := rfl
      funds := ⟨funded, {
        preview := hpreview
        amount := rfl
        budget := rfl
        split := ⟨residue, hsplit, rfl⟩
        baseline := (openHop_of_ok hhop).1 }⟩ }⟩

theorem transfer_pays {q : QuoteContext} {r : RouteTransfer} {p : Payment}
    (h : transfer q r = .ok p) : Pays r p := by
  obtain ⟨c, _, h⟩ := bind_eq_ok.1 h
  cases c with
  | none =>
    cases h
    exact .ordinary
  | some c =>
    cases h
    exact .bySlot

theorem transfers_pay {q : QuoteContext} {rs : List RouteTransfer} {ps : List Payment}
    (h : rs.mapM (transfer q) = .ok ps) : List.Forall₂ Pays rs ps := by
  induction rs generalizing ps with
  | nil =>
    cases h
    exact .nil
  | cons r rs ih =>
    rw [List.mapM_cons] at h
    obtain ⟨p, hp, h⟩ := bind_eq_ok.1 h
    obtain ⟨ps', hps, h⟩ := bind_eq_ok.1 h
    cases h
    exact .cons (transfer_pays hp) (ih hps)

/-- What reaches the recipient after the fee of an unwrap. -/
def afterFee (amount bps : ℕ) : ℕ := amount - amount * bps / 10000

/-- The fee on the output of a route: none on a token that is paid as it is, and on an unwrapped one
what the mapper that is paid answers of its fees. -/
inductive OutputFee (wrapMapper : Option Addr)
    (mapperConfig : Addr → Except StdError WrapMapperConfig) (payments : List Payment)
    (output : RouteTransfer) : Bool → ℕ → Prop
  | kept : OutputFee wrapMapper mapperConfig payments output false 0
  | unwrapped {mapper : Addr} {config : WrapMapperConfig} {wrapBps unwrapBps : ℕ}
      (hmapper : wrapMapper = some mapper) (hconfig : mapperConfig mapper = .ok config)
      (hfees : wrapMapperFeePair config = .ok (wrapBps, unwrapBps))
      (hpaid : payments.getLast? =
        some (.unwrap output.token mapper output.amount output.recipient)) :
      OutputFee wrapMapper mapperConfig payments output true unwrapBps

def Trace.OutputFee (trace : Trace) : RouteTransfer → Bool → ℕ → Prop :=
  Entry.OutputFee trace.wrapMapper trace.mapperConfig trace.payments

theorem netAfterFee_of_ok {wrapped bps net : ℕ}
    (h : netAfterWrapMapperUnwrapFee wrapped bps = .ok net) : net = afterFee wrapped bps := by
  obtain ⟨fee, hfee, h⟩ := bind_eq_ok.1 h
  obtain ⟨_, rfl⟩ := checkedSub_eq_some.1 (orThrow_eq_ok.1 h)
  have hratio := orThrow_eq_ok.1 hfee
  unfold checkedMultiplyRatio at hratio
  rw [if_neg (by decide)] at hratio
  split at hratio
  · cases hratio
    rfl
  · cases hratio

/-- What the end of a route delivers, by the fee on its output. -/
theorem deliveredAmount_of_ok {mapper : Option Addr} {delivered : ℕ} {output : Payment}
    {last : RouteTransfer} {refunds : List Payment}
    (hmapper : outputMapper s state = .ok mapper)
    (h : deliveredAmount a mapper last.amount = .ok delivered)
    (houtput : outputPayment a mapper last = .ok output) :
    ∃ bps, OutputFee s.wrapMapper a.wrapMapperConfig (refunds ++ [output]) last
      state.unwrapOutput bps ∧ delivered = afterFee last.amount bps := by
  unfold outputMapper at hmapper
  cases hunwrap : state.unwrapOutput with
  | false =>
    rw [hunwrap] at hmapper
    cases hmapper
    cases h
    exact ⟨0, .kept, by simp [afterFee]⟩
  | true =>
    rw [hunwrap, if_pos rfl] at hmapper
    cases hstored : s.wrapMapper with
    | none =>
      rw [hstored] at hmapper
      cases hmapper
    | some m =>
      rw [hstored] at hmapper
      cases hmapper
      cases houtput
      obtain ⟨config, hconfig, h⟩ := bind_eq_ok.1 h
      obtain ⟨⟨wrapBps, unwrapBps⟩, hfees, h⟩ := bind_eq_ok.1 h
      have hpaid : (refunds ++ [Payment.unwrap last.token m last.amount last.recipient]).getLast? =
          some (.unwrap last.token m last.amount last.recipient) := by simp
      exact ⟨unwrapBps, .unwrapped rfl hconfig hfees hpaid, netAfterFee_of_ok h⟩

/-- The end of a route. -/
structure Finished (a : Answers) (s : Storage) (state : SwapState) (hopOutput : ℕ) (s' : Storage)
    (payments : List Payment) (context : RouteTaxContextResponse) : Prop where
  lastRouteId : s'.lastRouteId = s.lastRouteId
  stored : ∃ settled, s'.swapState = some settled ∧ settled.taxContext = context
  routeId : context.routeId = state.taxContext.routeId
  version : context.fundingVersion = state.taxContext.fundingVersion
  transfers : context.transfers = state.refunds ++
    [⟨state.refunds.length, state.outputToken, state.recipient, hopOutput⟩]
  paid : List.Forall₂ Pays context.transfers payments
  minimum : ∃ bps, OutputFee s.wrapMapper a.wrapMapperConfig payments
      ⟨state.refunds.length, state.outputToken, state.recipient, hopOutput⟩ state.unwrapOutput bps ∧
    ∀ minimum ∈ state.minimumReceive, minimum ≤ afterFee hopOutput bps

theorem finishRoute_of_ok {r : Response} (h : finishRoute a s state hopOutput = .ok (s', r)) :
    ∃ refunds output context, r = .complete refunds output ∧
      Finished a s state hopOutput s' (refunds ++ [output]) context := by
  obtain ⟨mapper, hmapper, h⟩ := bind_eq_ok.1 h
  obtain ⟨delivered, hdelivered, h⟩ := bind_eq_ok.1 h
  obtain ⟨_, hminimum, h⟩ := bind_eq_ok.1 h
  obtain ⟨refunds, hrefunds, h⟩ := bind_eq_ok.1 h
  obtain ⟨output, houtput, h⟩ := bind_eq_ok.1 h
  cases h
  obtain ⟨bps, hfee, rfl⟩ := @deliveredAmount_of_ok a s state mapper delivered output
    ⟨state.refunds.length, state.outputToken, state.recipient, hopOutput⟩ refunds hmapper
    (liftStd_eq_ok.1 hdelivered) houtput
  have hlast : Pays ⟨state.refunds.length, state.outputToken, state.recipient, hopOutput⟩
      output := by
    cases mapper with
    | none => exact transfer_pays (liftStd_eq_ok.1 houtput)
    | some m =>
      cases houtput
      exact .unwrapped m
  exact ⟨refunds, output, _, rfl, {
    lastRouteId := rfl
    stored := ⟨_, rfl, rfl⟩
    routeId := rfl
    version := rfl
    transfers := rfl
    paid := List.rel_append (transfers_pay (liftStd_eq_ok.1 hrefunds)) (.cons hlast .nil)
    minimum := ⟨bps, hfee, ensure_eq_ok.1 hminimum⟩ }⟩

end Steps

section Runs

variable {router : Addr} {base : Addr → ℕ} {w w₁ w' : World} {send : HopSend} {tax : ℕ}
  {state : SwapState} {earlier : List RouteTransfer} {a : Answers} {s s' : Storage}
  {held : Addr → ℕ} {r : Response}

/-- Each hop divides the gross it is given, and hands on what it was paid. -/
def Chained : Addr → ℕ → List HopRecord → Prop
  | _, _, [] => True
  | token, gross, hop :: hops => hop.token = token ∧ hop.gross = gross ∧
      gross = hop.economic + hop.tax + hop.residue ∧ 0 < hop.delivered ∧
      Chained hop.asked hop.delivered hops

/-- The refunds after a hop. -/
def oweHop (sender : Addr) (refunds : List RouteTransfer) (hop : HopRecord) : List RouteTransfer :=
  owe sender refunds hop.token hop.residue

/-- A hop in flight: the router holds its own, the refunds and the funds of the hop. -/
structure Pending (base : Addr → ℕ) (w : World) (send : HopSend) (tax : ℕ)
    (earlier : List RouteTransfer) (state : SwapState) : Prop where
  current : w.storage.swapState = some state
  baseline : state.preHopBalance = w.held state.outputToken
  version : state.taxContext.fundingVersion = fundingVersion
  split : ∃ residue, state.taxContext.gross = send.amount + tax + residue ∧
    state.refunds = owe state.sender earlier send.token residue
  held : ∀ t, w.held t = base t + owedOf t state.refunds +
    if t = send.token then send.amount + tax else 0

theorem owedOf_owe (t : Addr) (sender : Addr) (refunds : List RouteTransfer) (token : Addr)
    (residue : ℕ) : owedOf t (owe sender refunds token residue) =
      owedOf t refunds + if token = t then residue else 0 := by
  unfold owe
  by_cases hzero : residue = 0
  · rw [if_pos hzero, hzero, ite_self, Nat.add_zero]
  · rw [if_neg hzero, owedOf_append]
    rfl

theorem reply_of_ok (hstate : s.swapState = some state) (hsees : a.Sees router held)
    (h : reply a s swapReplyId = .ok (s', r)) :
    ∃ hopOutput, held state.outputToken = state.preHopBalance + hopOutput ∧ 0 < hopOutput ∧
      (state.remainingOperations = [] ∧ finishRoute a s state.acquire hopOutput = .ok (s', r) ∨
        ∃ op remaining, state.remainingOperations = op :: remaining ∧
          nextHop a s state.acquire hopOutput op remaining = .ok (s', r)) := by
  unfold reply at h
  rw [if_pos rfl] at h
  obtain ⟨found, hfound, h⟩ := bind_eq_ok.1 h
  obtain rfl : state = found := by
    rw [hstate] at hfound
    exact Option.some.inj (orThrow_eq_ok.1 hfound)
  obtain ⟨balance, hbalance, h⟩ := bind_eq_ok.1 h
  obtain ⟨hopOutput, hhop, h⟩ := bind_eq_ok.1 h
  obtain ⟨hsum, hpos⟩ := hopOutput_of_ok hhop
  have hheld := hsees.2 _ _ (hsees.1 ▸ liftStd_eq_ok.1 hbalance)
  refine ⟨hopOutput, by omega, hpos, ?_⟩
  split at h
  · rename_i hnil
    exact .inl ⟨hnil, h⟩
  · rename_i op remaining hcons
    exact .inr ⟨op, remaining, hcons, h⟩

/-- After a hop the router holds its own, the refunds and what the pair paid. -/
theorem Pending.arrive (h : Pending base w send tax earlier state)
    (hhop : HopRuns w w₁ send state.outputToken tax) (t : Addr) :
    w₁.held t = base t + owedOf t state.refunds +
      if t = state.outputToken then w₁.held state.outputToken - w.held state.outputToken
        else 0 := by
  have hbefore := h.held t
  by_cases hsent : t = send.token
  · have hasked : t ≠ state.outputToken := hsent ▸ hhop.distinct
    have hafter := hhop.offered
    rw [← hsent] at hafter
    rw [if_pos hsent] at hbefore
    rw [if_neg hasked]
    omega
  · rw [if_neg hsent] at hbefore
    by_cases hasked : t = state.outputToken
    · have hgrew := hhop.asked
      rw [if_pos hasked, ← hasked]
      rw [← hasked] at hgrew
      omega
    · rw [if_neg hasked, hhop.others t hsent hasked]
      exact hbefore

theorem Pending.kept (h : Pending base w send tax earlier state)
    (hhop : HopRuns w w₁ send state.outputToken tax) :
    w₁.storage.swapState = some state ∧ w₁.storage.lastRouteId = w.storage.lastRouteId := by
  have hcalls := nested_run hhop.calls (by rw [h.current]; rfl)
  rw [hcalls]
  exact ⟨h.current, rfl⟩

/-- The record of a hop holds its share of the refunds. -/
theorem Pending.refunds (h : Pending base w send tax earlier state) (w₁ : World) :
    state.refunds = oweHop state.sender earlier (hopRecord state send tax w w₁) ∧
      (hopRecord state send tax w w₁).gross = (hopRecord state send tax w w₁).economic +
        (hopRecord state send tax w w₁).tax + (hopRecord state send tax w w₁).residue := by
  obtain ⟨residue, hgross, hrefunds⟩ := h.split
  have hresidue : state.taxContext.gross - (send.amount + tax) = residue := by omega
  constructor
  · rw [hrefunds, oweHop]
    change _ = owe state.sender earlier send.token (state.taxContext.gross - (send.amount + tax))
    rw [hresidue]
  · change state.taxContext.gross =
      send.amount + tax + (state.taxContext.gross - (send.amount + tax))
    omega

theorem FundedBy.unique {sender : Addr} {gross : ℕ} {funded funded' : RouteTaxPreviewResponse}
    (h : FundedBy a router sender send gross funded)
    (h' : FundedBy a router sender send gross funded') : funded = funded' :=
  Except.ok.inj (Eq.trans (Eq.symm h) h')

/-- A hop is pending once it is funded from what the router holds beyond its own and the refunds. -/
theorem Funds.pending {gross : ℕ} {funded : RouteTaxPreviewResponse}
    (hfunds : Funds a send gross earlier funded state) (hsees : a.Sees router held)
    (hcurrent : s.swapState = some state)
    (hversion : state.taxContext.fundingVersion = fundingVersion)
    (hheld : ∀ t, held t = base t + owedOf t earlier + if t = send.token then gross else 0) :
    Pending base ⟨s, held⟩ send funded.tax earlier state := by
  obtain ⟨residue, hgross, hrefunds⟩ := hfunds.split
  exact {
    current := hcurrent
    baseline := hsees.2 _ _ (hsees.1 ▸ hfunds.baseline)
    version := hversion
    split := ⟨residue, by rw [hfunds.budget, hfunds.amount, hgross], hrefunds⟩
    held := by
      intro t
      have ht := hheld t
      rw [hrefunds, owedOf_owe, hfunds.amount]
      change held t = _
      by_cases hsent : t = send.token
      · rw [if_pos hsent] at ht
        rw [if_pos hsent, if_pos hsent.symm]
        omega
      · rw [if_neg hsent] at ht
        rw [if_neg hsent, if_neg (Ne.symm hsent)]
        omega }

/-- The next hop is pending once it is sent. -/
theorem Pending.advance (h : Pending base w send tax earlier state)
    (hhop : HopRuns w w₁ send state.outputToken tax) (hsees : a.Sees router w₁.held)
    {next : HopSend} {state' : SwapState} {funded : RouteTaxPreviewResponse}
    (hadvanced : Advanced a s state.acquire
      (w₁.held state.outputToken - w.held state.outputToken) s' next state')
    (hfunded : FundedBy a router state.sender next
      (w₁.held state.outputToken - w.held state.outputToken) funded) :
    Pending base ⟨s', w₁.held⟩ next funded.tax state.refunds state' := by
  obtain ⟨funded', hfunds⟩ := hadvanced.funds
  have hsender : state'.sender = state.sender := hadvanced.trader
  have htoken : next.token = state.outputToken := hadvanced.token
  have hpreview := hfunds.preview
  rw [hsees.1, hsender] at hpreview
  obtain rfl := hpreview.unique hfunded
  have hcurrent : s'.swapState = some state' := by rw [hadvanced.written]
  refine hfunds.pending hsees hcurrent hadvanced.version fun t => ?_
  rw [htoken]
  exact h.arrive hhop t

/-- The close of a route, seen from a hop in flight. -/
structure Settled (router : Addr) (base : Addr → ℕ) (w : World) (send : HopSend)
    (earlier : List RouteTransfer) (state : SwapState) (trace : Trace) (w' : World) : Prop where
  held : (∀ p ∈ trace.payments, p.destination ≠ router) → w'.held = base
  closed : w'.storage.swapState = none
  lastRouteId : w'.storage.lastRouteId = w.storage.lastRouteId
  hops : ∃ hop hops, trace.hops = hop :: hops ∧ hop.asked = state.outputToken ∧
    List.Forall₂ (fun op hop => op.Asks hop.asked) state.remainingOperations hops
  chained : Chained send.token state.taxContext.gross trace.hops
  routeId : trace.context.routeId = state.taxContext.routeId
  version : trace.context.fundingVersion = fundingVersion
  payments : List.Forall₂ Pays trace.context.transfers trace.payments
  transfers : ∃ last, trace.hops.getLast? = some last ∧
    trace.context.transfers = trace.hops.foldl (oweHop state.sender) earlier ++
      [⟨(trace.hops.foldl (oweHop state.sender) earlier).length, last.asked, state.recipient,
        last.delivered⟩] ∧
    ∃ bps, trace.OutputFee ⟨(trace.hops.foldl (oweHop state.sender) earlier).length, last.asked,
        state.recipient, last.delivered⟩ state.unwrapOutput bps ∧
      ∀ minimum ∈ state.minimumReceive, minimum ≤ afterFee last.delivered bps

/-- The reply to a hop in flight goes on with what the pair paid. -/
theorem Pending.replied (h : Pending base w send tax earlier state)
    (hhop : HopRuns w w₁ send state.outputToken tax) (hsees : a.Sees router w₁.held)
    (hreply : reply a w₁.storage swapReplyId = .ok (s', r)) :
    0 < w₁.held state.outputToken - w.held state.outputToken ∧
      (state.remainingOperations = [] ∧ finishRoute a w₁.storage state.acquire
        (w₁.held state.outputToken - w.held state.outputToken) = .ok (s', r) ∨
      ∃ op remaining, state.remainingOperations = op :: remaining ∧
        nextHop a w₁.storage state.acquire
          (w₁.held state.outputToken - w.held state.outputToken) op remaining = .ok (s', r)) := by
  obtain ⟨hopOutput, hsum, hpos, hend⟩ := reply_of_ok (h.kept hhop).1 hsees hreply
  obtain rfl : hopOutput = w₁.held state.outputToken - w.held state.outputToken := by
    have hbase := h.baseline
    omega
  exact ⟨hpos, hend⟩

theorem Pending.finished {refunds : List Payment} {output : Payment}
    (h : Pending base w send tax earlier state)
    (hhop : HopRuns w w₁ send state.outputToken tax) (hsees : a.Sees router w₁.held)
    (hreply : reply a w₁.storage swapReplyId = .ok (s', .complete refunds output)) :
    state.remainingOperations = [] ∧ ∃ context, Finished a w₁.storage state.acquire
      (w₁.held state.outputToken - w.held state.outputToken) s' (refunds ++ [output]) context := by
  obtain ⟨_, ⟨hnil, hfinish⟩ | ⟨op, remaining, hcons, hnext⟩⟩ := h.replied hhop hsees hreply
  · obtain ⟨refunds', output', context, hr, hfinished⟩ := finishRoute_of_ok hfinish
    cases hr
    exact ⟨hnil, context, hfinished⟩
  · have hops : state.acquire.remainingOperations = op :: remaining := hcons
    obtain ⟨send', state', hr, _⟩ := nextHop_of_ok hops hnext
    cases hr

theorem Pending.advanced {next : HopSend} (h : Pending base w send tax earlier state)
    (hhop : HopRuns w w₁ send state.outputToken tax) (hsees : a.Sees router w₁.held)
    (hreply : reply a w₁.storage swapReplyId = .ok (s', .hop next)) :
    ∃ state', Advanced a w₁.storage state.acquire
      (w₁.held state.outputToken - w.held state.outputToken) s' next state' := by
  obtain ⟨_, ⟨_, hfinish⟩ | ⟨op, remaining, hcons, hnext⟩⟩ := h.replied hhop hsees hreply
  · obtain ⟨refunds, output, context, hr, _⟩ := finishRoute_of_ok hfinish
    cases hr
  · have hops : state.acquire.remainingOperations = op :: remaining := hcons
    obtain ⟨send', state', hr, hadvanced⟩ := nextHop_of_ok hops hnext
    cases hr
    exact ⟨state', hadvanced⟩

/-- What a finished route pays is all that the router does not hold of its own. -/
theorem Pending.paid {payments : List Payment} {context : RouteTaxContextResponse}
    (h : Pending base w send tax earlier state)
    (hhop : HopRuns w w₁ send state.outputToken tax)
    (hfinished : Finished a w₁.storage state.acquire
      (w₁.held state.outputToken - w.held state.outputToken) s' payments context)
    (hpaid : Paid router w₁.held payments held)
    (hout : ∀ p ∈ payments, p.destination ≠ router) : held = base := by
  funext t
  have hpays := hpaid.balance hfinished.paid hout t
  have harrive := h.arrive hhop t
  rw [hfinished.transfers, owedOf_append] at hpays
  change w₁.held t = held t + (owedOf t state.refunds +
    ((if state.outputToken = t then
      w₁.held state.outputToken - w.held state.outputToken else 0) + 0)) at hpays
  by_cases ht : t = state.outputToken
  · rw [if_pos ht] at harrive
    rw [if_pos ht.symm] at hpays
    omega
  · rw [if_neg ht] at harrive
    rw [if_neg (Ne.symm ht)] at hpays
    omega

/-- Once the payments of a route are made, its last reply leaves no route in progress. -/
theorem closed_of_ok {settled : SwapState} {s₂ s₃ s₄ : Storage} {a' : Answers}
    (hsettled : s₂.swapState = some settled) (hcalls : Relation.ReflTransGen Nested s₂ s₃)
    (hclose : reply a' s₃ settlementReplyId = .ok (s₄, r)) :
    s₄.swapState = none ∧ s₄.lastRouteId = s₂.lastRouteId := by
  have hnested := nested_run hcalls (by rw [hsettled]; rfl)
  unfold reply at hclose
  rw [if_neg (by decide), if_pos rfl] at hclose
  cases hclose
  rw [hnested]
  exact ⟨rfl, rfl⟩

/-- A hop before a route that settles. -/
theorem Settled.cons {trace : Trace} {next : HopSend} {state' : SwapState}
    (h : Pending base w send tax earlier state)
    (hhop : HopRuns w w₁ send state.outputToken tax)
    (hpos : 0 < w₁.held state.outputToken - w.held state.outputToken)
    (hadvanced : Advanced a w₁.storage state.acquire
      (w₁.held state.outputToken - w.held state.outputToken) s' next state')
    (hlater : Settled router base ⟨s', w₁.held⟩ next state.refunds state' trace w') :
    Settled router base w send earlier state
      { trace with hops := hopRecord state send tax w w₁ :: trace.hops } w' := by
  obtain ⟨hrefunds, hgross⟩ := h.refunds w₁
  obtain ⟨_, hfunds⟩ := hadvanced.funds
  obtain ⟨op, hremaining, hasks⟩ := hadvanced.remaining
  have hcons : state.remainingOperations = op :: state'.remainingOperations := hremaining
  have hsender : state'.sender = state.sender := hadvanced.trader
  exact {
    held := hlater.held
    closed := hlater.closed
    lastRouteId := by
      rw [hlater.lastRouteId]
      change s'.lastRouteId = _
      rw [hadvanced.written]
      exact (h.kept hhop).2
    hops := by
      obtain ⟨hop, hops, hhops, hasked, hrest⟩ := hlater.hops
      refine ⟨_, _, rfl, rfl, ?_⟩
      rw [hcons, hhops]
      exact .cons (hasked ▸ hasks) hrest
    chained := by
      have hchained := hlater.chained
      rw [hfunds.budget, hadvanced.token] at hchained
      exact ⟨rfl, rfl, hgross, hpos, hchained⟩
    routeId := hlater.routeId.trans hadvanced.routeId
    version := hlater.version
    payments := hlater.payments
    transfers := by
      obtain ⟨last, hlast, htransfers, hminimum⟩ := hlater.transfers
      have hfold : (hopRecord state send tax w w₁ :: trace.hops).foldl
          (oweHop state.sender) earlier =
            trace.hops.foldl (oweHop state.sender) state.refunds := by
        rw [List.foldl_cons, ← hrefunds]
      refine ⟨last, ?_, ?_, ?_⟩
      · change (_ :: trace.hops).getLast? = _
        rw [List.getLast?_cons, hlast]
        rfl
      · dsimp only
        rw [hfold, htransfers, hsender, hadvanced.recipient]
        rfl
      · rw [hadvanced.unwraps, hadvanced.minimum, hsender, hadvanced.recipient] at hminimum
        dsimp only
        rw [hfold]
        exact hminimum }

theorem RouteRun.settled {trace : Trace} (hrun : RouteRun router w send tax trace w')
    (h : Pending base w send tax earlier state) :
    Settled router base w send earlier state trace w' := by
  induction hrun generalizing earlier state with
  | @last w w₁ send tax current state₂ a a' s₂ s₃ s₄ refunds output held r hstate hhop hsees hreply
      hsettled hpaid hcalls hclose =>
    obtain rfl : state = current := by
      rw [h.current] at hstate
      exact Option.some.inj hstate
    obtain ⟨hpos, -⟩ := h.replied hhop hsees hreply
    obtain ⟨hnil, context, hfinished⟩ := h.finished hhop hsees hreply
    obtain ⟨settled, hstored, hcontext⟩ := hfinished.stored
    obtain rfl : state₂ = settled := by
      rw [hsettled] at hstored
      exact Option.some.inj hstored
    subst hcontext
    obtain ⟨hrefunds, hgross⟩ := h.refunds w₁
    obtain ⟨hnone, hroute⟩ := closed_of_ok hsettled hcalls hclose
    exact {
      held := h.paid hhop hfinished hpaid
      closed := hnone
      lastRouteId := hroute.trans (hfinished.lastRouteId.trans (h.kept hhop).2)
      hops := by
        rw [hnil]
        exact ⟨_, _, rfl, rfl, .nil⟩
      chained := ⟨rfl, rfl, hgross, hpos, trivial⟩
      routeId := hfinished.routeId
      version := hfinished.version.trans h.version
      payments := hfinished.paid
      transfers := by
        refine ⟨hopRecord state send tax w w₁, rfl, ?_, ?_⟩
        · rw [hfinished.transfers]
          change _ = oweHop state.sender earlier (hopRecord state send tax w w₁) ++
            [⟨(oweHop state.sender earlier (hopRecord state send tax w w₁)).length, _, _, _⟩]
          rw [← hrefunds]
          rfl
        · rw [List.foldl_cons, List.foldl_nil, ← hrefunds]
          exact hfinished.minimum }
  | @hop w w₁ w' send next tax current a s₂ funded trace hstate hhop hsees hreply hfunded _ ih =>
    obtain rfl : state = current := by
      rw [h.current] at hstate
      exact Option.some.inj hstate
    obtain ⟨hpos, -⟩ := h.replied hhop hsees hreply
    obtain ⟨state', hadvanced⟩ := h.advanced hhop hsees hreply
    have hlater := ih (h.advance hhop hsees hadvanced hfunded)
    exact .cons h hhop hpos hadvanced hlater

end Runs

end Cl8yDex.Router.Entry
