import Cl8yDex.RouterRoutes

/-!
# The settlement of a route

From the call that starts a route to its close: the router keeps its own balances and has no route
in progress, and the context shows each payment once, under slots counted from zero.
-/

namespace Cl8yDex.Router.Entry

open Outcome
open CommunityTax (RouteTransfer RouteTaxContextResponse RouterConfigResponse)

section Refunds

variable {sender token : Addr} {refunds : List RouteTransfer} {hops : List HopRecord} {residue : ℕ}

/-- Refunds to the sender of positive residues, under slots counted from zero. -/
structure Owes (sender : Addr) (refunds : List RouteTransfer) : Prop where
  slots : refunds.map RouteTransfer.slot = List.range refunds.length
  recipients : ∀ r ∈ refunds, r.recipient = sender ∧ 0 < r.amount

theorem Owes.nil (sender : Addr) : Owes sender [] where
  slots := rfl
  recipients r hr := by cases hr

theorem Owes.owe (h : Owes sender refunds) : Owes sender (owe sender refunds token residue) := by
  unfold Entry.owe
  split
  · exact h
  · rename_i hpos
    constructor
    · rw [List.map_append, h.slots, List.length_append, List.length_singleton, List.range_succ]
      rfl
    · intro r hr
      rcases List.mem_append.1 hr with hold | hnew
      · exact h.recipients r hold
      · rw [List.mem_singleton.1 hnew]
        exact ⟨rfl, Nat.pos_of_ne_zero hpos⟩

theorem length_owe : (owe sender refunds token residue).length ≤ refunds.length + 1 := by
  unfold owe
  split
  · omega
  · rw [List.length_append, List.length_singleton]

theorem Owes.foldl (h : Owes sender refunds) : Owes sender (hops.foldl (oweHop sender) refunds) ∧
    (hops.foldl (oweHop sender) refunds).length ≤ refunds.length + hops.length := by
  induction hops generalizing refunds with
  | nil => exact ⟨h, le_rfl⟩
  | cons hop hops ih =>
    have hone : Owes sender (oweHop sender refunds hop) := h.owe
    have hlength : (oweHop sender refunds hop).length ≤ refunds.length + 1 := length_owe
    obtain ⟨hrest, hlengths⟩ := ih hone
    rw [List.foldl_cons, List.length_cons]
    exact ⟨hrest, by omega⟩

end Refunds

section Routes

variable {router inputToken user : Addr} {a : Answers} {s s' : Storage} {amount : ℕ}
  {order : RouteOrder} {send : HopSend} {held : Addr → ℕ} {funded : RouteTaxPreviewResponse}
  {trace : Trace} {w' : World}

/-- A started route is pending, and its close is seen from there. -/
theorem settled_of_start (hsees : a.Sees router held)
    (hcall : execute a s inputToken (.receive user amount order) = .ok (s', .hop send))
    (hfunded : FundedBy a router user send amount funded)
    (harrived : amount ≤ held inputToken)
    (hrun : RouteRun router ⟨s', held⟩ send funded.tax trace w') :
    ∃ state, Started a s user inputToken amount order s' send state ∧
      state.taxContext.gross = amount ∧
      Settled router (fun t => held t - if t = inputToken then amount else 0) ⟨s', held⟩ send []
        state trace w' := by
  obtain ⟨send', state, hr, hstarted⟩ := executeReceive_of_ok hcall
  cases hr
  obtain ⟨funded', hfunds⟩ := hstarted.funds
  have hpreview := hfunds.preview
  rw [hsees.1, hstarted.trader] at hpreview
  obtain rfl := hpreview.unique hfunded
  have hcurrent : s'.swapState = some state := by rw [hstarted.written]
  refine ⟨state, hstarted, hfunds.budget, hrun.settled ?_⟩
  refine hfunds.pending hsees hcurrent hstarted.version fun t => ?_
  rw [hstarted.token]
  change held t = held t - (if t = inputToken then amount else 0) + 0 + _
  by_cases ht : t = inputToken
  · rw [if_pos ht]
    rw [← ht] at harrived
    omega
  · rw [if_neg ht]
    omega

/-- The hops of a route are its operations, one after another. -/
theorem Settled.follows {base : Addr → ℕ} {w : World} {earlier : List RouteTransfer}
    {state : SwapState} (h : Settled router base w send earlier state trace w')
    (hstarted : Started a s user inputToken amount order s' send state) :
    List.Forall₂ (fun op hop => op.Asks hop.asked) order.operations trace.hops := by
  obtain ⟨op, hoperations, hasks⟩ := hstarted.remaining
  obtain ⟨hop, hops, hhops, hasked, hrest⟩ := h.hops
  rw [hoperations, hhops]
  exact .cons (hasked ▸ hasks) hrest

/-- A committed route leaves the router with what it held before the user's tokens arrived and with
no route in progress; each hop divides the gross it was given into what the pair got, the tax and
the residue, and hands on what it was paid. -/
theorem route_conserves (hsees : a.Sees router held)
    (hcall : execute a s inputToken (.receive user amount order) = .ok (s', .hop send))
    (hfunded : FundedBy a router user send amount funded)
    (harrived : amount ≤ held inputToken)
    (hrun : RouteRun router ⟨s', held⟩ send funded.tax trace w')
    (hout : ∀ p ∈ trace.payments, p.destination ≠ router) :
    (∀ t, w'.held t + (if t = inputToken then amount else 0) = held t) ∧
      w'.storage.swapState = none ∧ w'.storage.lastRouteId = s.lastRouteId + 1 ∧
      List.Forall₂ (fun op hop => op.Asks hop.asked) order.operations trace.hops ∧
      Chained inputToken amount trace.hops := by
  obtain ⟨state, hstarted, hgross, hsettled⟩ :=
    settled_of_start hsees hcall hfunded harrived hrun
  refine ⟨fun t => ?_, hsettled.closed, ?_, ?_, ?_⟩
  · rw [hsettled.held hout]
    dsimp only
    by_cases ht : t = inputToken
    · rw [if_pos ht]
      rw [← ht] at harrived
      omega
    · rw [if_neg ht]
      omega
  · rw [hsettled.lastRouteId]
    change s'.lastRouteId = _
    rw [hstarted.written]
  · exact hsettled.follows hstarted
  · rw [← hgross, ← hstarted.token]
    exact hsettled.chained

/-- The context of a committed route shows the refunds of its residues to the sender and then the
output to the recipient, under slots from zero that fit a token's record; the payments are those,
in order. The output meets the user's floor, if it is unwrapped less the fee of the mapper that
unwraps it. -/
theorem route_settles (hsees : a.Sees router held)
    (hcall : execute a s inputToken (.receive user amount order) = .ok (s', .hop send))
    (hfunded : FundedBy a router user send amount funded)
    (harrived : amount ≤ held inputToken)
    (hrun : RouteRun router ⟨s', held⟩ send funded.tax trace w') :
    trace.context.routeId = s.lastRouteId + 1 ∧
      trace.context.fundingVersion = fundingVersion ∧
      trace.context.transfers.map RouteTransfer.slot =
        List.range trace.context.transfers.length ∧
      trace.context.transfers.length ≤ maxSettlementSlots ∧
      List.Forall₂ Pays trace.context.transfers trace.payments ∧
      ∃ last, trace.hops.getLast? = some last ∧
        trace.context.transfers = trace.hops.foldl (oweHop user) [] ++
          [⟨(trace.hops.foldl (oweHop user) []).length, last.asked,
            order.recipient.getD user, last.delivered⟩] ∧
        (∀ r ∈ trace.hops.foldl (oweHop user) [], r.recipient = user ∧ 0 < r.amount) ∧
        ∃ bps, trace.OutputFee ⟨(trace.hops.foldl (oweHop user) []).length, last.asked,
            order.recipient.getD user, last.delivered⟩ (order.unwrapOutput = some true) bps ∧
          ∀ minimum ∈ order.minimumReceive, minimum ≤ afterFee last.delivered bps := by
  obtain ⟨state, hstarted, hgross, hsettled⟩ :=
    settled_of_start hsees hcall hfunded harrived hrun
  obtain ⟨last, hlast, htransfers, bps, hfee, hminimum⟩ := hsettled.transfers
  rw [hstarted.trader, hstarted.recipient] at htransfers hfee
  rw [hstarted.unwraps] at hfee
  obtain ⟨howes, hlength⟩ := @Owes.foldl user [] trace.hops (Owes.nil user)
  have hhops : trace.hops.length ≤ maxHops := by
    rw [← (hsettled.follows hstarted).length_eq]
    exact hstarted.bounded
  refine ⟨?_, hsettled.version, ?_, ?_, hsettled.payments, last, hlast, htransfers,
    howes.recipients, bps, hfee, ?_⟩
  · rw [hsettled.routeId, hstarted.routeId]
  · rw [htransfers, List.map_append, howes.slots, List.length_append, List.length_singleton,
      List.range_succ]
    rfl
  · rw [htransfers, List.length_append, List.length_singleton]
    unfold maxHops at hhops
    unfold maxSettlementSlots
    rw [List.length_nil] at hlength
    omega
  · rw [← hstarted.minimum]
    exact hminimum

end Routes

section Sample

/-- Token 10 taxes a tenth of what it hands to a pair, the other ones are ordinary. -/
def entryToken (t : Addr) : Token where
  routeTaxCapability := if t = 10 then some ⟨1, some 1, 0, 1000⟩ else none
  getConfig := false
  taxMap := false
  taxInfo := false
  contractInfo := some (some "cw20-mintable")
  routeTaxPreview _ gross _ _ :=
    .ok ⟨1, gross, gross * 10 / 11, gross * 10 / 11 / 10, gross * 10 / 11⟩

def entryPair (offer _ask : AssetInfo) : Pair where
  contractAddr := if offer = .token 10 then 5 else 6
  contractInfo := none
  hybridSimulation _ _ _ _ _ _ := .error .overflow
  hybridReverseSimulation _ _ _ _ _ := .error .overflow

/-- The mapper takes 50 basis points to unwrap. -/
def entryAnswers (held : Addr → ℕ) : Answers where
  quote := ⟨1, fun _ => .ok (), entryToken, fun offer ask => .ok (entryPair offer ask)⟩
  now := 0
  balance t _ := .ok (held t)
  blacklistCheck _ _ _ := some false
  wrapMapperConfig _ := .ok ⟨none, some 30, some 50⟩
  factoryGovernance := .ok 9

theorem entryAnswers_sees (held : Addr → ℕ) : (entryAnswers held).Sees 1 held := by
  refine ⟨rfl, fun t amount h => ?_⟩
  cases h
  rfl

def entryOperation (offer ask : Addr) : RouteOperation :=
  .terraSwap (.token offer) (.token ask) none none none

/-- The route of the sample sells token 10 for 20 and 20 for 30, and unwraps what it bought. -/
def entryOrder : RouteOrder where
  version := some 1
  operations := [entryOperation 10 20, entryOperation 20 30]
  maxSpread := ⟨10 ^ 16⟩
  minimumReceive := some 1990
  recipient := none
  deadline := none
  unwrapOutput := some true

/-- What the router holds of tokens 10, 20 and 30; it has 7, 5 and 4 of its own. -/
def heldOf (first second third : ℕ) (t : Addr) : ℕ :=
  if t = 10 then first else if t = 20 then second else if t = 30 then third else 0

/-- The states of the sample route, which is numbered as the router has come to it. -/
def firstState (id : ℕ) : SwapState where
  sender := 3
  taxContext := {
    routeId := id
    fundingVersion := 1
    trader := 3
    pair := 5
    offerToken := 10
    askToken := 20
    gross := 100
    economic := 90
    transfers := []
    originalInputRefund := some ⟨0, 10, 3, 1⟩
    acquiredTokens := [] }
  refunds := [⟨0, 10, 3, 1⟩]
  recipient := 3
  remainingOperations := [entryOperation 20 30]
  minimumReceive := some 1990
  outputToken := 20
  preHopBalance := 5
  unwrapOutput := true
  maxSpread := ⟨10 ^ 16⟩

def secondState (id : ℕ) : SwapState :=
  { firstState id with
    taxContext := { (firstState id).taxContext with
      pair := 6
      offerToken := 20
      askToken := 30
      gross := 50
      economic := 50
      acquiredTokens := [20] }
    remainingOperations := []
    outputToken := 30
    preHopBalance := 4 }

def entryTransfers : List RouteTransfer := [⟨0, 10, 3, 1⟩, ⟨1, 30, 3, 2000⟩]

def lastState (id : ℕ) : SwapState :=
  { secondState id with
    taxContext := { (secondState id).taxContext with
      transfers := entryTransfers
      acquiredTokens := [20, 30] } }

/-- The router while a route of the sample is under way. -/
def entryStorage (id : ℕ) (state : SwapState) : Storage := ⟨2, some 8, id, some state⟩

def firstSend : HopSend := ⟨10, 5, 90, ⟨⟨10 ^ 16⟩, none, 3, none, none⟩⟩

def secondSend : HopSend := ⟨20, 6, 50, ⟨⟨10 ^ 16⟩, none, 3, none, none⟩⟩

def entryPayments : List Payment := [.routeTransfer 10 0 3 1, .unwrap 30 8 2000 3]

def entryTrace : Trace where
  hops := [⟨10, 20, 100, 90, 9, 1, 50⟩, ⟨20, 30, 50, 50, 0, 0, 2000⟩]
  payments := entryPayments
  context := (lastState 4).taxContext
  wrapMapper := some 8
  mapperConfig _ := .ok ⟨none, some 30, some 50⟩

theorem entryCall : execute (entryAnswers (heldOf 107 5 4)) ⟨2, some 8, 3, none⟩ 10
    (.receive 3 100 entryOrder) = .ok (entryStorage 4 (firstState 4), .hop firstSend) := rfl

theorem entryNext : reply (entryAnswers (heldOf 8 55 4)) (entryStorage 4 (firstState 4))
    swapReplyId = .ok (entryStorage 4 (secondState 4), .hop secondSend) := rfl

theorem entryReply : reply (entryAnswers (heldOf 8 5 2004)) (entryStorage 4 (secondState 4))
    swapReplyId = .ok (entryStorage 4 (lastState 4),
      .complete [.routeTransfer 10 0 3 1] (.unwrap 30 8 2000 3)) := rfl

theorem entryFunded : FundedBy (entryAnswers (heldOf 107 5 4)) 1 3 firstSend 100
    ⟨1, 100, 90, 9, 90⟩ := rfl

theorem entryFundedNext : FundedBy (entryAnswers (heldOf 8 55 4)) 1 3 secondSend 50
    ⟨1, 50, 50, 0, 50⟩ := rfl

/-- A pair takes what it is sent, and pays out of the token asked for. -/
theorem entryHop {storage : Storage} {before after : Addr → ℕ} {send : HopSend} {ask tax : ℕ}
    (hdistinct : send.token ≠ ask) (hcovered : send.amount + tax ≤ before send.token)
    (hoffered : after send.token = before send.token - (send.amount + tax))
    (hasked : before ask ≤ after ask)
    (hothers : ∀ t, t ≠ send.token → t ≠ ask → after t = before t) :
    HopRuns ⟨storage, before⟩ ⟨storage, after⟩ send ask tax where
  calls := .refl
  distinct := hdistinct
  covered := hcovered
  offered := hoffered
  asked := hasked
  others := hothers

theorem entryRun : ∃ held, RouteRun 1 ⟨entryStorage 4 (firstState 4), heldOf 107 5 4⟩ firstSend 9
    entryTrace ⟨⟨2, some 8, 4, none⟩, held⟩ := by
  have hfirst : HopRuns ⟨entryStorage 4 (firstState 4), heldOf 107 5 4⟩
      ⟨entryStorage 4 (firstState 4), heldOf 8 55 4⟩ firstSend 20 9 := by
    refine entryHop (by decide) (by decide) (by decide) (by decide) fun t hsent hasked => ?_
    change t ≠ 10 at hsent
    simp [heldOf, hsent, hasked]
  have hsecond : HopRuns ⟨entryStorage 4 (secondState 4), heldOf 8 55 4⟩
      ⟨entryStorage 4 (secondState 4), heldOf 8 5 2004⟩ secondSend 30 0 := by
    refine entryHop (by decide) (by decide) (by decide) (by decide) fun t hsent hasked => ?_
    change t ≠ 20 at hsent
    simp [heldOf, hsent, hasked]
  have hpaid : ∃ held, Paid 1 (heldOf 8 5 2004) entryPayments held :=
    ⟨_, .pay (by decide) (.pay (by decide) (.done _))⟩
  obtain ⟨held, hpaid⟩ := hpaid
  have hlast : RouteRun 1 ⟨entryStorage 4 (secondState 4), heldOf 8 55 4⟩ secondSend 0
      { entryTrace with hops := [⟨20, 30, 50, 50, 0, 0, 2000⟩] } ⟨⟨2, some 8, 4, none⟩, held⟩ :=
    @RouteRun.last 1 _ _ secondSend 0 (secondState 4) (lastState 4)
      (entryAnswers (heldOf 8 5 2004)) (entryAnswers (heldOf 8 5 2004)) _ _ _
      [.routeTransfer 10 0 3 1] (.unwrap 30 8 2000 3) held .none rfl hsecond
      (entryAnswers_sees _) entryReply rfl hpaid .refl rfl
  exact ⟨held, @RouteRun.hop 1 _ _ _ firstSend secondSend 9 (firstState 4)
    (entryAnswers (heldOf 8 55 4)) (entryStorage 4 (secondState 4)) ⟨1, 50, 50, 0, 50⟩
    { entryTrace with hops := [⟨20, 30, 50, 50, 0, 0, 2000⟩] } rfl hfirst (entryAnswers_sees _)
    entryNext entryFundedNext hlast⟩

/-- The first hop of the sample route funds the second one, and the router keeps its own. -/
theorem route_conserves_sample : ∃ w', RouteRun 1
    ⟨entryStorage 4 (firstState 4), heldOf 107 5 4⟩ firstSend 9 entryTrace w' ∧
      w'.held 10 = 7 ∧ w'.held 20 = 5 ∧ w'.held 30 = 4 ∧ Chained 10 100 entryTrace.hops := by
  obtain ⟨held, hrun⟩ := entryRun
  obtain ⟨hheld, -, -, -, hchained⟩ := route_conserves (entryAnswers_sees _) entryCall entryFunded
    (by decide) hrun (by decide)
  have hfirst : held 10 + 100 = 107 := hheld 10
  have hsecond : held 20 + 0 = 5 := hheld 20
  have hthird : held 30 + 0 = 4 := hheld 30
  exact ⟨_, hrun, Nat.add_right_cancel hfirst, hsecond, hthird, hchained⟩

/-- The sample route buys 2000, and its user asked for the 1990 that the mapper leaves. -/
theorem route_settles_sample : entryTrace.context.transfers.map RouteTransfer.slot = [0, 1] ∧
    List.Forall₂ Pays entryTrace.context.transfers entryTrace.payments ∧
      ∃ bps, entryTrace.OutputFee ⟨1, 30, 3, 2000⟩ true bps ∧ 1990 ≤ afterFee 2000 bps := by
  obtain ⟨held, hrun⟩ := entryRun
  obtain ⟨-, -, hslots, -, hpays, last, hlast, -, -, bps, hfee, hminimum⟩ :=
    route_settles (entryAnswers_sees _) entryCall entryFunded (by decide) hrun
  cases hlast
  exact ⟨hslots, hpays, bps, hfee, hminimum 1990 rfl⟩

end Sample

end Cl8yDex.Router.Entry
