import Cl8yDex.PairEmissions

/-!
# The rows of one emission

Each action that a pair writes is read back as the row it stands for, and nothing else that a pair
writes is read as a row of that kind.
-/

namespace Cl8yDex.WasmEvents

section Fields

variable {seg seg' : Segment} {a : Attribute} {key : String}

@[simp] theorem get_nil : Segment.get [] key = none := rfl

theorem get_append :
    Segment.get (seg ++ seg') key = (Segment.get seg' key).or (Segment.get seg key) := by
  unfold Segment.get
  rw [List.reverse_append, List.find?_append]
  cases seg'.reverse.find? fun a => a.key = key <;> rfl

theorem get_cons : Segment.get (a :: seg) key =
    (Segment.get seg key).or (if a.key = key then some a.value else none) := by
  have h := @get_append [a] seg key
  rw [List.singleton_append] at h
  rw [h]
  refine congrArg _ ?_
  by_cases hkey : a.key = key
  · simp [Segment.get, hkey]
  · simp [Segment.get, hkey]

/-- Fields under other keys. -/
def Lacks (seg : Segment) (key : String) : Prop := ∀ a ∈ seg, a.key ≠ key

theorem Lacks.get (h : Lacks seg key) : Segment.get seg key = none := by
  unfold Segment.get
  rw [List.find?_eq_none.2]
  · rfl
  · intro a ha
    simpa using h a (List.mem_reverse.1 ha)

end Fields

section Actions

variable (text : Addr → String)

/-- What a swap says of its book leg. -/
def bookFields (report : SwapReport) (bookLeg : Bool) : Segment :=
  if bookLeg then
    [⟨"limit_book_offer_consumed", toString report.limitBookOfferConsumed⟩,
      ⟨"book_commission_amount", toString report.bookCommissionAmount⟩] ++
    (if 0 < report.expiredParks then
      [⟨"expired_parks_used", toString report.expiredParks⟩] else []) ++
    (if 0 < report.expiredParksSkipped then [⟨"expired_parks_capped", "true"⟩,
      ⟨"expired_parks_skipped", toString report.expiredParksSkipped⟩] else []) ++
    (if report.scanStepsCapped then [⟨"scan_steps_capped", "true"⟩] else []) ++
    report.greedyStop.toList.map fun stop => ⟨"greedy_stop", stop.asAttr⟩
  else []

/-- The keys that a book leg may write. -/
def bookKeys : List String :=
  ["limit_book_offer_consumed", "book_commission_amount", "expired_parks_used",
    "expired_parks_capped", "expired_parks_skipped", "scan_steps_capped", "greedy_stop"]

theorem bookFields_keys (report : SwapReport) (bookLeg : Bool) :
    ∀ a ∈ bookFields report bookLeg, a.key ∈ bookKeys := by
  unfold bookFields
  cases bookLeg with
  | false => simp
  | true =>
    cases report.greedyStop with
    | none => split_ifs <;> simp [bookKeys]
    | some stop => split_ifs <;> simp [bookKeys]

theorem lacks_bookFields {key : String} (h : key ∉ bookKeys) (report : SwapReport)
    (bookLeg : Bool) : Lacks (bookFields report bookLeg) key := by
  intro a ha heq
  exact h (heq ▸ bookFields_keys report bookLeg a ha)

/-- What a swap says of itself whether it used the book or not. -/
def ownFields (report : SwapReport) : Segment :=
  [⟨"sender", text report.sender⟩, ⟨"receiver", text report.receiver⟩,
    ⟨"offer_asset", text report.offerToken⟩, ⟨"ask_asset", text report.askToken⟩,
    ⟨"offer_amount", toString report.offerAmount⟩,
    ⟨"return_amount", toString report.returnAmount⟩,
    ⟨"net_return_amount", toString report.netReturnAmount⟩,
    ⟨"hook_fee_amount", toString report.hookFeeAmount⟩,
    ⟨"pool_return_amount", toString report.poolReturnAmount⟩,
    ⟨"book_return_amount", toString report.bookReturnAmount⟩,
    ⟨"spread_amount", toString report.spreadAmount⟩,
    ⟨"commission_amount", toString report.commissionAmount⟩,
    ⟨"effective_fee_bps", toString report.effectiveFeeBps⟩]

theorem swapFields_eq (report : SwapReport) (bookLeg : Bool) :
    swapFields text report bookLeg = ownFields text report ++ bookFields report bookLeg := rfl

/-- The value of a field that the book leg does not write. -/
theorem get_swapFields {key : String} (h : key ∉ bookKeys) (report : SwapReport) :
    Segment.get (swapFields text report true) key =
      Segment.get (swapFields text report false) key := by
  rw [swapFields_eq, swapFields_eq, get_append, get_append, (lacks_bookFields h report true).get,
    (lacks_bookFields h report false).get]

theorem get_bookInput (report : SwapReport) (bookLeg : Bool) :
    Segment.get (swapFields text report bookLeg) "limit_book_offer_consumed" =
      if bookLeg then some (toString report.limitBookOfferConsumed) else none := by
  cases bookLeg with
  | false => simp [swapFields, get_cons]
  | true =>
    unfold swapFields
    cases report.greedyStop with
    | none => split_ifs <;> simp [get_cons]
    | some stop => split_ifs <;> simp [get_cons]

theorem parseSwapAmounts_swapFields {report : SwapReport} {bookLeg : Bool} {contract : String}
    {index : ℕ} (h : (PairEmission.swap report bookLeg).Bounded) :
    parseSwapAmounts (swapFields text report bookLeg) contract (text report.sender) index =
      (PairEmission.swap report bookLeg).swapRow text contract index := by
  obtain ⟨⟨hoffer, hreturn, hspread, hcommission⟩, hpool, hbook, hfee, hconsumed⟩ := h
  have hbps : report.effectiveFeeBps < 2 ^ 31 := lt_of_le_of_lt hfee (by decide)
  unfold parseSwapAmounts PairEmission.swapRow
  cases bookLeg with
  | false =>
    simp [-Nat.toString_eq_repr, swapFields, get_cons, requiredAmount_toString hoffer,
      requiredAmount_toString hreturn,
      optionalAmount_toString hspread, optionalAmount_toString hcommission,
      optionalAmount_toString hpool, optionalAmount_toString hbook,
      optionalInteger_toString hbps hfee, optionalAmount_none]
  | true =>
    rw [get_bookInput, if_pos rfl, optionalAmount_toString (hconsumed rfl)]
    simp (disch := decide) only [get_swapFields]
    simp [-Nat.toString_eq_repr, swapFields, get_cons, requiredAmount_toString hoffer,
      requiredAmount_toString hreturn,
      optionalAmount_toString hspread, optionalAmount_toString hcommission,
      optionalAmount_toString hpool, optionalAmount_toString hbook,
      optionalInteger_toString hbps hfee, optionalAmount_none]

/-- The row of a fill of the book. -/
theorem parseFill_bookActionText {event : BookEvent} {contract : String}
    (h : (PairEmission.book event).Bounded)
    (hname : (bookActionText text event).name = "limit_order_fill") :
    (parseLimitOrderFillSegment contract (bookActionText text event).fields).toList =
      (PairEmission.book event).fillRows text contract := by
  obtain ⟨event, stamp⟩ := event
  cases event with
  | limitOrderExpiredParked orderId maker side remaining reason =>
    exact absurd hname (by simp [bookActionText])
  | limitOrderFill orderId side maker price token0Amount token1Amount commissionAmount =>
    obtain ⟨hid, hprice, h0, h1, hcommission, index, rfl, hindex⟩ := h
    have hstamp : index ≤ 2147483647 := Nat.le_of_lt_succ hindex
    unfold parseLimitOrderFillSegment PairEmission.fillRows
    cases side with
    | bid =>
      simp [-Nat.toString_eq_repr, bookActionText, get_cons, sideStr, parseI64_toString hid,
        requiredPrice_decimalText hprice, requiredAmount_toString h0, requiredAmount_toString h1,
        requiredAmount_toString hcommission, optionalInteger_toString hindex hstamp]
    | ask =>
      simp [-Nat.toString_eq_repr, bookActionText, get_cons, sideStr, parseI64_toString hid,
        requiredPrice_decimalText hprice, requiredAmount_toString h0, requiredAmount_toString h1,
        requiredAmount_toString hcommission, optionalInteger_toString hindex hstamp]

theorem parsePlacement_rungActionText {report : PlacementReport} {rung : PlacedRung}
    {contract : String} (h : (PairEmission.place report).Bounded) (hrung : rung ∈ report.placed) :
    parseLimitOrderPlacementSegment contract (rungActionText text report rung).fields =
      some ⟨contract, rung.id, some (text report.owner), some (sideStr report.side),
        some (rung.price.atomics / 10 ^ 18), none, some rung.makerFee⟩ := by
  obtain ⟨hid, hprice, hfee⟩ := h rung hrung
  unfold parseLimitOrderPlacementSegment
  simp [-Nat.toString_eq_repr, rungActionText, get_cons, parseI64_toString hid,
    optionalPrice_decimalText hprice, optionalAmount_toString hfee]

theorem parkedRow_bookActionText {event : BookEvent} {act : WasmAction}
    (h : (PairEmission.book event).Bounded)
    (haction : act.action = (bookActionText text event).name)
    (hsegment : act.segment = (bookActionText text event).fields) :
    (parkedRow act).toList = (PairEmission.book event).parkedRows act.contract := by
  obtain ⟨event, stamp⟩ := event
  unfold parkedRow PairEmission.parkedRows
  rw [haction, hsegment]
  cases event with
  | limitOrderFill orderId side maker price token0Amount token1Amount commissionAmount =>
    simp [bookActionText]
  | limitOrderExpiredParked orderId maker side remaining reason =>
    obtain ⟨hid, hremaining⟩ := h
    cases reason <;>
      simp [-Nat.toString_eq_repr, bookActionText, get_cons, parseI64_toString hid,
        requiredAmount_toString hremaining, ExpiredLimitParkReason.isForceExpired]

end Actions

section Emissions

variable (text : Addr → String) {e : PairEmission} {contract : String}

theorem proper_swap (report : SwapReport) (bookLeg : Bool) :
    ActionText.Proper ⟨"swap", swapFields text report bookLeg⟩ := by
  constructor
  · have hown : ∀ a ∈ ownFields text report, a.isBoundary = false := by
      simp [ownFields, Attribute.isBoundary, Attribute.isAction, Attribute.isContractAddr]
    intro a ha
    rcases List.mem_append.1 ha with ha | ha
    · exact hown a ha
    · have hkey := bookFields_keys report bookLeg a ha
      have hnot : ∀ key ∈ bookKeys, key ≠ "action" ∧ key ≠ "_contract_address" := by decide
      obtain ⟨haction, haddr⟩ := hnot _ hkey
      simp [Attribute.isBoundary, Attribute.isAction, Attribute.isContractAddr, haction, haddr]
  · simp [swapFields]

theorem proper_book (event : BookEvent) : (bookActionText text event).Proper := by
  obtain ⟨event, stamp⟩ := event
  cases event with
  | limitOrderFill orderId side maker price token0Amount token1Amount commissionAmount =>
    constructor
    · cases stamp <;>
        simp [Plain, bookActionText, Attribute.isBoundary, Attribute.isAction,
          Attribute.isContractAddr]
    · simp [bookActionText]
  | limitOrderExpiredParked orderId maker side remaining reason =>
    constructor
    · cases reason <;>
        simp [Plain, bookActionText, Attribute.isBoundary, Attribute.isAction,
          Attribute.isContractAddr, ExpiredLimitParkReason.isForceExpired]
    · simp [bookActionText]

/-- Every action of a pair brings fields of its own. -/
theorem proper_actions (e : PairEmission) : ∀ t ∈ e.actions text, t.Proper := by
  have hplain : ∀ t : ActionText, (∀ a ∈ t.fields, a.isBoundary = false) → t.fields ≠ [] →
      t.Proper := fun t h h' => ⟨h, h'⟩
  cases e with
  | swap report bookLeg => simpa [PairEmission.actions] using proper_swap text report bookLeg
  | book event => simpa [PairEmission.actions] using proper_book text event
  | place report =>
    simp only [PairEmission.actions, List.forall_mem_cons, List.forall_mem_map]
    refine ⟨?_, fun rung _ => ?_⟩
    · constructor <;> simp [Plain, Attribute.isBoundary, Attribute.isAction,
        Attribute.isContractAddr]
    · constructor <;> simp [Plain, rungActionText, Attribute.isBoundary, Attribute.isAction,
        Attribute.isContractAddr]
  | cancel orderId owner =>
    simp only [PairEmission.actions, List.forall_mem_singleton]
    constructor <;> simp [Plain, cancelActionText, Attribute.isBoundary, Attribute.isAction,
      Attribute.isContractAddr]
  | cancelBatch orderIds owner =>
    simp only [PairEmission.actions, List.forall_mem_cons, List.forall_mem_map]
    refine ⟨?_, fun orderId _ => ?_⟩
    · constructor <;> simp [Plain, batchActionText, Attribute.isBoundary, Attribute.isAction,
        Attribute.isContractAddr]
    · constructor <;> simp [Plain, cancelActionText, Attribute.isBoundary, Attribute.isAction,
        Attribute.isContractAddr]
  | claim orderId owner =>
    simp only [PairEmission.actions, List.forall_mem_singleton]
    constructor <;> simp [Plain, claimActionText, Attribute.isBoundary, Attribute.isAction,
      Attribute.isContractAddr]
  | claimBatch orderIds owner =>
    simp only [PairEmission.actions, List.forall_mem_cons, List.forall_mem_map]
    refine ⟨?_, fun orderId _ => ?_⟩
    · constructor <;> simp [Plain, batchActionText, Attribute.isBoundary, Attribute.isAction,
        Attribute.isContractAddr]
    · constructor <;> simp [Plain, claimActionText, Attribute.isBoundary, Attribute.isAction,
        Attribute.isContractAddr]
  | clean report =>
    simp only [PairEmission.actions, List.forall_mem_singleton]
    constructor
    · cases report.resumeCursor <;> simp [Plain, Attribute.isBoundary, Attribute.isAction,
        Attribute.isContractAddr]
    · simp

theorem plain_lead (contract : String) (e : PairEmission) : Plain (e.lead contract) := by
  cases e <;> simp [Plain, PairEmission.lead, Attribute.isBoundary, Attribute.isAction,
    Attribute.isContractAddr]

/-- An emission with the runtime's attribute of its pair. -/
def PairEmission.block (contract : String) (e : PairEmission) : Block :=
  ⟨contract, e.attributes text contract⟩

theorem unreserved_block (contract : String) (e : PairEmission) :
    (e.block text contract).Unreserved := by
  intro a ha
  rcases List.mem_append.1 ha with ha | ha
  · exact (plain_lead contract e).isContractAddr a ha
  · obtain ⟨t, ht, ha⟩ := List.mem_flatMap.1 ha
    rcases List.mem_cons.1 ha with rfl | ha
    · rfl
    · exact (proper_actions text e t ht).plain.isContractAddr a ha

section Scans

variable {α : Type} {action : String} {single : String → Segment → Option α}
  {columnar : String → List Attribute → Option (List α)}

theorem scanRows_block : (e.block text contract).scanRows action single columnar =
    (e.actions text).flatMap fun t =>
      if t.name = action then (single contract t.fields).toList else [] := by
  unfold Block.scanRows PairEmission.block PairEmission.attributes
  rw [scanRows_plain (plain_lead contract e)]
  refine scanRows_texts (proper_actions text e) ?_
  exact wasmContractAddrBefore_first (plain_lead contract e).isContractAddr

theorem fillRows_block (h : e.Bounded) : (e.block text contract).scanRows "limit_order_fill"
    parseLimitOrderFillSegment parseLimitOrderFillsColumnar = e.fillRows text contract := by
  rw [scanRows_block]
  cases e with
  | book event =>
    simp only [PairEmission.actions, List.flatMap_singleton]
    by_cases hname : (bookActionText text event).name = "limit_order_fill"
    · rw [if_pos hname]
      exact parseFill_bookActionText text h hname
    · rw [if_neg hname]
      obtain ⟨event, stamp⟩ := event
      cases event with
      | limitOrderFill => exact absurd rfl hname
      | limitOrderExpiredParked => rfl
  | swap report bookLeg => simp [PairEmission.actions, PairEmission.fillRows]
  | place report => simp [PairEmission.actions, PairEmission.fillRows, rungActionText]
  | cancel orderId owner => simp [PairEmission.actions, PairEmission.fillRows, cancelActionText]
  | cancelBatch orderIds owner =>
    simp [PairEmission.actions, PairEmission.fillRows, cancelActionText, batchActionText]
  | claim orderId owner => simp [PairEmission.actions, PairEmission.fillRows, claimActionText]
  | claimBatch orderIds owner =>
    simp [PairEmission.actions, PairEmission.fillRows, claimActionText, batchActionText]
  | clean report => simp [PairEmission.actions, PairEmission.fillRows]

theorem placementRows_block (h : e.Bounded) : (e.block text contract).scanRows "place_limit_order"
    parseLimitOrderPlacementSegment parseLimitOrderPlacementsColumnar =
      e.placementRows text contract := by
  rw [scanRows_block]
  cases e with
  | place report =>
    have hrungs : ∀ rung ∈ report.placed, (if (rungActionText text report rung).name =
        "place_limit_order" then (parseLimitOrderPlacementSegment contract
          (rungActionText text report rung).fields).toList else []) =
        [⟨contract, rung.id, some (text report.owner), some (sideStr report.side),
          some (rung.price.atomics / 10 ^ 18), none, some rung.makerFee⟩] := by
      intro rung hrung
      rw [if_pos (show (rungActionText text report rung).name = "place_limit_order" from rfl),
        parsePlacement_rungActionText text h hrung]
      rfl
    simp only [PairEmission.actions, List.flatMap_cons, List.flatMap_map]
    rw [if_neg (by decide), List.nil_append, List.flatMap_congr hrungs]
    exact List.flatMap_pure_eq_map ..
  | book event =>
    obtain ⟨event, stamp⟩ := event
    cases event <;> simp [PairEmission.actions, PairEmission.placementRows, bookActionText]
  | swap report bookLeg => simp [PairEmission.actions, PairEmission.placementRows]
  | cancel orderId owner =>
    simp [PairEmission.actions, PairEmission.placementRows, cancelActionText]
  | cancelBatch orderIds owner =>
    simp [PairEmission.actions, PairEmission.placementRows, cancelActionText, batchActionText]
  | claim orderId owner =>
    simp [PairEmission.actions, PairEmission.placementRows, claimActionText]
  | claimBatch orderIds owner =>
    simp [PairEmission.actions, PairEmission.placementRows, claimActionText, batchActionText]
  | clean report => simp [PairEmission.actions, PairEmission.placementRows]

end Scans

section ActionRows

variable {α : Type} {row : WasmAction → Option α}

/-- Rows that do not depend on where their action stands. -/
def Unplaced (row : WasmAction → Option α) : Prop :=
  ∀ position position' action contract segment,
    row ⟨position, action, contract, segment⟩ = row ⟨position', action, contract, segment⟩

theorem unplaced_parkedRow : Unplaced parkedRow := fun _ _ _ _ _ => rfl

theorem unplaced_cancellationRow : Unplaced cancellationRow := fun _ _ _ _ _ => rfl

theorem unplaced_claimRow : Unplaced claimRow := fun _ _ _ _ _ => rfl

/-- The rows of a block's actions. -/
def Block.actionRows (row : WasmAction → Option α) (b : Block) : List α :=
  (b.actionsFrom 0).filterMap row

theorem filterMap_by (h : Unplaced row) (contract : String) (l : List BodyAction) :
    (l.map (BodyAction.by contract)).filterMap row =
      (l.map Prod.snd).filterMap fun t => row ⟨0, t.1, contract, t.2⟩ := by
  rw [List.filterMap_map, List.filterMap_map]
  refine List.filterMap_congr fun action _ => ?_
  exact h _ _ _ _ _

theorem bodyActions_snd (position : ℕ) (attrs : List Attribute) :
    (bodyActions position attrs).map Prod.snd = (bodyActions 0 attrs).map Prod.snd :=
  @bodyActions_plain [] attrs (fun _ ha => absurd ha List.not_mem_nil) position

/-- The rows of a stream are those of its blocks, wherever they stand. -/
theorem filterMap_blockActions (h : Unplaced row) (position : ℕ) (blocks : List Block) :
    (blockActions position blocks).filterMap row = blocks.flatMap (Block.actionRows row) := by
  induction blocks generalizing position with
  | nil => rfl
  | cons b blocks ih =>
    rw [blockActions, List.filterMap_append, ih, List.flatMap_cons]
    refine congrArg (· ++ _) ?_
    unfold Block.actionRows Block.actionsFrom
    rw [filterMap_by h, filterMap_by h, bodyActions_snd, bodyActions_snd (0 + 1)]

theorem actionRows_block (h : Unplaced row) : (e.block text contract).actionRows row =
    (e.actions text).filterMap fun t => row ⟨0, t.name, contract, t.fields⟩ := by
  unfold Block.actionRows Block.actionsFrom PairEmission.block PairEmission.attributes
  rw [filterMap_by h, bodyActions_plain (plain_lead contract e),
    bodyActions_texts (proper_actions text e), List.filterMap_map]
  rfl

theorem parkedRows_block (h : e.Bounded) :
    (e.block text contract).actionRows parkedRow = e.parkedRows contract := by
  rw [actionRows_block text unplaced_parkedRow]
  cases e with
  | book event =>
    rw [PairEmission.actions, List.filterMap_cons]
    have hrow := @parkedRow_bookActionText text event
      ⟨0, (bookActionText text event).name, contract, (bookActionText text event).fields⟩ h rfl rfl
    rw [← hrow]
    cases parkedRow ⟨0, (bookActionText text event).name, contract,
      (bookActionText text event).fields⟩ <;> rfl
  | swap report bookLeg => simp [PairEmission.actions, PairEmission.parkedRows, parkedRow]
  | place report =>
    simp [PairEmission.actions, PairEmission.parkedRows, parkedRow, rungActionText]
  | cancel orderId owner =>
    simp [PairEmission.actions, PairEmission.parkedRows, parkedRow, cancelActionText]
  | cancelBatch orderIds owner =>
    simp [PairEmission.actions, PairEmission.parkedRows, parkedRow, cancelActionText,
      batchActionText]
  | claim orderId owner =>
    simp [PairEmission.actions, PairEmission.parkedRows, parkedRow, claimActionText]
  | claimBatch orderIds owner =>
    simp [PairEmission.actions, PairEmission.parkedRows, parkedRow, claimActionText,
      batchActionText]
  | clean report => simp [PairEmission.actions, PairEmission.parkedRows, parkedRow]

theorem cancellationRow_text {act : WasmAction} {orderId : OrderId} {owner : Addr}
    (h : orderId < 2 ^ 63) (haction : act.action = "cancel_limit_order")
    (hsegment : act.segment = (cancelActionText text owner orderId).fields) :
    cancellationRow act = some ⟨act.contract, orderId, some (text owner)⟩ := by
  unfold cancellationRow
  rw [haction, hsegment]
  simp [-Nat.toString_eq_repr, cancelActionText, get_cons, parseI64_toString h]

theorem claimRow_text {act : WasmAction} {orderId : OrderId} {owner : Addr} (h : orderId < 2 ^ 63)
    (haction : act.action = "claim_expired_limit_order")
    (hsegment : act.segment = (claimActionText text owner orderId).fields) :
    claimRow act = some ⟨act.contract, orderId⟩ := by
  unfold claimRow
  rw [haction, hsegment]
  simp [-Nat.toString_eq_repr, claimActionText, get_cons, parseI64_toString h]

theorem cancellationRows_block (h : e.Bounded) :
    (e.block text contract).actionRows cancellationRow = e.cancellationRows text contract := by
  rw [actionRows_block text unplaced_cancellationRow]
  cases e with
  | cancel orderId owner =>
    rw [PairEmission.actions, List.filterMap_cons, cancellationRow_text text h rfl rfl]
    rfl
  | cancelBatch orderIds owner =>
    rw [PairEmission.actions, List.filterMap_cons_none (by simp [cancellationRow, batchActionText]),
      List.filterMap_map]
    have hrows : ∀ orderId ∈ orderIds,
        cancellationRow ⟨0, (cancelActionText text owner orderId).name, contract,
          (cancelActionText text owner orderId).fields⟩ =
            some ⟨contract, orderId, some (text owner)⟩ :=
      fun orderId hid => cancellationRow_text text (h orderId hid) rfl rfl
    unfold PairEmission.cancellationRows PairEmission.cancels
    rw [List.map_map, ← List.filterMap_eq_map]
    exact List.filterMap_congr hrows
  | book event =>
    obtain ⟨event, stamp⟩ := event
    cases event <;> simp [PairEmission.actions, PairEmission.cancellationRows,
      PairEmission.cancels, cancellationRow, bookActionText]
  | swap report bookLeg =>
    simp [PairEmission.actions, PairEmission.cancellationRows, PairEmission.cancels,
      cancellationRow]
  | place report =>
    simp [PairEmission.actions, PairEmission.cancellationRows, PairEmission.cancels,
      cancellationRow, rungActionText]
  | claim orderId owner =>
    simp [PairEmission.actions, PairEmission.cancellationRows, PairEmission.cancels,
      cancellationRow, claimActionText]
  | claimBatch orderIds owner =>
    simp [PairEmission.actions, PairEmission.cancellationRows, PairEmission.cancels,
      cancellationRow, claimActionText, batchActionText]
  | clean report =>
    simp [PairEmission.actions, PairEmission.cancellationRows, PairEmission.cancels,
      cancellationRow]

theorem claimRows_block (h : e.Bounded) :
    (e.block text contract).actionRows claimRow = e.claimRows contract := by
  rw [actionRows_block text unplaced_claimRow]
  cases e with
  | claim orderId owner =>
    rw [PairEmission.actions, List.filterMap_cons, claimRow_text text h rfl rfl]
    rfl
  | claimBatch orderIds owner =>
    rw [PairEmission.actions, List.filterMap_cons_none (by simp [claimRow, batchActionText]),
      List.filterMap_map]
    have hrows : ∀ orderId ∈ orderIds, claimRow ⟨0, (claimActionText text owner orderId).name,
        contract, (claimActionText text owner orderId).fields⟩ = some ⟨contract, orderId⟩ :=
      fun orderId hid => claimRow_text text (h orderId hid) rfl rfl
    unfold PairEmission.claimRows PairEmission.claims
    rw [← List.filterMap_eq_map]
    exact List.filterMap_congr hrows
  | book event =>
    obtain ⟨event, stamp⟩ := event
    cases event <;> simp [PairEmission.actions, PairEmission.claimRows, PairEmission.claims,
      claimRow, bookActionText]
  | swap report bookLeg =>
    simp [PairEmission.actions, PairEmission.claimRows, PairEmission.claims, claimRow]
  | place report =>
    simp [PairEmission.actions, PairEmission.claimRows, PairEmission.claims, claimRow,
      rungActionText]
  | cancel orderId owner =>
    simp [PairEmission.actions, PairEmission.claimRows, PairEmission.claims, claimRow,
      cancelActionText]
  | cancelBatch orderIds owner =>
    simp [PairEmission.actions, PairEmission.claimRows, PairEmission.claims, claimRow,
      cancelActionText, batchActionText]
  | clean report =>
    simp [PairEmission.actions, PairEmission.claimRows, PairEmission.claims, claimRow]

end ActionRows

end Emissions

end Cl8yDex.WasmEvents
