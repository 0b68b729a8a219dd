import Cl8yDex.Pair
import Cl8yDex.EventScans

/-!
# What pairs write about swaps and orders

The attributes of a pair's swap, placement, cancellation, claim and clean, and of the fills and
parks of its book, with the rows that they stand for.
-/

namespace Cl8yDex.WasmEvents

/-- What a pair emits at once: the attributes of a response or an event of its book. -/
inductive PairEmission
  | swap (report : SwapReport) (bookLeg : Bool)
  | book (event : BookEvent)
  | place (report : PlacementReport)
  | cancel (orderId : OrderId) (owner : Addr)
  | cancelBatch (orderIds : List OrderId) (owner : Addr)
  | claim (orderId : OrderId) (owner : Addr)
  | claimBatch (orderIds : List OrderId) (owner : Addr)
  | clean (report : CleanReport)

/-- The emissions of a response, its own attributes first. -/
def responseEmissions (response : Response) (bookLeg : Bool) : List PairEmission :=
  let events := response.events.map PairEmission.book
  match response.attributes with
  | .swap report => .swap report bookLeg :: events
  | .placeLimitOrderBatch report => .place report :: events
  | .cancelLimitOrder orderId owner => .cancel orderId owner :: events
  | .cancelLimitOrdersBatch orderIds owner => .cancelBatch orderIds owner :: events
  | .claimExpiredLimitOrder orderId owner => .claim orderId owner :: events
  | .claimExpiredLimitOrdersBatch orderIds owner => .claimBatch orderIds owner :: events
  | .cleanLimitBook report => .clean report :: events
  | _ => []

def sideStr : LimitOrderSide → String
  | .bid => "bid"
  | .ask => "ask"

section Texts

variable (text : Addr → String)

def swapFields (report : SwapReport) (bookLeg : Bool) : Segment :=
  [⟨"sender", text report.sender⟩, ⟨"receiver", text report.receiver⟩,
    ⟨"offer_asset", text report.offerToken⟩, ⟨"ask_asset", text report.askToken⟩,
    ⟨"offer_amount", toString report.offerAmount⟩,
    ⟨"return_amount", toString report.returnAmount⟩,
    ⟨"net_return_amount", toString report.netReturnAmount⟩,
    ⟨"hook_fee_amount", toString report.hookFeeAmount⟩,
    ⟨"pool_return_amount", toString report.poolReturnAmount⟩,
    ⟨"book_return_amount", toString report.bookReturnAmount⟩,
    ⟨"spread_amount", toString report.spreadAmount⟩,
    ⟨"commission_amount", toString report.commissionAmount⟩,
    ⟨"effective_fee_bps", toString report.effectiveFeeBps⟩] ++
  if bookLeg then
    [⟨"limit_book_offer_consumed", toString report.limitBookOfferConsumed⟩,
      ⟨"book_commission_amount", toString report.bookCommissionAmount⟩] ++
    (if 0 < report.expiredParks then
      [⟨"expired_parks_used", toString report.expiredParks⟩] else []) ++
    (if 0 < report.expiredParksSkipped then [⟨"expired_parks_capped", "true"⟩,
      ⟨"expired_parks_skipped", toString report.expiredParksSkipped⟩] else []) ++
    (if report.scanStepsCapped then [⟨"scan_steps_capped", "true"⟩] else []) ++
    report.greedyStop.toList.map fun stop => ⟨"greedy_stop", stop.asAttr⟩
  else []

/-- An event of the book; a stamp comes last. -/
def bookActionText (event : BookEvent) : ActionText :=
  match event.event with
  | .limitOrderFill orderId side maker price token0Amount token1Amount commissionAmount =>
    ⟨"limit_order_fill", [⟨"order_id", toString orderId⟩, ⟨"side", sideStr side⟩,
      ⟨"maker", text maker⟩, ⟨"price", decimalText price⟩,
      ⟨"token0_amount", toString token0Amount⟩, ⟨"token1_amount", toString token1Amount⟩,
      ⟨"commission_amount", toString commissionAmount⟩] ++
      event.swapIndex.toList.map fun index => ⟨"swap_index", toString index⟩⟩
  | .limitOrderExpiredParked orderId maker side remaining reason =>
    ⟨"limit_order_expired_parked", [⟨"order_id", toString orderId⟩, ⟨"maker", text maker⟩,
      ⟨"side", sideStr side⟩, ⟨"remaining", toString remaining⟩, ⟨"reason", reason.asAttr⟩] ++
      if reason.isForceExpired then [⟨"force_expired", "true"⟩] else []⟩

def rungActionText (report : PlacementReport) (rung : PlacedRung) : ActionText :=
  ⟨"place_limit_order", [⟨"limit_order_placed", toString rung.id⟩,
    ⟨"order_id", toString rung.id⟩, ⟨"side", sideStr report.side⟩,
    ⟨"price", decimalText rung.price⟩, ⟨"owner", text report.owner⟩,
    ⟨"maker_fee_amount", toString rung.makerFee⟩,
    ⟨"effective_fee_bps", toString report.effectiveFeeBps⟩]⟩

def cancelActionText (owner : Addr) (orderId : OrderId) : ActionText :=
  ⟨"cancel_limit_order",
    [⟨"limit_order_cancelled", toString orderId⟩, ⟨"owner", text owner⟩]⟩

def claimActionText (owner : Addr) (orderId : OrderId) : ActionText :=
  ⟨"claim_expired_limit_order", [⟨"order_id", toString orderId⟩, ⟨"owner", text owner⟩]⟩

def batchActionText (name : String) (count : ℕ) : ActionText :=
  ⟨name, [⟨"batch_count", toString count⟩]⟩

namespace PairEmission

/-- The actions of an emission in the order it writes them. -/
def actions : PairEmission → List ActionText
  | swap report bookLeg => [⟨"swap", swapFields text report bookLeg⟩]
  | book event => [bookActionText text event]
  | place report =>
    ⟨"place_limit_order_batch", [⟨"batch_count", toString report.placed.length⟩,
      ⟨"batch_skipped_count", toString report.skippedCount⟩,
      ⟨"batch_refund_amount", toString report.refund⟩, ⟨"side", sideStr report.side⟩,
      ⟨"total_maker_fee_amount", toString report.totalMakerFee⟩,
      ⟨"effective_fee_bps", toString report.effectiveFeeBps⟩]⟩ ::
      report.placed.map (rungActionText text report)
  | cancel orderId owner => [cancelActionText text owner orderId]
  | cancelBatch orderIds owner =>
    batchActionText "cancel_limit_orders_batch" orderIds.length ::
      orderIds.map (cancelActionText text owner)
  | claim orderId owner => [claimActionText text owner orderId]
  | claimBatch orderIds owner =>
    batchActionText "claim_expired_limit_orders_batch" orderIds.length ::
      orderIds.map (claimActionText text owner)
  | clean report => [⟨"clean_limit_book", [⟨"side", sideStr report.side⟩,
      ⟨"cleaned_count", toString report.cleanedCount⟩,
      ⟨"time_expired_count", toString report.timeExpiredCount⟩,
      ⟨"force_expired_count", toString report.forceExpiredCount⟩,
      ⟨"cap_hit", toString report.capHit⟩, ⟨"scan_capped", toString report.scanCapped⟩] ++
      report.resumeCursor.toList.map fun cursor => ⟨"resume_cursor", toString cursor⟩⟩]

/-- Events of the book name the pair before their action. -/
def lead (contract : String) : PairEmission → List Attribute
  | book _ => [⟨"contract_address", contract⟩]
  | _ => []

def attributes (contract : String) (emission : PairEmission) : List Attribute :=
  emission.lead contract ++ (emission.actions text).flatMap ActionText.attributes

end PairEmission

end Texts

/-- Identifiers below `2^63`, amounts below `10^38`, prices below `10^20`; fees are at most all of
an amount, and fills are stamped with an ordinal of 31 bits. -/
def PairEmission.Bounded : PairEmission → Prop
  | swap report bookLeg => (report.offerAmount < 10 ^ 38 ∧ report.returnAmount < 10 ^ 38 ∧
      report.spreadAmount < 10 ^ 38 ∧ report.commissionAmount < 10 ^ 38) ∧
      report.poolReturnAmount < 10 ^ 38 ∧ report.bookReturnAmount < 10 ^ 38 ∧
      report.effectiveFeeBps ≤ 10000 ∧
      (bookLeg = true → report.limitBookOfferConsumed < 10 ^ 38)
  | book ⟨.limitOrderFill orderId _ _ price token0Amount token1Amount commissionAmount, stamp⟩ =>
      orderId < 2 ^ 63 ∧ price.atomics < 10 ^ 20 * 10 ^ 18 ∧ token0Amount < 10 ^ 38 ∧
      token1Amount < 10 ^ 38 ∧ commissionAmount < 10 ^ 38 ∧ ∃ index, stamp = some index ∧
      index < 2 ^ 31
  | book ⟨.limitOrderExpiredParked orderId _ _ remaining _, _⟩ =>
      orderId < 2 ^ 63 ∧ remaining < 10 ^ 38
  | place report => ∀ rung ∈ report.placed, rung.id < 2 ^ 63 ∧
      rung.price.atomics < 10 ^ 20 * 10 ^ 18 ∧ rung.makerFee < 10 ^ 38
  | cancel orderId _ => orderId < 2 ^ 63
  | cancelBatch orderIds _ => ∀ orderId ∈ orderIds, orderId < 2 ^ 63
  | claim orderId _ => orderId < 2 ^ 63
  | claimBatch orderIds _ => ∀ orderId ∈ orderIds, orderId < 2 ^ 63
  | clean _ => True

section Rows

variable (text : Addr → String) (contract : String)

namespace PairEmission

/-- The swap of an emission, as the given one of its pair in the transaction. -/
def swapRow (index : ℕ) : PairEmission → Option ParsedSwap
  | swap report bookLeg => some {
      pairAddress := contract
      swapIndex := index
      sender := text report.sender
      receiver := some (text report.receiver)
      offerAsset := text report.offerToken
      askAsset := text report.askToken
      offerAmount := report.offerAmount
      returnAmount := report.returnAmount
      spreadAmount := some report.spreadAmount
      commissionAmount := some report.commissionAmount
      effectiveFeeBps := some report.effectiveFeeBps
      poolReturnAmount := some report.poolReturnAmount
      bookReturnAmount := some report.bookReturnAmount
      limitBookOfferConsumed := if bookLeg then some report.limitBookOfferConsumed else none
      reserve0 := none
      reserve1 := none }
  | _ => none

def fillRows : PairEmission → List ParsedLimitOrderFill
  | book ⟨.limitOrderFill orderId side maker price token0Amount token1Amount commissionAmount,
      stamp⟩ => [⟨contract, orderId, sideStr side, text maker, price.atomics / 10 ^ 18,
        token0Amount, token1Amount, commissionAmount, stamp.getD 0, stamp⟩]
  | _ => []

def placementRows : PairEmission → List ParsedLimitOrderPlacement
  | place report => report.placed.map fun rung => ⟨contract, rung.id, some (text report.owner),
      some (sideStr report.side), some (rung.price.atomics / 10 ^ 18), none, some rung.makerFee⟩
  | _ => []

/-- The orders that an emission cancels, with their owner. -/
def cancels : PairEmission → List (OrderId × Addr)
  | cancel orderId owner => [(orderId, owner)]
  | cancelBatch orderIds owner => orderIds.map fun orderId => (orderId, owner)
  | _ => []

def cancellationRows (emission : PairEmission) : List ParsedLimitOrderCancellation :=
  emission.cancels.map fun cancelled => ⟨contract, cancelled.1, some (text cancelled.2)⟩

def parkedRows : PairEmission → List ParsedLimitOrderExpiredParked
  | book ⟨.limitOrderExpiredParked orderId _ _ remaining _, _⟩ => [⟨contract, orderId, remaining⟩]
  | _ => []

/-- The orders whose escrow an emission pays out. -/
def claims : PairEmission → List OrderId
  | claim orderId _ => [orderId]
  | claimBatch orderIds _ => orderIds
  | _ => []

def claimRows (emission : PairEmission) : List ParsedClaimExpiredLimitOrder :=
  emission.claims.map fun orderId : OrderId => ⟨contract, (orderId : ℤ)⟩

end PairEmission

end Rows

end Cl8yDex.WasmEvents
