import Cl8yDex.EventAmounts
import Cl8yDex.WasmEvents

/-!
# Parsers of swaps and of the lifecycle of orders

How the indexer reads swaps, fills, placements, cancellations, parks and claims from the events of
a transaction. Fills and placements may come with their headers first and their fields in columns;
cancellations and claims of a batch are read from the columns of the whole event.
-/

namespace Cl8yDex.WasmEvents

structure ParsedSwap where
  pairAddress : String
  swapIndex : ℕ
  sender : String
  receiver : Option String
  offerAsset : String
  askAsset : String
  offerAmount : ℕ
  returnAmount : ℕ
  spreadAmount : Option ℕ
  commissionAmount : Option ℕ
  effectiveFeeBps : Option ℕ
  poolReturnAmount : Option ℕ
  bookReturnAmount : Option ℕ
  limitBookOfferConsumed : Option ℕ
  reserve0 : Option ℕ
  reserve1 : Option ℕ

/-- The position of a fill's action in its event is kept next to it. -/
structure ParsedLimitOrderFill where
  pairAddress : String
  orderId : ℤ
  side : String
  maker : String
  price : ℚ
  token0Amount : ℕ
  token1Amount : ℕ
  commissionAmount : ℕ
  swapIndex : ℕ
  swapIndexFromChain : Option ℕ

structure ParsedLimitOrderPlacement where
  pairAddress : String
  orderId : ℤ
  owner : Option String
  side : Option String
  price : Option ℚ
  expiresAt : Option ℤ
  makerFeeAmount : Option ℕ

structure ParsedLimitOrderCancellation where
  pairAddress : String
  orderId : ℤ
  owner : Option String

structure ParsedLimitOrderExpiredParked where
  pairAddress : String
  orderId : ℤ
  remaining : ℕ

structure ParsedClaimExpiredLimitOrder where
  pairAddress : String
  orderId : ℤ

section Swaps

def parseSwapAmounts (seg : Segment) (contract sender : String) (swapIndex : ℕ) :
    Option ParsedSwap := do
  let offerAmount ← requiredAmount (seg.get "offer_amount")
  let returnAmount ← requiredAmount (seg.get "return_amount")
  let spreadAmount ← optionalAmount (seg.get "spread_amount")
  let commissionAmount ← optionalAmount (seg.get "commission_amount")
  let effectiveFeeBps ← optionalInteger (seg.get "effective_fee_bps") 10000
  let poolReturnAmount ← optionalAmount (seg.get "pool_return_amount")
  let bookReturnAmount ← optionalAmount (seg.get "book_return_amount")
  let limitBookOfferConsumed ← optionalAmount (seg.get "limit_book_offer_consumed")
  let reserve0 ← optionalAmount (seg.get "reserve_0")
  let reserve1 ← optionalAmount (seg.get "reserve_1")
  return {
    pairAddress := contract
    swapIndex := swapIndex
    sender := sender
    receiver := seg.get "receiver"
    offerAsset := (seg.get "offer_asset").getD ""
    askAsset := (seg.get "ask_asset").getD ""
    offerAmount := offerAmount
    returnAmount := returnAmount
    spreadAmount := spreadAmount
    commissionAmount := commissionAmount
    effectiveFeeBps := effectiveFeeBps
    poolReturnAmount := poolReturnAmount
    bookReturnAmount := bookReturnAmount
    limitBookOfferConsumed := limitBookOfferConsumed
    reserve0 := reserve0
    reserve1 := reserve1 }

/-- One swap more of a pair. -/
def bump (count : String → ℕ) (contract : String) : String → ℕ :=
  fun c => if c = contract then count c + 1 else count c

/-- The sender of a swap action; without one the action is skipped. -/
def WasmAction.swapSender (act : WasmAction) : Option String :=
  if act.action = "swap" then act.segment.get "sender" else none

/-- Each swap takes the next ordinal of its pair, also when its amounts are rejected. -/
def swapsFrom (count : String → ℕ) : List WasmAction → List ParsedSwap
  | [] => []
  | act :: rest =>
    match act.swapSender with
    | none => swapsFrom count rest
    | some sender =>
      (parseSwapAmounts act.segment act.contract sender (count act.contract)).toList ++
        swapsFrom (bump count act.contract) rest

def parseSwaps (tx : TxResponse) : List ParsedSwap :=
  swapsFrom (fun _ => 0)
    ((tx.allEvents.filter Event.isWasm).flatMap fun event => wasmActions event.attributes)

end Swaps

section Columns

/-- The keys of a columnar batch. A shared key may have one value for all rows. -/
structure ColumnFormat where
  action : String
  keys : List String
  shared : List String
  validLength : String → ℕ → ℕ → Bool

def hasColumnarActions (attrs : List Attribute) (action : String) : Bool :=
  (attrs.zip attrs.tail).any fun w => w.1.hasAction action && w.2.hasAction action

def actionCount (attrs : List Attribute) (action : String) : ℕ :=
  (attrs.filter fun a => a.hasAction action).length

def columnEntry (format : ColumnFormat) (attrs : List Attribute) (i : ℕ) (key : String) :
    Option Attribute :=
  let column := wasmAttrValues attrs key
  (if key ∈ format.shared then column[i]?.or column.head? else column[i]?).map fun value =>
    ⟨key, value⟩

/-- The rows of a batch; a column of another length rejects them all. -/
def columnarSegments (format : ColumnFormat) (attrs : List Attribute) : List Segment :=
  let n := actionCount attrs format.action
  if format.keys.all fun key => format.validLength key (wasmAttrValues attrs key).length n then
    (List.range n).map fun i => format.keys.filterMap (columnEntry format attrs i)
  else []

/-- The loop over an event's attributes for an action that may come in columns. A batch goes from
its first header to the next action or emitter. -/
def batchScan {α : Type} (action : String) (single : String → Segment → Option α)
    (columnar : String → List Attribute → Option (List α)) (before : List Attribute) :
    List Attribute → List (ℕ × α)
  | [] => []
  | a :: rest =>
    if a.hasAction action then
      match wasmContractAddrBefore before with
      | none => batchScan action single columnar (before ++ [a]) rest
      | some contract =>
        let headers := rest.takeWhile fun h => h.hasAction action
        if headers = [] then
          ((single contract (wasmKvMapAfterAction rest)).toList.map fun row =>
            (before.length, row)) ++ batchScan action single columnar (before ++ [a]) rest
        else
          let tail := rest.dropWhile fun h => h.hasAction action
          let batch := a :: headers ++ wasmKvMapAfterAction tail
          (((columnar contract batch).getD []).map fun row => (before.length, row)) ++
            batchScan action single columnar (before ++ batch)
              (tail.dropWhile fun a => !a.isBoundary)
    else batchScan action single columnar (before ++ [a]) rest
termination_by attrs => attrs.length
decreasing_by
  all_goals simp only [List.length_cons]
  · omega
  · omega
  · have hfields := List.length_dropWhile_le (fun a : Attribute => !a.isBoundary) tail
    have hheaders := List.length_dropWhile_le (fun h : Attribute => h.hasAction action) rest
    exact Nat.lt_succ_of_le (Nat.le_trans hfields hheaders)
  · omega

end Columns

section Fills

def parseLimitOrderFillSegment (contract : String) (seg : Segment) :
    Option ParsedLimitOrderFill := do
  let side ← seg.get "side"
  if side ≠ "bid" ∧ side ≠ "ask" then failure
  let maker ← seg.get "maker"
  let orderId ← (seg.get "order_id").bind parseI64
  let price ← requiredPrice (seg.get "price")
  let token0Amount ← requiredAmount (seg.get "token0_amount")
  let token1Amount ← requiredAmount (seg.get "token1_amount")
  let commissionAmount ← requiredAmount (seg.get "commission_amount")
  let swapIndexFromChain ← optionalInteger (seg.get "swap_index") (2 ^ 31 - 1)
  return ⟨contract, orderId, side, maker, price, token0Amount, token1Amount, commissionAmount,
    swapIndexFromChain.getD 0, swapIndexFromChain⟩

def fillColumns : ColumnFormat where
  action := "limit_order_fill"
  keys := ["order_id", "side", "maker", "price", "token0_amount", "token1_amount",
    "commission_amount", "swap_index"]
  shared := ["side", "maker"]
  validLength key entries rows :=
    if key = "side" ∨ key = "maker" then entries = 1 ∨ entries = rows
    else if key = "swap_index" then entries = 0 ∨ entries = rows
    else entries = rows

def parseLimitOrderFillsColumnar (contract : String) (attrs : List Attribute) :
    Option (List ParsedLimitOrderFill) :=
  if actionCount attrs "limit_order_fill" ≤ 1 then none
  else if ¬ hasColumnarActions attrs "limit_order_fill" then none
  else some ((columnarSegments fillColumns attrs).filterMap (parseLimitOrderFillSegment contract))

def parseLimitOrderFillsFromWasmAttrs (attrs : List Attribute) :
    List (ℕ × ParsedLimitOrderFill) :=
  batchScan "limit_order_fill" parseLimitOrderFillSegment parseLimitOrderFillsColumnar [] attrs

/-- The emitters of an event's swaps with the positions of their actions. -/
def swapPositions (event : Event) : List (ℕ × String) :=
  if event.isWasm then
    (wasmActions event.attributes).filterMap fun act =>
      if act.swapSender.isSome then some (act.position, act.contract) else none
  else []

/-- A fill without a stamp gets the number of its pair's swaps before it. -/
def inferSwapIndex (seen : String → ℕ) (positions : List (ℕ × String))
    (fill : ℕ × ParsedLimitOrderFill) : ParsedLimitOrderFill :=
  let preceding := positions.filter fun swap =>
    swap.1 < fill.1 ∧ swap.2 = fill.2.pairAddress
  { fill.2 with
    swapIndex := fill.2.swapIndexFromChain.getD (seen fill.2.pairAddress + preceding.length) }

def fillsFrom (seen : String → ℕ) : List Event → List ParsedLimitOrderFill
  | [] => []
  | event :: events =>
    let positions := swapPositions event
    (parseLimitOrderFillsFromWasmAttrs event.attributes).map (inferSwapIndex seen positions) ++
      fillsFrom ((positions.map Prod.snd).foldl bump seen) events

def parseLimitOrderFills (tx : TxResponse) : List ParsedLimitOrderFill :=
  fillsFrom (fun _ => 0) (tx.allEvents.filter Event.isLifecycle)

end Fills

section Placements

def parseLimitOrderPlacementSegment (contract : String) (seg : Segment) :
    Option ParsedLimitOrderPlacement := do
  let orderId ← ((seg.get "order_id").or (seg.get "limit_order_placed")).bind parseI64
  let price ← optionalPrice (seg.get "price")
  let makerFeeAmount ← optionalAmount (seg.get "maker_fee_amount")
  return ⟨contract, orderId, seg.get "owner", seg.get "side", price,
    (seg.get "expires_at").bind parseI64, makerFeeAmount⟩

def placementColumns : ColumnFormat where
  action := "place_limit_order"
  keys := ["order_id", "limit_order_placed", "side", "owner", "price", "expires_at",
    "maker_fee_amount"]
  shared := ["side", "owner"]
  validLength key entries rows :=
    if key = "side" ∨ key = "owner" then entries = 0 ∨ entries = 1 ∨ entries = rows
    else entries = 0 ∨ entries = rows

def parseLimitOrderPlacementsColumnar (contract : String) (attrs : List Attribute) :
    Option (List ParsedLimitOrderPlacement) :=
  if ¬ hasColumnarActions attrs "place_limit_order" then none
  else some ((columnarSegments placementColumns attrs).filterMap
    (parseLimitOrderPlacementSegment contract))

def parseLimitOrderPlacementsFromWasmAttrs (attrs : List Attribute) :
    List ParsedLimitOrderPlacement :=
  (batchScan "place_limit_order" parseLimitOrderPlacementSegment
    parseLimitOrderPlacementsColumnar [] attrs).map Prod.snd

def parseLimitOrderPlacements (tx : TxResponse) : List ParsedLimitOrderPlacement :=
  (tx.allEvents.filter Event.isLifecycle).flatMap fun event =>
    parseLimitOrderPlacementsFromWasmAttrs event.attributes

end Placements

section Parks

def parkedRow (act : WasmAction) : Option ParsedLimitOrderExpiredParked := do
  if act.action ≠ "limit_order_expired_parked" then failure
  let orderId ← (act.segment.get "order_id").bind parseI64
  let remaining ← requiredAmount (act.segment.get "remaining")
  return ⟨act.contract, orderId, remaining⟩

def parseLimitOrderExpiredParkedFromWasmAttrs (attrs : List Attribute) :
    List ParsedLimitOrderExpiredParked :=
  (wasmActions attrs).filterMap parkedRow

def parseLimitOrderExpiredParked (tx : TxResponse) : List ParsedLimitOrderExpiredParked :=
  (tx.allEvents.filter Event.isLifecycle).flatMap fun event =>
    parseLimitOrderExpiredParkedFromWasmAttrs event.attributes

end Parks

section WholeEvent

/-- Whether an event is read in columns: it has the header of a batch, or more than one action. -/
def readsColumns (batch single : String) (attrs : List Attribute) : Bool :=
  attrs.any (fun a => a.hasAction batch) || 1 < actionCount attrs single

/-- The first emitter and the numbers under a key, in the whole event. -/
def wholeEventIds (batch single key : String) (attrs : List Attribute) :
    Option (String × List ℤ) := do
  if ¬ readsColumns batch single attrs then failure
  let contract ← (attrs.find? Attribute.isContractAddr).map Attribute.value
  let orderIds := (wasmAttrValues attrs key).filterMap parseI64
  if orderIds = [] then failure
  return (contract, orderIds)

def parseLimitOrderCancellationsColumnar (attrs : List Attribute) :
    Option (List ParsedLimitOrderCancellation) :=
  (wholeEventIds "cancel_limit_orders_batch" "cancel_limit_order" "limit_order_cancelled" attrs).map
    fun columns =>
      let owners := wasmAttrValues attrs "owner"
      columns.2.zipIdx.map fun entry => ⟨columns.1, entry.1, owners[entry.2]?.or owners.head?⟩

def cancellationRow (act : WasmAction) : Option ParsedLimitOrderCancellation := do
  if act.action ≠ "cancel_limit_order" then failure
  let orderId ← (act.segment.get "limit_order_cancelled").bind parseI64
  return ⟨act.contract, orderId, act.segment.get "owner"⟩

def parseLimitOrderCancellationsFromWasmAttrs (attrs : List Attribute) :
    List ParsedLimitOrderCancellation :=
  (parseLimitOrderCancellationsColumnar attrs).getD
    ((wasmActions attrs).filterMap cancellationRow)

def parseLimitOrderCancellations (tx : TxResponse) : List ParsedLimitOrderCancellation :=
  (tx.allEvents.filter Event.isLifecycle).flatMap fun event =>
    parseLimitOrderCancellationsFromWasmAttrs event.attributes

def parseClaimExpiredLimitOrdersColumnar (attrs : List Attribute) :
    Option (List ParsedClaimExpiredLimitOrder) :=
  (wholeEventIds "claim_expired_limit_orders_batch" "claim_expired_limit_order" "order_id"
    attrs).map fun columns => columns.2.map fun orderId => ⟨columns.1, orderId⟩

def claimRow (act : WasmAction) : Option ParsedClaimExpiredLimitOrder := do
  if act.action ≠ "claim_expired_limit_order" then failure
  let orderId ← (act.segment.get "order_id").bind parseI64
  return ⟨act.contract, orderId⟩

def parseClaimExpiredLimitOrdersFromWasmAttrs (attrs : List Attribute) :
    List ParsedClaimExpiredLimitOrder :=
  (parseClaimExpiredLimitOrdersColumnar attrs).getD ((wasmActions attrs).filterMap claimRow)

def parseClaimExpiredLimitOrders (tx : TxResponse) : List ParsedClaimExpiredLimitOrder :=
  (tx.allEvents.filter Event.isLifecycle).flatMap fun event =>
    parseClaimExpiredLimitOrdersFromWasmAttrs event.attributes

end WholeEvent

end Cl8yDex.WasmEvents
