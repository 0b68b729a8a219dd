import Cl8yDex.Types

/-!
# The stored limit-order book

Each side is a doubly linked list through the order map, with its head stored apart. Escrow is
token1 for bids and token0 for asks, and one counter a side totals what is owed to makers.
-/

namespace Cl8yDex

open DoublyLinked Outcome

structure OrderTerms where
  owner : Addr
  price : Decimal
  remaining : ℕ
  side : LimitOrderSide
  expiresAt : Option ℕ
  deriving DecidableEq

structure LimitOrder extends OrderTerms, Link OrderId
  deriving DecidableEq

structure ExpiredLimitRefund where
  owner : Addr
  side : LimitOrderSide
  remaining : ℕ
  expiresAt : Option ℕ
  reason : Option ExpiredLimitParkReason
  deriving DecidableEq

structure Book where
  orderNextId : OrderId
  orders : OrderId → Option LimitOrder
  head : LimitOrderSide → Option OrderId
  pendingEscrow : LimitOrderSide → ℕ
  expiredLimitClaims : OrderId → Option ExpiredLimitRefund

namespace Book

/-- The book right after the pair is instantiated. -/
def initial : Book where
  orderNextId := 1
  orders _ := none
  head _ := none
  pendingEscrow _ := 0
  expiredLimitClaims _ := none

def load (b : Book) (id : OrderId) : Except ContractError LimitOrder :=
  orThrow (b.orders id) (.std (.notFound "LimitOrder"))

def save (b : Book) (id : OrderId) (order : LimitOrder) : Book :=
  { b with orders := Function.update b.orders id (some order) }

def remove (b : Book) (id : OrderId) : Book :=
  { b with orders := Function.update b.orders id none }

def saveHead (b : Book) (side : LimitOrderSide) (h : Option OrderId) : Book :=
  { b with head := Function.update b.head side h }

def saveEscrow (b : Book) (side : LimitOrderSide) (amount : ℕ) : Book :=
  { b with pendingEscrow := Function.update b.pendingEscrow side amount }

def saveClaim (b : Book) (id : OrderId) (row : Option ExpiredLimitRefund) : Book :=
  { b with expiredLimitClaims := Function.update b.expiredLimitClaims id row }

/-- Rewrite a neighbour; `what` names it in the error for a dangling pointer. -/
def updateOrder (b : Book) (id : OrderId) (what : String) (f : LimitOrder → LimitOrder) :
    Except ContractError Book := do
  let x ← orThrow (b.orders id) (.std (.genericErr what))
  return b.save id (f x)

def updateNeighbor (b : Book) (id : Option OrderId) (what : String)
    (f : LimitOrder → LimitOrder) : Except ContractError Book :=
  match id with
  | some id => b.updateOrder id what f
  | none => .ok b

def escrowAdd (b : Book) (side : LimitOrderSide) (amount : ℕ) : Except ContractError Book := do
  let esc ← addOrOverflow (b.pendingEscrow side) amount
  return b.saveEscrow side esc

def escrowSub (b : Book) (side : LimitOrderSide) (amount : ℕ) (path : EscrowPath) :
    Except ContractError Book := do
  let esc ← orThrow (checkedSub (b.pendingEscrow side) amount)
    (.invariantViolation (.pendingEscrowUnderflow side path))
  return b.saveEscrow side esc

/-- The escrow step of a path that writes the counter only when there is something to take. -/
def escrowSubPending (b : Book) (side : LimitOrderSide) (amount : ℕ) (path : EscrowPath) :
    Except ContractError Book :=
  if amount = 0 then .ok b else b.escrowSub side amount path

/-- Reserve `count` consecutive ids; answers the first one. -/
def reserveOrderIdBlock (b : Book) (count : ℕ) : Except ContractError (Book × OrderId) := do
  ensure (count ≠ 0) (.invariantViolation .zeroOrderIds)
  ensure (b.orderNextId + count ≤ u64Max) (.invariantViolation .orderIdOverflow)
  return ({ b with orderNextId := b.orderNextId + count }, b.orderNextId)

end Book

/-- The equal-price key of a relinked order, above every stored id. -/
def relinkEqualPriceSortId : OrderId := u64Max

def bidBefore (aPrice : Decimal) (aId : OrderId) (bPrice : Decimal) (bId : OrderId) : Prop :=
  bPrice < aPrice ∨ aPrice = bPrice ∧ aId < bId

def askBefore (aPrice : Decimal) (aId : OrderId) (bPrice : Decimal) (bId : OrderId) : Prop :=
  aPrice < bPrice ∨ aPrice = bPrice ∧ aId < bId

def before : LimitOrderSide → Decimal → OrderId → Decimal → OrderId → Prop
  | .bid => bidBefore
  | .ask => askBefore

instance (aPrice : Decimal) (aId : OrderId) (bPrice : Decimal) (bId : OrderId) :
    Decidable (bidBefore aPrice aId bPrice bId) :=
  inferInstanceAs (Decidable (_ ∨ _))

instance (aPrice : Decimal) (aId : OrderId) (bPrice : Decimal) (bId : OrderId) :
    Decidable (askBefore aPrice aId bPrice bId) :=
  inferInstanceAs (Decidable (_ ∨ _))

instance : ∀ (side : LimitOrderSide) (aPrice : Decimal) (aId : OrderId) (bPrice : Decimal)
    (bId : OrderId), Decidable (before side aPrice aId bPrice bId)
  | .bid, aPrice, aId, bPrice, bId => inferInstanceAs (Decidable (bidBefore aPrice aId bPrice bId))
  | .ask, aPrice, aId, bPrice, bId => inferInstanceAs (Decidable (askBefore aPrice aId bPrice bId))

structure InsertFindResult where
  prev : Option OrderId
  next : Option OrderId
  nextPrice : Option Decimal

def insertFindResult (prev next : Option OrderId) (nextPrice : Option Decimal) :
    InsertFindResult where
  prev := prev
  next := next
  nextPrice := if next.isSome then nextPrice else none

/-- What one rung of a batch remembers for the next one. -/
structure InsertThreadCursor where
  afterId : OrderId
  afterPrice : Decimal
  nextId : Option OrderId
  nextPrice : Option Decimal

structure BatchInsertOutcome where
  id : OrderId
  threadCursor : InsertThreadCursor

def nextThreadCursor (id : OrderId) (price : Decimal) (found : InsertFindResult) :
    InsertThreadCursor where
  afterId := id
  afterPrice := price
  nextId := found.next
  nextPrice := found.nextPrice

def tryInsertAfterThreadCursor (side : LimitOrderSide) (cursor : InsertThreadCursor)
    (newPrice : Decimal) (newId : OrderId) : Option InsertFindResult :=
  if before side cursor.afterPrice cursor.afterId newPrice newId then
    match cursor.nextId with
    | none => some (insertFindResult (some cursor.afterId) none cursor.nextPrice)
    | some nextId =>
        match cursor.nextPrice with
        | none => none
        | some np =>
            if before side newPrice newId np nextId then
              some (insertFindResult (some cursor.afterId) (some nextId) (some np))
            else none
  else none

inductive HintInsertOutcome
  | ready (prev next : Option OrderId) (nextPrice : Option Decimal)
  | headWalk
  | walkTowardHead (hintId : OrderId)
  | walkTowardTail (startId : OrderId)

/-- The stored order when it exists on `side`. -/
def Book.orderOnSide (b : Book) (side : LimitOrderSide) (id : OrderId) : Option LimitOrder :=
  (b.orders id).filter fun o => o.side = side

/-- Check the hinted predecessor; the second component counts the loads. -/
def tryInsertAfterHint (b : Book) (side : LimitOrderSide) (head : Option OrderId)
    (hintId : OrderId) (newPrice : Decimal) (newId : OrderId) : HintInsertOutcome × ℕ :=
  match b.orderOnSide side hintId with
  | none => (.headWalk, 1)
  | some hint =>
      if hint.prev = none ∧ head ≠ some hintId then (.headWalk, 1)
      else if ¬before side hint.price hintId newPrice newId then (.walkTowardHead hintId, 1)
      else
        match hint.next with
        | none => (.ready (some hintId) none none, 1)
        | some nextId =>
            match b.orderOnSide side nextId with
            | none => (.walkTowardTail hintId, 2)
            | some next =>
                if ¬before side newPrice newId next.price nextId then (.walkTowardTail nextId, 2)
                else (.ready (some hintId) (some nextId) (some next.price), 2)

section Walks

variable (b : Book) (side : LimitOrderSide) (newPrice : Decimal) (newId : OrderId) (maxSteps : ℕ)

/-- Walk towards the tail. The recursion is on the steps left of the caller's budget. -/
def walkInsertFrom : ℕ → Option OrderId → Option OrderId → Except ContractError InsertFindResult
  | _, prev, none => .ok (insertFindResult prev none none)
  | 0, _, some _ => .error (.limitInsertStepsExceeded maxSteps)
  | left + 1, _, some cid => do
      let ord ← b.load cid
      if before side newPrice newId ord.price cid then
        .ok (insertFindResult ord.prev (some cid) (some ord.price))
      else
        walkInsertFrom left (some cid) ord.next

def walkInsertFromHead (left : ℕ) (head : Option OrderId) :
    Except ContractError InsertFindResult :=
  walkInsertFrom b side newPrice newId maxSteps left none head

/-- Walk towards the head from a hint that the new order sorts before. -/
def walkInsertTowardHead (hintId : OrderId) :
    ℕ → Option OrderId → Except ContractError InsertFindResult
  | _, none => .ok (insertFindResult none (some hintId) none)
  | 0, some _ => .error (.limitInsertStepsExceeded maxSteps)
  | left + 1, some cid => do
      let ord ← b.load cid
      if before side newPrice newId ord.price cid then
        match ord.prev with
        | some prevId =>
            let prevOrd ← b.load prevId
            if before side prevOrd.price prevId newPrice newId then
              .ok (insertFindResult (some prevId) (some cid) (some ord.price))
            else
              walkInsertTowardHead hintId left (some prevId)
        | none => .ok (insertFindResult none (some cid) (some ord.price))
      else
        walkInsertTowardHead hintId left ord.prev

/-- The walks that follow when the thread cursor does not apply. -/
def findInsertByHint (head hintAfter : Option OrderId) :
    Except ContractError InsertFindResult :=
  match hintAfter with
  | none => walkInsertFromHead b side newPrice newId maxSteps maxSteps head
  | some hintId =>
      match tryInsertAfterHint b side head hintId newPrice newId with
      | (.ready prev next nextPrice, _) => .ok (insertFindResult prev next nextPrice)
      | (.walkTowardHead hintId, steps) =>
          walkInsertTowardHead b side newPrice newId maxSteps hintId (maxSteps - steps)
            (some hintId)
      | (.walkTowardTail startId, steps) =>
          walkInsertFrom b side newPrice newId maxSteps (maxSteps - steps) none (some startId)
      | (.headWalk, steps) =>
          walkInsertFromHead b side newPrice newId maxSteps (maxSteps - steps) head

def findInsert (head : Option OrderId) (threadCursor : Option InsertThreadCursor)
    (hintAfter : Option OrderId) : Except ContractError InsertFindResult :=
  match threadCursor.bind fun cursor => tryInsertAfterThreadCursor side cursor newPrice newId with
  | some found => .ok found
  | none => findInsertByHint b side newPrice newId maxSteps head hintAfter

/-- Where a new or relinked order goes: an empty side needs no search. -/
def insertNeighbors (threadCursor : Option InsertThreadCursor) (hintAfter : Option OrderId) :
    Except ContractError InsertFindResult :=
  match b.head side with
  | none => .ok (insertFindResult none none none)
  | some h => findInsert b side newPrice newId maxSteps (some h) threadCursor hintAfter

end Walks

/-- The predecessor, or the head when there is none, points at the new order. -/
def Book.linkPrev (b : Book) (id : OrderId) (side : LimitOrderSide) (prev : Option OrderId) :
    Except ContractError Book :=
  match prev with
  | some p => b.updateOrder p "prev neighbor" fun x => { x with next := some id }
  | none => .ok (b.saveHead side (some id))

/-- Store an order between two neighbours and make them point at it. -/
def Book.linkOrder (b : Book) (id : OrderId) (terms : OrderTerms) (prev next : Option OrderId) :
    Except ContractError Book := do
  let b := b.save id ⟨terms, ⟨prev, next⟩⟩
  let b ← b.linkPrev id terms.side prev
  b.updateNeighbor next "next neighbor" fun x => { x with prev := some id }

/-- The body shared by the four insert functions. -/
def insertOrder (b : Book) (id : OrderId) (terms : OrderTerms)
    (threadCursor : Option InsertThreadCursor) (hintAfter : Option OrderId)
    (maxAdjustSteps : ℕ) : Except ContractError (Book × BatchInsertOutcome) := do
  let maxSteps := min maxAdjustSteps maxAdjustStepsHardCap
  let found ← insertNeighbors b terms.side terms.price id maxSteps threadCursor hintAfter
  let b ← b.linkOrder id terms found.prev found.next
  return (b, ⟨id, nextThreadCursor id terms.price found⟩)

def insertBidWithIdForBatch (b : Book) (id : OrderId) (price : Decimal) (remainingToken1 : ℕ)
    (owner : Addr) (threadCursor : Option InsertThreadCursor) (hintAfter : Option OrderId)
    (maxAdjustSteps : ℕ) (expiresAt : Option ℕ) :
    Except ContractError (Book × BatchInsertOutcome) :=
  insertOrder b id ⟨owner, price, remainingToken1, .bid, expiresAt⟩ threadCursor hintAfter
    maxAdjustSteps

def insertAskWithIdForBatch (b : Book) (id : OrderId) (price : Decimal) (remainingToken0 : ℕ)
    (owner : Addr) (threadCursor : Option InsertThreadCursor) (hintAfter : Option OrderId)
    (maxAdjustSteps : ℕ) (expiresAt : Option ℕ) :
    Except ContractError (Book × BatchInsertOutcome) :=
  insertOrder b id ⟨owner, price, remainingToken0, .ask, expiresAt⟩ threadCursor hintAfter
    maxAdjustSteps

/-- Take an order out of its list: the head, then both neighbours. -/
def Book.bypassOrder (b : Book) (id : OrderId) (order : LimitOrder) :
    Except ContractError Book := do
  let b := if b.head order.side = some id then b.saveHead order.side order.next else b
  let b ← b.updateNeighbor order.prev "prev" fun x => { x with next := order.next }
  b.updateNeighbor order.next "next" fun x => { x with prev := order.prev }

def unlinkOrder (b : Book) (id : OrderId) : Except ContractError (Book × LimitOrder) := do
  let order ← b.load id
  let b ← b.bypassOrder id order
  return (b.remove id, order)

def detachLimitOrderFromBook (b : Book) (id : OrderId) :
    Except ContractError (Book × LimitOrder) := do
  let order ← b.load id
  let b ← b.bypassOrder id order
  let detached := { order with prev := none, next := none }
  return (b.save id detached, detached)

/-- `link_bid_order_at_id` and `link_ask_order_at_id`, by the side of the order. -/
def linkOrderAtId (b : Book) (id : OrderId) (terms : OrderTerms) (hintAfter : Option OrderId)
    (maxAdjustSteps : ℕ) (sortId : OrderId) : Except ContractError Book := do
  let maxSteps := min maxAdjustSteps maxAdjustStepsHardCap
  let found ← insertNeighbors b terms.side terms.price sortId maxSteps none hintAfter
  b.linkOrder id terms found.prev found.next

def relinkLimitOrderPrice (b : Book) (id : OrderId) (newPrice : Decimal)
    (hintAfter : Option OrderId) (maxAdjustSteps : ℕ) : Except ContractError Book := do
  let existing ← b.load id
  if existing.price = newPrice then
    return b
  else
    let (b, order) ← detachLimitOrderFromBook b id
    linkOrderAtId b id { order.toOrderTerms with price := newPrice } hintAfter maxAdjustSteps
      relinkEqualPriceSortId

end Cl8yDex
