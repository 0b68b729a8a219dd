import Cl8yDex.BookSnapshot

/-!
# The snapshot jobs

The jobs that fill the tables, as programs of requests, and what the chain and the database may
answer. A query that is pinned to a height is answered from the pair's storage at that height or
fails; the clock and the outcome of a failing statement are free.
-/

namespace Cl8yDex.BookSnapshot

open DecimalText Interleaving

section Responses

/-- The asset of a pool response, whose amount is text. -/
structure PoolAsset where
  info : AssetInfo
  amount : String

structure PoolResponse where
  asset0 : PoolAsset
  asset1 : PoolAsset

/-- A side as it is decoded, before its label is read. -/
inductive SideValue
  | text (label : String)
  | object (keys : List String)
  | other

structure ChainLimitOrderRow where
  orderId : ℕ
  owner : String
  side : SideValue
  price : String
  remaining : String
  expiresAt : Option ℕ
  next : Option ℕ

structure PairRow where
  asset0Id : ℤ
  asset1Id : ℤ

end Responses

inductive Request
  | utcNow
  | pool (height : Option ℤ)
  | getFeeConfig (height : ℤ)
  | orderBookHead (side : String) (height : ℤ)
  | limitOrder (orderId : ℕ) (height : ℤ)
  | getAssetById (assetId : ℤ)
  | getPairReserves
  | selectFee (height : ℤ)
  | upsertPoolObservation (reserve0 reserve1 : ℚ) (height : Option ℤ) (observedAt : ℤ)
  | applyCachedFee (height fee : ℤ)
  | publishFee (height fee observedAt : ℤ)
  | publishHybrid (observation : PairReservesRow) (feeBps : ℤ) (orders : List RestingOrderInput)

@[reducible] def Request.Answer : Request → Type
  | utcNow => ℤ
  | pool _ => Except LcdError PoolResponse
  | getFeeConfig _ => Except LcdError ℕ
  | orderBookHead _ _ => Except LcdError (Option ℕ)
  | limitOrder _ _ => Except LcdError ChainLimitOrderRow
  | getAssetById _ => Except SnapshotError (Option AssetRow)
  | getPairReserves => Except SnapshotError (Option PairReservesRow)
  | selectFee _ => Except SnapshotError (Option ℤ)
  | upsertPoolObservation .. => Except SnapshotError Bool
  | applyCachedFee .. => Except SnapshotError Unit
  | publishFee .. => Except SnapshotError Unit
  | publishHybrid .. => Except SnapshotError Unit

abbrev Job := Program Request Request.Answer SnapshotError

section Jobs

open Program (request fail)

def ofSql {α : Type} : Except SnapshotError α → Job α
  | .ok a => pure a
  | .error e => fail e

def ofLcd {α : Type} : Except LcdError α → Job α
  | .ok a => pure a
  | .error e => fail (.lcd e)

def refuse {α : Type} (msg : String) : Job α := fail (.text msg)

-- `BigDecimal::from_str`
variable (fromStr : String → Option ℚ)

def parseDecimalAmount (raw label : String) : Except SnapshotError ℚ :=
  match fromStr raw with
  | some amount => .ok amount
  | none => .error (.text ("invalid " ++ label ++ " amount " ++ raw))

def parseReserveAmount (raw : String) : Except SnapshotError ℚ :=
  if 39 < byteLength raw.toList ∨ ¬ isDigits raw.toList then
    .error (.text "invalid Uint128 reserve amount")
  else if u128Max < value raw.toList then .error (.text "reserve amount exceeds Uint128")
  else parseDecimalAmount fromStr raw "reserve"

def parseBookPrice (raw : String) : Except SnapshotError ℚ := do
  if raw.isEmpty ∨ 96 < byteLength raw.toList ∨ ¬ raw.toList.all (fun c => c.isDigit ∨ c = '.') then
    .error (.text "invalid book price representation")
  else
    let price ← parseDecimalAmount fromStr raw "price"
    if price ≤ 0 then .error (.text "book price must be positive") else .ok price

def AssetRow.matchesInfo (contractText : Addr → String) (expected : AssetRow) : AssetInfo → Bool
  | .nativeToken denom => !expected.isCw20 && expected.denom = some denom
  | .token contract => expected.isCw20 && expected.contractAddress = some (contractText contract)

def checkPairAsset (contractText : Addr → String) (assetId : ℤ) (asset : PoolAsset) : Job Unit := do
  match ← ofSql (← request (.getAssetById assetId)) with
  | none => refuse "missing pair asset"
  | some expected =>
    if expected.matchesInfo contractText asset.info then pure ()
    else refuse "pool asset identity/order does not match indexed pair"

def observedFee (height : ℤ) : Job ℤ := do
  match ← ofSql (← request (.selectFee height)) with
  | some fee =>
    if ¬ (0 ≤ fee ∧ fee ≤ 10000) then refuse "invalid cached pair fee_bps"
    else
      let applied ← request (.applyCachedFee height fee)
      let _ ← ofSql applied
      pure fee
  | none =>
    let observedAt ← request .utcNow
    let answer : Except LcdError ℕ ← request (Request.getFeeConfig height)
    let feeBps ← ofLcd answer
    if 10000 < feeBps then refuse "invalid pair fee_bps"
    else
      let published ← request (.publishFee height feeBps observedAt)
      let _ ← ofSql published
      pure feeBps

def observePool (contractText : Addr → String) (pair : PairRow) (blockHeight : Option ℤ)
    (observedAt : ℤ) : Job Unit := do
  let response ← ofLcd (← request (.pool blockHeight))
  checkPairAsset contractText pair.asset0Id response.asset0
  checkPairAsset contractText pair.asset1Id response.asset1
  let reserve0 ← ofSql (parseReserveAmount fromStr response.asset0.amount)
  let reserve1 ← ofSql (parseReserveAmount fromStr response.asset1.amount)
  let taken ← ofSql (← request (.upsertPoolObservation reserve0 reserve1 blockHeight observedAt))
  if taken = false then refuse "older or unknown-height pool observation rejected"
  else
    match blockHeight with
    | none => pure ()
    | some height => do
      let _ ← observedFee height
      pure ()

def maxI64 : ℕ := 2 ^ 63 - 1

def chainSideLabel : SideValue → String
  | .text label => label
  | .object keys => keys.headD "unknown"
  | .other => "unknown"

def eqIgnoreAsciiCase (a b : String) : Bool :=
  a.toList.map Char.toLower = b.toList.map Char.toLower

/-- The row of an order that was asked for as one of a side. -/
def restingOrder (sideLabel : String) (orderId : ℕ) (row : ChainLimitOrderRow) :
    Except SnapshotError RestingOrderInput := do
  if row.orderId ≠ orderId ∨ 128 < byteLength row.owner.toList ∨
      row.expiresAt.any (fun v => maxI64 < v) then
    .error (.text "invalid limit_order identity or expiry")
  else if ¬ eqIgnoreAsciiCase (chainSideLabel row.side) sideLabel then
    .error (.text "order side does not match requested side")
  else
    let price ← parseBookPrice fromStr row.price
    let remaining ← parseReserveAmount fromStr row.remaining
    return ⟨row.orderId, sideLabel, price, remaining, some row.owner,
      row.expiresAt.map fun v : ℕ => (v : ℤ)⟩

def containsText (pattern text : List Char) : Bool := text.tails.any pattern.isPrefixOf

def LcdError.missingKey : LcdError → Bool
  | allEndpointsFailed msg => containsText "not found".toList msg.toList
  | contractQueryRejected msg => containsText "not found".toList msg.toList
  | other => false

def fetchLimitOrder (orderId : ℕ) (height : ℤ) : Job (Option ChainLimitOrderRow) := do
  let answer : Except LcdError ChainLimitOrderRow ←
    request (Request.limitOrder orderId height)
  match answer with
  | .ok row => pure (some row)
  | .error e => if e.missingKey then pure none else fail (.lcd e)

def maxOrdersPerSide : ℕ := 1000

/-- The walk from `current` on, with what is left of the budget of orders. -/
def walkFrom (sideLabel : String) (height : ℤ) :
    ℕ → Option ℕ → List ℕ → List RestingOrderInput → Job (List RestingOrderInput)
  | _, none, _, orders => pure orders
  | 0, some _, _, _ => refuse "resting book exceeds per-side snapshot budget"
  | budget + 1, some oid, seen, orders =>
    if maxI64 < oid then refuse "order_id exceeds database range"
    else if oid ∈ seen then refuse "broken book link: cycle"
    else do
      match ← fetchLimitOrder oid height with
      | none => refuse "broken book link: limit_order missing"
      | some row =>
        let order ← ofSql (restingOrder fromStr sideLabel oid row)
        walkFrom sideLabel height budget row.next (oid :: seen) (orders ++ [order])

def walkRestingBookSide (sideLabel : String) (height : ℤ) : Job (List RestingOrderInput) := do
  let head ← ofLcd (← request (.orderBookHead sideLabel height))
  walkFrom fromStr sideLabel height maxOrdersPerSide head [] []

def observeBook (maxStalenessMs : ℤ) : Job Unit := do
  match ← ofSql (← request .getPairReserves) with
  | none => refuse "pool observation unavailable"
  | some observation =>
    let now ← request .utcNow
    if now < observation.snapshotAt then refuse "pool observation stale for hybrid generation"
    else
      let later ← request .utcNow
      if maxStalenessMs < (later - observation.snapshotAt).tdiv 1000 then
        refuse "pool observation stale for hybrid generation"
      else
        match observation.blockHeight with
        | none => refuse "unknown-height pool cannot form a compatible hybrid generation"
        | some height =>
          match ← ofSql (← request (.selectFee height)) with
          | none => refuse "compatible cached fee unavailable for hybrid generation"
          | some feeBps =>
            let bids ← walkRestingBookSide fromStr "bid" height
            let asks ← walkRestingBookSide fromStr "ask" height
            let published ← request (.publishHybrid observation feeBps (bids ++ asks))
            ofSql published

/-- What the lanes start for the pair, and the fee read by itself. -/
inductive Starts (contractText : Addr → String) : Job Unit → Prop
  | pool (pair : PairRow) (blockHeight : Option ℤ) (observedAt : ℤ) :
      Starts contractText (observePool fromStr contractText pair blockHeight observedAt)
  | fee (height : ℤ) : Starts contractText (observedFee height >>= fun _ => pure ())
  | book (maxStalenessMs : ℤ) : Starts contractText (observeBook fromStr maxStalenessMs)

end Jobs

section Answers

variable (contractText : Addr → String)

/-- The pair's answers, as the text they are sent in. -/
def queryPool (p : PairStorage) : PoolResponse where
  asset0 := ⟨.token p.pairInfo.token0, toString p.reserves.1⟩
  asset1 := ⟨.token p.pairInfo.token1, toString p.reserves.2⟩

def queryLimitOrder (p : PairStorage) (orderId : ℕ) : Option ChainLimitOrderRow :=
  (p.book.orders orderId).map fun o =>
    { orderId := orderId
      owner := contractText o.owner
      side := .text o.side.sideStr
      price := WasmEvents.decimalText o.price
      remaining := toString o.remaining
      expiresAt := o.expiresAt
      next := o.next }

def queryOrderBookHead (p : PairStorage) (sideLabel : String) : Option (Option ℕ) :=
  if sideLabel = "bid" then some (p.book.head .bid)
  else if sideLabel = "ask" then some (p.book.head .ask) else none

/-- A statement answers or fails, and then it changes nothing. -/
def Performed {α : Type} (run : ℤ → Database → Except SnapshotError (α × Database))
    (db : Database) (a : Except SnapshotError α) (db' : Database) : Prop :=
  (∃ now v, run now db = .ok (v, db') ∧ a = .ok v) ∨ (∃ e, a = .error e) ∧ db' = db

/-- A statement that only reads. -/
def Selected {α : Type} (run : ℤ → Database → α) (db : Database) (a : Except SnapshotError α)
    (db' : Database) : Prop :=
  db' = db ∧ ∀ v, a = .ok v → ∃ now, v = run now db

def toUnit (r : Except SnapshotError Database) : Except SnapshotError (Unit × Database) :=
  r.map fun db => ((), db)

/-- What may be answered, and what becomes of the tables; `chain` is the pair at each height. -/
def Serves (chain : ℤ → PairStorage) : (r : Request) → Database → r.Answer → Database → Prop
  | .utcNow, db, _, db' => db' = db
  | .pool height, db, a, db' =>
      db' = db ∧ ∀ h response, height = some h → a = .ok response → response = queryPool (chain h)
  | .getFeeConfig height, db, a, db' =>
      db' = db ∧ ∀ fee, a = .ok fee → fee = (chain height).feeConfig.feeBps
  | .orderBookHead side height, db, a, db' =>
      db' = db ∧ ∀ head, a = .ok head → queryOrderBookHead (chain height) side = some head
  | .limitOrder orderId height, db, a, db' =>
      db' = db ∧ ∀ row, a = .ok row →
        queryLimitOrder contractText (chain height) orderId = some row
  | .getAssetById assetId, db, a, db' => Selected (fun _ db => db.assets assetId) db a db'
  | .getPairReserves, db, a, db' => Selected (fun _ db => db.pairReserves) db a db'
  | .selectFee height, db, a, db' => Selected (fun now db => selectFee now height db) db a db'
  | .upsertPoolObservation r0 r1 height observedAt, db, a, db' =>
      Performed (fun _ db => upsertPoolObservation r0 r1 height observedAt db) db a db'
  | .applyCachedFee height fee, db, a, db' =>
      Performed (fun now db => toUnit (applyCachedFee now height fee db)) db a db'
  | .publishFee height fee observedAt, db, a, db' =>
      Performed (fun now db => toUnit (publishFee now height fee observedAt db)) db a db'
  | .publishHybrid observation fee orders, db, a, db' =>
      Performed (fun now db => toUnit (publishHybrid now observation fee orders db)) db a db'

end Answers

end Cl8yDex.BookSnapshot
