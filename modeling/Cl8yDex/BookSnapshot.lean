import Cl8yDex.EventAmounts
import Cl8yDex.Interleaving
import Cl8yDex.Pair
import Mathlib.Data.Rat.Floor

/-!
# Snapshots of a pool and of its book

The indexer mirrors a pair in its database: a row for the pool, a cached fee, and a hybrid row with
the resting orders of the same height. One job reads the pool and then the fee, another reads the
book at the height of the last pool row; each query to the chain and each statement or transaction
of the database is one request. Times are microseconds.
-/

namespace Cl8yDex.BookSnapshot

open DecimalText Interleaving

section Tables

structure PairReservesRow where
  reserve0 : ℚ
  reserve1 : ℚ
  feeBps : ℤ
  blockHeight : Option ℤ
  snapshotAt : ℤ
  deriving DecidableEq

structure FeeObservation where
  feeBps : ℤ
  observedAt : ℤ
  blockHeight : ℤ
  deriving DecidableEq

structure RestingOrderInput where
  orderId : ℤ
  side : String
  price : ℚ
  remaining : ℚ
  owner : Option String
  expiresAt : Option ℤ
  deriving DecidableEq

structure RestingLimitOrder extends RestingOrderInput where
  blockHeight : Option ℤ
  snapshotAt : ℤ
  walkIndex : ℤ
  deriving DecidableEq

structure AssetRow where
  isCw20 : Bool
  denom : Option String
  contractAddress : Option String

/-- The tables, less the rows of other pairs. -/
structure Database where
  assets : ℤ → Option AssetRow
  pairReserves : Option PairReservesRow
  feeObservation : Option FeeObservation
  hybridReserves : Option PairReservesRow
  restingOrders : List RestingLimitOrder

inductive LcdError
  | allEndpointsFailed (msg : String)
  | contractQueryRejected (msg : String)
  | other

inductive SnapshotError
  | lcd (e : LcdError)
  | sql (msg : String)
  | text (msg : String)

/-- What a `NUMERIC` column of this precision and scale stores, rounded half away from zero. -/
def numeric (precision scale : ℕ) (x : ℚ) : Except SnapshotError ℚ :=
  let rounded : ℚ := (if 0 ≤ x then ⌊x * 10 ^ scale + 1 / 2⌋ else -⌊-x * 10 ^ scale + 1 / 2⌋ : ℤ)
  if |rounded| < 10 ^ precision then .ok (rounded / 10 ^ scale)
  else .error (.sql "numeric field overflow")

/-- The rule of the upserts: strictly later, and not below a known height. -/
def PairReservesRow.supersedes (row old : PairReservesRow) : Prop :=
  old.snapshotAt < row.snapshotAt ∧
    ∀ h, old.blockHeight = some h → ∃ h', row.blockHeight = some h' ∧ h ≤ h'

instance (row old : PairReservesRow) : Decidable (row.supersedes old) :=
  have : Decidable (∀ h, old.blockHeight = some h → ∃ h', row.blockHeight = some h' ∧ h ≤ h') :=
    match old.blockHeight, row.blockHeight with
    | none, _ => isTrue fun _ h => nomatch h
    | some h, none => isFalse fun hall => nomatch (hall h rfl).choose_spec.1
    | some h, some h' => decidable_of_iff (h ≤ h') (by simp)
  inferInstanceAs (Decidable (_ ∧ _))

/-- `INSERT .. ON CONFLICT (pair_id) DO UPDATE .. WHERE`, with whether a row was affected. -/
def upsert (table : Option PairReservesRow) (row : PairReservesRow) :
    Bool × Option PairReservesRow :=
  match table with
  | none => (true, some row)
  | some old => if row.supersedes old then (true, some row) else (false, some old)

def feeCacheMicros : ℤ := 60 * 10 ^ 6

/-- The fee that was observed at a height within the last minute. -/
def selectFee (now height : ℤ) (db : Database) : Option ℤ :=
  (db.feeObservation.filter fun o =>
    o.blockHeight = height ∧ o.observedAt ≤ now ∧ now - feeCacheMicros ≤ o.observedAt).map
      FeeObservation.feeBps

def upsertPoolObservation (reserve0 reserve1 : ℚ) (blockHeight : Option ℤ) (observedAt : ℤ)
    (db : Database) : Except SnapshotError (Bool × Database) := do
  let reserve0 ← numeric 39 0 reserve0
  let reserve1 ← numeric 39 0 reserve1
  let fee := (blockHeight.bind fun height => selectFee observedAt height db).getD (-1)
  let (admitted, rows) := upsert db.pairReserves ⟨reserve0, reserve1, fee, blockHeight, observedAt⟩
  return (admitted, { db with pairReserves := rows })

/-- How many rows take the fee, which must still be the current one of that height. -/
def applyCompatibleFee (now height fee : ℤ) (db : Database) :
    Except SnapshotError (ℕ × Database) :=
  if ¬ (0 ≤ fee ∧ fee ≤ 10000) then .error (.text "invalid pair fee_bps")
  else if (selectFee now height db).filter (fun current => current = fee) ≠ some fee then
    .ok (0, db)
  else
    match db.pairReserves with
    | none => .ok (0, db)
    | some row =>
      if row.blockHeight = some height then
        .ok (1, { db with pairReserves := some { row with feeBps := fee } })
      else .ok (0, db)

/-- The transaction for a cached fee. -/
def applyCachedFee (now height fee : ℤ) (db : Database) : Except SnapshotError Database := do
  let (rows, db) ← applyCompatibleFee now height fee db
  if rows = 0 then .error (.text "compatible cached fee changed before application")
  else .ok db

def insertFeeObservation (row : FeeObservation) (db : Database) :
    Except SnapshotError Database :=
  if ¬ (0 ≤ row.feeBps ∧ row.feeBps ≤ 10000 ∧ 0 < row.blockHeight) then
    .error (.sql "check constraint")
  else
    match db.feeObservation with
    | none => .ok { db with feeObservation := some row }
    | some old =>
      if old.observedAt ≤ row.observedAt ∧ old.blockHeight ≤ row.blockHeight then
        .ok { db with feeObservation := some row }
      else .ok db

/-- The transaction for a fee that was just read. -/
def publishFee (now height fee observedAt : ℤ) (db : Database) :
    Except SnapshotError Database := do
  let db ← insertFeeObservation ⟨fee, observedAt, height⟩ db
  let (rows, db) ← applyCompatibleFee now height fee db
  if rows = 0 then .error (.text "compatible fee observation changed before application")
  else .ok db

def insertRestingOrder (now : ℤ) (blockHeight : Option ℤ) (table : List RestingLimitOrder)
    (row : RestingOrderInput × ℕ) : Except SnapshotError (List RestingLimitOrder) := do
  let (o, walkIndex) := row
  let price ← numeric 39 18 o.price
  let remaining ← numeric 39 0 o.remaining
  if ¬ (o.side = "bid" ∨ o.side = "ask") then .error (.sql "check constraint")
  else if o.owner.any fun owner => 64 < owner.length then .error (.sql "value too long")
  else if table.any fun other => other.orderId = o.orderId then .error (.sql "duplicate key")
  else .ok (table ++
    [{ o with
      price := price, remaining := remaining, blockHeight := blockHeight, snapshotAt := now
      walkIndex := walkIndex }])

/-- All rows go, and the orders are written in the order they were walked. -/
def replacePairRestingOrders (now : ℤ) (blockHeight : Option ℤ) (orders : List RestingOrderInput) :
    Except SnapshotError (List RestingLimitOrder) :=
  orders.zipIdx.foldlM (insertRestingOrder now blockHeight) []

/-- The transaction for a hybrid generation, which replaces the book only if it is taken. -/
def publishHybrid (now : ℤ) (observation : PairReservesRow) (feeBps : ℤ)
    (orders : List RestingOrderInput) (db : Database) : Except SnapshotError Database :=
  let (admitted, rows) := upsert db.hybridReserves { observation with feeBps := feeBps }
  if admitted then do
    let table ← replacePairRestingOrders now observation.blockHeight orders
    return { db with hybridReserves := rows, restingOrders := table }
  else .ok { db with hybridReserves := rows }

/-- The resting book of one side, in the order of the walk. -/
def getPairRestingBook (side : String) (table : List RestingLimitOrder) :
    List RestingLimitOrder :=
  (table.filter fun row => row.side = side).mergeSort fun a b => a.walkIndex ≤ b.walkIndex

end Tables

end Cl8yDex.BookSnapshot
