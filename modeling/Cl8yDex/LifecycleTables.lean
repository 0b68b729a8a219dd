import Cl8yDex.OrderReports
import Cl8yDex.LifecycleParsers
import Cl8yDex.RetriedRuns

/-!
# The tables of placements and cancellations

The indexer keeps a row for each placement, moved on when the order is parked and when its escrow
is claimed, and a row for each cancellation. Rows are told apart by transaction, pair and order, so
an attempt at a block can be repeated.
-/

namespace Cl8yDex

namespace WasmEvents

/-- `lifecycle_status` -/
inductive LifecycleStatus
  | active
  | parkedExpired
  | refunded
  deriving DecidableEq

/-- The block and the hash of a transaction, as rows store them. -/
structure TxPlace where
  blockHeight : ℤ
  blockTimestamp : ℤ
  txHash : String

structure PlacementRow where
  pairId : ℤ
  placedIn : TxPlace
  orderId : ℤ
  owner : Option String
  side : Option String
  price : Option ℚ
  expiresAt : Option ℤ
  lifecycleStatus : LifecycleStatus
  remainingEscrow : Option ℕ
  parkedIn : Option TxPlace
  refundedIn : Option TxPlace

structure CancellationRow where
  pairId : ℤ
  cancelledIn : TxPlace
  orderId : ℤ
  owner : Option String

def PlacementRow.isOf (pairId orderId : ℤ) (row : PlacementRow) : Bool :=
  row.pairId = pairId && row.orderId = orderId

def CancellationRow.isOf (pairId orderId : ℤ) (row : CancellationRow) : Bool :=
  row.pairId = pairId && row.orderId = orderId

namespace PlacementRow

variable (pairId orderId : ℤ) (tx : TxPlace)

/-- `active → parked_expired`, for a row of the order. -/
def park (remaining : ℕ) (row : PlacementRow) : PlacementRow :=
  if row.isOf pairId orderId && row.lifecycleStatus = .active then
    { row with
      lifecycleStatus := .parkedExpired
      remainingEscrow := some remaining
      parkedIn := some tx }
  else row

/-- `parked_expired → refunded`, for a row of the order. -/
def refund (row : PlacementRow) : PlacementRow :=
  if row.isOf pairId orderId && row.lifecycleStatus = .parkedExpired then
    { row with lifecycleStatus := .refunded, refundedIn := some tx }
  else row

end PlacementRow

structure LifecycleTables where
  placements : List PlacementRow
  cancellations : List CancellationRow

namespace LifecycleTables

variable (tables : LifecycleTables)

/-- `ON CONFLICT (tx_hash, pair_id, order_id) DO NOTHING` -/
def insertPlacement (pairId : ℤ) (tx : TxPlace) (orderId : ℤ) (owner side : Option String)
    (price : Option ℚ) (expiresAt : Option ℤ) : LifecycleTables :=
  if tables.placements.any fun row => row.isOf pairId orderId && row.placedIn.txHash = tx.txHash
  then tables
  else { tables with placements := tables.placements ++
    [⟨pairId, tx, orderId, owner, side, price, expiresAt, .active, none, none, none⟩] }

def insertCancellation (pairId : ℤ) (tx : TxPlace) (orderId : ℤ) (owner : Option String) :
    LifecycleTables :=
  if tables.cancellations.any fun row =>
    row.isOf pairId orderId && row.cancelledIn.txHash = tx.txHash
  then tables
  else { tables with cancellations := tables.cancellations ++ [⟨pairId, tx, orderId, owner⟩] }

def applyParkedExpired (pairId orderId : ℤ) (tx : TxPlace) (remaining : ℕ) : LifecycleTables :=
  { tables with
    placements := tables.placements.map (PlacementRow.park pairId orderId tx remaining) }

def applyClaimRefund (pairId orderId : ℤ) (tx : TxPlace) : LifecycleTables :=
  { tables with placements := tables.placements.map (PlacementRow.refund pairId orderId tx) }

end LifecycleTables

inductive PlacementLifecycleFilter
  | defaultOpen
  | activeOnly
  | parkedExpiredOnly
  | refundedOnly
  | all

def PlacementLifecycleFilter.grants : PlacementLifecycleFilter → LifecycleStatus → Bool
  | defaultOpen, status => status = .active || status = .parkedExpired
  | activeOnly, status => status = .active
  | parkedExpiredOnly, status => status = .parkedExpired
  | refundedOnly, status => status = .refunded
  | all, _ => true

/-- The placements of a pair that are not cancelled, before they are paged. -/
def LifecycleTables.listPlacementsForPair (tables : LifecycleTables) (pairId : ℤ)
    (lifecycle : PlacementLifecycleFilter) : List PlacementRow :=
  tables.placements.filter fun row => row.pairId = pairId &&
    !(tables.cancellations.any fun c => c.isOf row.pairId row.orderId) &&
    lifecycle.grants row.lifecycleStatus

/-- The pairs that the indexer stores or discovers, by address. -/
structure KnownPairs where
  id : String → Option ℤ
  inj : ∀ a b i, id a = some i → id b = some i → a = b

section Processing

variable (known : KnownPairs) (tx : TxPlace)

def processLimitOrderPlacement (tables : LifecycleTables) (p : ParsedLimitOrderPlacement) :
    LifecycleTables :=
  match known.id p.pairAddress with
  | none => tables
  | some pairId =>
    tables.insertPlacement pairId tx p.orderId p.owner p.side p.price p.expiresAt

def processLimitOrderCancellation (tables : LifecycleTables) (c : ParsedLimitOrderCancellation) :
    LifecycleTables :=
  match known.id c.pairAddress with
  | none => tables
  | some pairId => tables.insertCancellation pairId tx c.orderId c.owner

def processLimitOrderExpiredParked (tables : LifecycleTables)
    (p : ParsedLimitOrderExpiredParked) : LifecycleTables :=
  match known.id p.pairAddress with
  | none => tables
  | some pairId => tables.applyParkedExpired pairId p.orderId tx p.remaining

def processClaimExpiredLimitOrder (tables : LifecycleTables) (c : ParsedClaimExpiredLimitOrder) :
    LifecycleTables :=
  match known.id c.pairAddress with
  | none => tables
  | some pairId => tables.applyClaimRefund pairId c.orderId tx

/-- What `process_block_txs` does to the tables for one transaction. -/
def processLifecycle (tables : LifecycleTables) (response : TxResponse) : LifecycleTables :=
  let tables := (parseLimitOrderPlacements response).foldl (processLimitOrderPlacement known tx)
    tables
  let tables := (parseLimitOrderCancellations response).foldl
    (processLimitOrderCancellation known tx) tables
  let tables := (parseLimitOrderExpiredParked response).foldl
    (processLimitOrderExpiredParked known tx) tables
  (parseClaimExpiredLimitOrders response).foldl (processClaimExpiredLimitOrder known tx) tables

end Processing

/-- What one row of a parser asks of the tables. -/
inductive LifecycleChange
  | placed (owner side : Option String) (price : Option ℚ) (expiresAt : Option ℤ)
  | cancelled (owner : Option String)
  | parked (remaining : ℕ)
  | claimed

structure LifecycleOp where
  tx : TxPlace
  pairAddress : String
  orderId : ℤ
  change : LifecycleChange

def LifecycleTables.change (tables : LifecycleTables) (pairId orderId : ℤ) (tx : TxPlace) :
    LifecycleChange → LifecycleTables
  | .placed owner side price expiresAt =>
    tables.insertPlacement pairId tx orderId owner side price expiresAt
  | .cancelled owner => tables.insertCancellation pairId tx orderId owner
  | .parked remaining => tables.applyParkedExpired pairId orderId tx remaining
  | .claimed => tables.applyClaimRefund pairId orderId tx

def LifecycleOp.apply (known : KnownPairs) (tables : LifecycleTables) (op : LifecycleOp) :
    LifecycleTables :=
  match known.id op.pairAddress with
  | none => tables
  | some pairId => tables.change pairId op.orderId op.tx op.change

/-- The operations of a transaction in the order of `process_block_txs`. -/
def lifecycleOps (tx : TxPlace) (response : TxResponse) : List LifecycleOp :=
  (parseLimitOrderPlacements response).map (fun p =>
    ⟨tx, p.pairAddress, p.orderId, .placed p.owner p.side p.price p.expiresAt⟩) ++
  (parseLimitOrderCancellations response).map (fun c =>
    ⟨tx, c.pairAddress, c.orderId, .cancelled c.owner⟩) ++
  (parseLimitOrderExpiredParked response).map (fun p =>
    ⟨tx, p.pairAddress, p.orderId, .parked p.remaining⟩) ++
  (parseClaimExpiredLimitOrders response).map fun c => ⟨tx, c.pairAddress, c.orderId, .claimed⟩

theorem processLifecycle_eq (known : KnownPairs) (tx : TxPlace) (tables : LifecycleTables)
    (response : TxResponse) : processLifecycle known tx tables response =
      (lifecycleOps tx response).foldl (LifecycleOp.apply known) tables := by
  unfold lifecycleOps
  rw [List.foldl_append, List.foldl_append, List.foldl_append, List.foldl_map, List.foldl_map,
    List.foldl_map, List.foldl_map]
  rfl

/-- A change that the tables already show. -/
def LifecycleTables.Settled (tables : LifecycleTables) (pairId orderId : ℤ) (tx : TxPlace) :
    LifecycleChange → Prop
  | .placed .. => ∃ row ∈ tables.placements, row.isOf pairId orderId = true ∧
      row.placedIn.txHash = tx.txHash
  | .cancelled _ => ∃ row ∈ tables.cancellations, row.isOf pairId orderId = true ∧
      row.cancelledIn.txHash = tx.txHash
  | .parked _ => ∀ row ∈ tables.placements, row.isOf pairId orderId = true →
      row.lifecycleStatus ≠ .active
  | .claimed => ∀ row ∈ tables.placements, row.isOf pairId orderId = true →
      row.lifecycleStatus ≠ .parkedExpired

/-- A row that appears after a park of its order would be parked by it again, and an order parked
after its claim would be refunded by it again. -/
def LifecycleChange.Revives : LifecycleChange → LifecycleChange → Prop
  | placed .., parked _ => True
  | parked _, claimed => True
  | _, _ => False

namespace PlacementRow

variable {pairId orderId pairId' orderId' : ℤ} {tx : TxPlace} {remaining : ℕ} {row : PlacementRow}

theorem isOf_iff :
    row.isOf pairId orderId = true ↔ row.pairId = pairId ∧ row.orderId = orderId := by
  simp [isOf]

@[simp] theorem park_isOf :
    (row.park pairId orderId tx remaining).isOf pairId' orderId' = row.isOf pairId' orderId' := by
  unfold park
  split <;> rfl

@[simp] theorem refund_isOf :
    (row.refund pairId orderId tx).isOf pairId' orderId' = row.isOf pairId' orderId' := by
  unfold refund
  split <;> rfl

@[simp] theorem park_placedIn : (row.park pairId orderId tx remaining).placedIn = row.placedIn := by
  unfold park
  split <;> rfl

@[simp] theorem refund_placedIn : (row.refund pairId orderId tx).placedIn = row.placedIn := by
  unfold refund
  split <;> rfl

theorem park_self (h : row.isOf pairId orderId = true → row.lifecycleStatus ≠ .active) :
    row.park pairId orderId tx remaining = row := by
  refine if_neg fun hactive => ?_
  rw [Bool.and_eq_true, decide_eq_true_eq] at hactive
  exact h hactive.1 hactive.2

theorem refund_self (h : row.isOf pairId orderId = true → row.lifecycleStatus ≠ .parkedExpired) :
    row.refund pairId orderId tx = row := by
  refine if_neg fun hparked => ?_
  rw [Bool.and_eq_true, decide_eq_true_eq] at hparked
  exact h hparked.1 hparked.2

/-- A park leaves the row alone or makes it a parked one of the order. -/
theorem park_cases : row.park pairId orderId tx remaining = row ∧
      (row.isOf pairId orderId = true → row.lifecycleStatus ≠ .active) ∨
    (row.park pairId orderId tx remaining).lifecycleStatus = .parkedExpired ∧
      row.isOf pairId orderId = true := by
  by_cases h : row.isOf pairId orderId = true ∧ row.lifecycleStatus = .active
  · right
    simp [park, h.1, h.2]
  · left
    have hother : row.isOf pairId orderId = true → row.lifecycleStatus ≠ .active :=
      fun hof hactive => h ⟨hof, hactive⟩
    exact ⟨park_self hother, hother⟩

theorem refund_cases : row.refund pairId orderId tx = row ∧
      (row.isOf pairId orderId = true → row.lifecycleStatus ≠ .parkedExpired) ∨
    (row.refund pairId orderId tx).lifecycleStatus = .refunded ∧
      row.isOf pairId orderId = true := by
  by_cases h : row.isOf pairId orderId = true ∧ row.lifecycleStatus = .parkedExpired
  · right
    simp [refund, h.1, h.2]
  · left
    have hother : row.isOf pairId orderId = true → row.lifecycleStatus ≠ .parkedExpired :=
      fun hof hparked => h ⟨hof, hparked⟩
    exact ⟨refund_self hother, hother⟩

end PlacementRow

section Changes

variable {tables : LifecycleTables} {pairId orderId pairId' orderId' : ℤ} {tx tx' : TxPlace}
  {c c' : LifecycleChange}

theorem LifecycleTables.settles (tables : LifecycleTables) :
    (tables.change pairId orderId tx c).Settled pairId orderId tx c := by
  cases c with
  | placed owner side price expiresAt =>
    simp only [change, insertPlacement]
    split
    · rename_i hstored
      simpa [Settled] using hstored
    · exact ⟨_, List.mem_append_right _ List.mem_cons_self, by simp [PlacementRow.isOf], rfl⟩
  | cancelled owner =>
    simp only [change, insertCancellation]
    split
    · rename_i hstored
      simpa [Settled] using hstored
    · exact ⟨_, List.mem_append_right _ List.mem_cons_self, by simp [CancellationRow.isOf], rfl⟩
  | parked remaining =>
    intro row hrow hof
    obtain ⟨old, hold, rfl⟩ := List.mem_map.1 hrow
    rw [PlacementRow.park_isOf] at hof
    rcases @PlacementRow.park_cases pairId orderId tx remaining old with ⟨hself, hne⟩ | ⟨hnew, -⟩
    · rw [hself]
      exact hne hof
    · simp [hnew]
  | claimed =>
    intro row hrow hof
    obtain ⟨old, hold, rfl⟩ := List.mem_map.1 hrow
    rw [PlacementRow.refund_isOf] at hof
    rcases @PlacementRow.refund_cases pairId orderId tx old with ⟨hself, hne⟩ | ⟨hnew, -⟩
    · rw [hself]
      exact hne hof
    · simp [hnew]

/-- A settled change does nothing. -/
theorem LifecycleTables.Settled.absorbs (h : tables.Settled pairId orderId tx c) :
    tables.change pairId orderId tx c = tables := by
  cases c with
  | placed owner side price expiresAt =>
    refine if_pos (List.any_eq_true.2 ?_)
    simpa [Settled] using h
  | cancelled owner =>
    refine if_pos (List.any_eq_true.2 ?_)
    simpa [Settled] using h
  | parked remaining =>
    have hsame : tables.placements.map (PlacementRow.park pairId orderId tx remaining) =
        tables.placements.map id :=
      List.map_congr_left fun row hrow => PlacementRow.park_self (h row hrow)
    rw [change, applyParkedExpired, hsame, List.map_id]
  | claimed =>
    have hsame : tables.placements.map (PlacementRow.refund pairId orderId tx) =
        tables.placements.map id :=
      List.map_congr_left fun row hrow => PlacementRow.refund_self (h row hrow)
    rw [change, applyClaimRefund, hsame, List.map_id]

/-- Placements after a change: as before, inserted, or moved on in their life. -/
theorem LifecycleTables.mem_change {row : PlacementRow}
    (hrow : row ∈ (tables.change pairId orderId tx c).placements) :
    row ∈ tables.placements ∨
    (row.isOf pairId orderId = true ∧ row.lifecycleStatus = .active ∧
      ∃ owner side price expiresAt, c = .placed owner side price expiresAt) ∨
    (row.isOf pairId orderId = true ∧ row.lifecycleStatus = .parkedExpired ∧
      ∃ remaining, c = .parked remaining) ∨
    row.lifecycleStatus = .refunded := by
  cases c with
  | placed owner side price expiresAt =>
    simp only [change, insertPlacement] at hrow
    split at hrow
    · exact .inl hrow
    · rcases List.mem_append.1 hrow with hrow | hrow
      · exact .inl hrow
      · rw [List.mem_singleton.1 hrow]
        exact .inr (.inl ⟨by simp [PlacementRow.isOf], rfl, _, _, _, _, rfl⟩)
  | cancelled owner =>
    simp only [change, insertCancellation] at hrow
    split at hrow <;> exact .inl hrow
  | parked remaining =>
    obtain ⟨old, hold, rfl⟩ := List.mem_map.1 hrow
    rcases @PlacementRow.park_cases pairId orderId tx remaining old with ⟨hself, -⟩ | ⟨hnew, hof⟩
    · rw [hself]
      exact .inl hold
    · exact .inr (.inr (.inl ⟨by rwa [PlacementRow.park_isOf], hnew, remaining, rfl⟩))
  | claimed =>
    obtain ⟨old, hold, rfl⟩ := List.mem_map.1 hrow
    rcases @PlacementRow.refund_cases pairId orderId tx old with ⟨hself, -⟩ | ⟨hnew, -⟩
    · rw [hself]
      exact .inl hold
    · exact .inr (.inr (.inr hnew))

/-- No change takes a placement away. -/
theorem LifecycleTables.placement_kept {row : PlacementRow} (hrow : row ∈ tables.placements) :
    ∃ row' ∈ (tables.change pairId orderId tx c).placements,
      (∀ p x, row'.isOf p x = row.isOf p x) ∧ row'.placedIn = row.placedIn := by
  cases c with
  | placed owner side price expiresAt =>
    simp only [change, insertPlacement]
    split
    · exact ⟨row, hrow, fun _ _ => rfl, rfl⟩
    · exact ⟨row, List.mem_append_left _ hrow, fun _ _ => rfl, rfl⟩
  | cancelled owner =>
    simp only [change, insertCancellation]
    split <;> exact ⟨row, hrow, fun _ _ => rfl, rfl⟩
  | parked remaining => exact ⟨_, List.mem_map_of_mem hrow, fun _ _ => by simp, by simp⟩
  | claimed => exact ⟨_, List.mem_map_of_mem hrow, fun _ _ => by simp, by simp⟩

theorem LifecycleTables.cancellation_kept {row : CancellationRow}
    (hrow : row ∈ tables.cancellations) :
    row ∈ (tables.change pairId orderId tx c).cancellations := by
  cases c with
  | cancelled owner =>
    simp only [change, insertCancellation]
    split
    · exact hrow
    · exact List.mem_append_left _ hrow
  | placed owner side price expiresAt =>
    simp only [change, insertPlacement]
    split <;> exact hrow
  | parked remaining => exact hrow
  | claimed => exact hrow

/-- A settled change stays so, unless it is revived. -/
theorem LifecycleTables.Settled.keeps (h : tables.Settled pairId orderId tx c)
    (hrevive : pairId' = pairId → orderId' = orderId → ¬ c'.Revives c) :
    (tables.change pairId' orderId' tx' c').Settled pairId orderId tx c := by
  cases c with
  | placed owner side price expiresAt =>
    obtain ⟨row, hrow, hof, htx⟩ := h
    obtain ⟨row', hrow', hof', hin⟩ := @placement_kept tables pairId' orderId' tx' c' row hrow
    exact ⟨row', hrow', (hof' _ _).trans hof, hin ▸ htx⟩
  | cancelled owner =>
    obtain ⟨row, hrow, hof, htx⟩ := h
    exact ⟨row, cancellation_kept hrow, hof, htx⟩
  | parked remaining =>
    intro row hrow hof
    rcases mem_change hrow with hold | ⟨hof', -, _, _, _, _, rfl⟩ | ⟨-, hparked, -⟩ | hrefunded
    · exact h row hold hof
    · obtain ⟨hp, hx⟩ := PlacementRow.isOf_iff.1 hof
      obtain ⟨hp', hx'⟩ := PlacementRow.isOf_iff.1 hof'
      exact absurd trivial (hrevive (hp'.symm.trans hp) (hx'.symm.trans hx))
    · simp [hparked]
    · simp [hrefunded]
  | claimed =>
    intro row hrow hof
    rcases mem_change hrow with hold | ⟨-, hactive, -⟩ | ⟨hof', hparked, _, rfl⟩ | hrefunded
    · exact h row hold hof
    · simp [hactive]
    · obtain ⟨hp, hx⟩ := PlacementRow.isOf_iff.1 hof
      obtain ⟨hp', hx'⟩ := PlacementRow.isOf_iff.1 hof'
      exact absurd trivial (hrevive (hp'.symm.trans hp) (hx'.symm.trans hx))
    · simp [hrefunded]

end Changes

/-- The operations of the indexer settle in the tables. -/
def lifecycleRuns (known : KnownPairs) : Absorbing LifecycleTables LifecycleOp where
  apply := LifecycleOp.apply known
  Settled op tables := ∀ pairId, known.id op.pairAddress = some pairId →
    tables.Settled pairId op.orderId op.tx op.change
  Revives op' op := (∃ pairId, known.id op'.pairAddress = some pairId ∧
    known.id op.pairAddress = some pairId) ∧ op'.orderId = op.orderId ∧
      op'.change.Revives op.change
  settles tables op := by
    intro pairId hid
    unfold LifecycleOp.apply
    rw [hid]
    exact tables.settles
  absorbs tables op h := by
    unfold LifecycleOp.apply
    cases hid : known.id op.pairAddress with
    | none => rfl
    | some pairId => exact (h pairId hid).absorbs
  keeps tables op op' h hrevive := by
    intro pairId hid
    unfold LifecycleOp.apply
    cases hid' : known.id op'.pairAddress with
    | none => exact h pairId hid
    | some pairId' =>
      refine (h pairId hid).keeps fun hp hx hchange => hrevive ⟨⟨pairId, ?_, hid⟩, hx, hchange⟩
      rw [hid', hp]

/-- The rows of one order. -/
def LifecycleTables.ofOrder (tables : LifecycleTables) (pairId orderId : ℤ) : LifecycleTables where
  placements := tables.placements.filter (PlacementRow.isOf pairId orderId)
  cancellations := tables.cancellations.filter (CancellationRow.isOf pairId orderId)

section OneOrder

variable {tables : LifecycleTables} {pairId orderId pairId' orderId' : ℤ} {tx : TxPlace}
  {c : LifecycleChange}

theorem any_of_order {α : Type} {l : List α} {isOf other : α → Bool} :
    (l.filter isOf).any (fun a => isOf a && other a) = l.any fun a => isOf a && other a := by
  rw [List.any_filter]
  refine congrArg l.any (funext fun a => ?_)
  cases isOf a <;> rfl

theorem filter_map_isOf {f : PlacementRow → PlacementRow} (l : List PlacementRow)
    (hf : ∀ row : PlacementRow, (f row).isOf pairId orderId = row.isOf pairId orderId) :
    (l.map f).filter (PlacementRow.isOf pairId orderId) =
      (l.filter (PlacementRow.isOf pairId orderId)).map f := by
  rw [List.filter_map]
  exact congrArg (List.map f) (List.filter_congr fun row _ => hf row)

/-- A change of an order's rows is one of the order's own. -/
theorem LifecycleTables.change_ofOrder :
    (tables.change pairId orderId tx c).ofOrder pairId orderId =
      (tables.ofOrder pairId orderId).change pairId orderId tx c := by
  cases c with
  | placed owner side price expiresAt =>
    have hstored := @any_of_order _ tables.placements (PlacementRow.isOf pairId orderId)
      fun row => row.placedIn.txHash = tx.txHash
    simp only [change, insertPlacement, ofOrder, hstored]
    split
    · rfl
    · simp [List.filter_append, PlacementRow.isOf]
  | cancelled owner =>
    have hstored := @any_of_order _ tables.cancellations (CancellationRow.isOf pairId orderId)
      fun row => row.cancelledIn.txHash = tx.txHash
    simp only [change, insertCancellation, ofOrder, hstored]
    split
    · rfl
    · simp [List.filter_append, CancellationRow.isOf]
  | parked remaining =>
    simp only [change, applyParkedExpired, ofOrder]
    rw [filter_map_isOf _ fun _ => PlacementRow.park_isOf]
  | claimed =>
    simp only [change, applyClaimRefund, ofOrder]
    rw [filter_map_isOf _ fun _ => PlacementRow.refund_isOf]

/-- A change of another order's rows. -/
theorem LifecycleTables.change_other (h : ¬ (pairId' = pairId ∧ orderId' = orderId)) :
    (tables.change pairId' orderId' tx c).ofOrder pairId orderId =
      tables.ofOrder pairId orderId := by
  have hother : ∀ row : PlacementRow, row.isOf pairId orderId = true →
      ¬ row.isOf pairId' orderId' = true := by
    intro row hof hof'
    obtain ⟨hp, hx⟩ := PlacementRow.isOf_iff.1 hof
    obtain ⟨hp', hx'⟩ := PlacementRow.isOf_iff.1 hof'
    exact h ⟨hp'.symm.trans hp, hx'.symm.trans hx⟩
  have hpair : pairId' = pairId → ¬ orderId' = orderId := fun hp hx => h ⟨hp, hx⟩
  cases c with
  | placed owner side price expiresAt =>
    simp only [change, insertPlacement]
    split
    · rfl
    · simpa [ofOrder, List.filter_append, PlacementRow.isOf, List.filter_cons] using hpair
  | cancelled owner =>
    simp only [change, insertCancellation]
    split
    · rfl
    · simpa [ofOrder, List.filter_append, CancellationRow.isOf, List.filter_cons] using hpair
  | parked remaining =>
    have hself : ∀ row ∈ tables.placements.filter (PlacementRow.isOf pairId orderId),
        row.park pairId' orderId' tx remaining = id row := fun row hrow =>
      PlacementRow.park_self fun hof => absurd hof (hother row (List.mem_filter.1 hrow).2)
    simp only [change, applyParkedExpired, ofOrder]
    rw [filter_map_isOf _ fun _ => PlacementRow.park_isOf, List.map_congr_left hself, List.map_id]
  | claimed =>
    have hself : ∀ row ∈ tables.placements.filter (PlacementRow.isOf pairId orderId),
        row.refund pairId' orderId' tx = id row := fun row hrow =>
      PlacementRow.refund_self fun hof => absurd hof (hother row (List.mem_filter.1 hrow).2)
    simp only [change, applyClaimRefund, ofOrder]
    rw [filter_map_isOf _ fun _ => PlacementRow.refund_isOf, List.map_congr_left hself, List.map_id]

/-- The operations on one order of a pair. -/
def LifecycleOp.concerns (contract : String) (orderId : ℤ) (op : LifecycleOp) : Bool :=
  op.pairAddress = contract && op.orderId = orderId

/-- The rows of an order see the operations on it only. -/
theorem ofOrder_run {known : KnownPairs} {contract : String} (hid : known.id contract = some pairId)
    (ops : List LifecycleOp) (tables : LifecycleTables) :
    ((lifecycleRuns known).run tables ops).ofOrder pairId orderId =
      (ops.filter (LifecycleOp.concerns contract orderId)).foldl
        (fun rows op => rows.change pairId orderId op.tx op.change)
          (tables.ofOrder pairId orderId) := by
  induction ops generalizing tables with
  | nil => rfl
  | cons op ops ih =>
    have hhead : (lifecycleRuns known).run tables (op :: ops) =
        (lifecycleRuns known).run (op.apply known tables) ops := rfl
    rw [hhead, ih]
    by_cases hop : op.pairAddress = contract ∧ op.orderId = orderId
    · obtain ⟨rfl, rfl⟩ := hop
      have hconcerns : op.concerns op.pairAddress op.orderId = true := by
        simp [LifecycleOp.concerns]
      rw [List.filter_cons_of_pos hconcerns, List.foldl_cons, LifecycleOp.apply, hid]
      dsimp only
      rw [LifecycleTables.change_ofOrder]
    · have hconcerns : ¬ op.concerns contract orderId = true := by
        simpa [LifecycleOp.concerns] using hop
      rw [List.filter_cons_of_neg hconcerns, LifecycleOp.apply]
      cases hother : known.id op.pairAddress with
      | none => rfl
      | some pairId' =>
        dsimp only
        rw [LifecycleTables.change_other]
        rintro ⟨rfl, hx⟩
        exact hop ⟨known.inj _ _ _ hother hid, hx⟩

end OneOrder

end WasmEvents

open WasmEvents

/-- The kinds of marks, in the order in which the indexer goes through them. -/
inductive MarkKind
  | placement
  | cancellation
  | park
  | claim
  deriving DecidableEq

def OrderMark.kind : OrderMark → MarkKind
  | .placed .. => .placement
  | .cancelled _ => .cancellation
  | .parked _ => .park
  | .claimed => .claim

def marksOfKind (kind : MarkKind) (l : List OrderMark) : List OrderMark :=
  l.filter fun m => OrderMark.kind m = kind

/-- What a mark asks of the tables. -/
def OrderMark.change (text : Addr → String) : OrderMark → LifecycleChange
  | .placed owner side price =>
    .placed (some (text owner)) (some (sideStr side)) (some (price.atomics / 10 ^ 18)) none
  | .cancelled owner => .cancelled (some (text owner))
  | .parked remaining => .parked remaining
  | .claimed => .claimed

section Told

variable {s s' : OrderState} {l : List OrderMark} {text : Addr → String}

theorem Told.of_gone (h : Told .gone l s) : l = [] := by
  cases h with
  | refl => rfl
  | step h _ => cases h

theorem Told.of_parked {r : ExpiredLimitRefund} (h : Told (.parked r) l s) :
    l = [] ∨ l = [.claimed] := by
  cases h with
  | refl => exact .inl rfl
  | step h rest =>
    cases h with
    | claimed =>
      rw [rest.of_gone]
      exact .inr rfl

/-- What is told of an order comes in the order of its kinds. -/
theorem Told.grouped (h : Told s l s') : marksOfKind .placement l ++ marksOfKind .cancellation l ++
    marksOfKind .park l ++ marksOfKind .claim l = l := by
  induction h with
  | refl => rfl
  | step h rest ih =>
    cases h with
    | skipped | edited howner hside | filled t h => exact ih
    | placed t => exact congrArg (List.cons _) ih
    | parked howner hside =>
      rcases rest.of_parked with rfl | rfl <;> rfl
    | cancelled t =>
      rw [rest.of_gone]
      rfl
    | claimed r =>
      rw [rest.of_gone]
      rfl

/-- Nothing that is told of an order revives what was told before. -/
theorem Told.forward (h : Told s l s') :
    (l.map (OrderMark.change text)).Pairwise fun c c' => ¬ c'.Revives c := by
  induction h with
  | refl => exact .nil
  | step h rest ih =>
    cases h with
    | skipped | edited howner hside | filled t h => exact ih
    | placed t =>
      refine List.pairwise_cons.2 ⟨fun c hc hrevives => ?_, ih⟩
      cases c <;> exact hrevives
    | parked howner hside =>
      rcases rest.of_parked with rfl | rfl
      · simp
      · simp [OrderMark.change, LifecycleChange.Revives]
    | cancelled t =>
      rw [rest.of_gone]
      simp
    | claimed r =>
      rw [rest.of_gone]
      simp

end Told

namespace WasmEvents

/-- The placement of an order as its owner and status have it. -/
structure PlacementRow.Shows (text : Addr → String) (pairId orderId : ℤ) (owner : Addr)
    (side : LimitOrderSide) (status : LifecycleStatus) (row : PlacementRow) : Prop where
  isOf : row.isOf pairId orderId = true
  owner_eq : row.owner = some (text owner)
  side_eq : row.side = some (sideStr side)
  status_eq : row.lifecycleStatus = status

/-- The rows of an order against where it is. Those of an order that was filled to the end stay as
they were. -/
inductive Mirrored (text : Addr → String) (pairId orderId : ℤ) :
    OrderState → LifecycleTables → Prop
  | unborn : Mirrored text pairId orderId .unborn ⟨[], []⟩
  | skipped : Mirrored text pairId orderId .gone ⟨[], []⟩
  | resting {t : OrderTerms} {row : PlacementRow}
      (h : row.Shows text pairId orderId t.owner t.side .active) :
      Mirrored text pairId orderId (.resting t) ⟨[row], []⟩
  | parked {r : ExpiredLimitRefund} {row : PlacementRow}
      (h : row.Shows text pairId orderId r.owner r.side .parkedExpired)
      (hremaining : row.remainingEscrow = some r.remaining) :
      Mirrored text pairId orderId (.parked r) ⟨[row], []⟩
  | filled {owner : Addr} {side : LimitOrderSide} {row : PlacementRow}
      (h : row.Shows text pairId orderId owner side .active) :
      Mirrored text pairId orderId .gone ⟨[row], []⟩
  | cancelled {owner : Addr} {side : LimitOrderSide} {row : PlacementRow} {c : CancellationRow}
      (h : row.Shows text pairId orderId owner side .active)
      (hof : c.isOf pairId orderId = true) (howner : c.owner = some (text owner)) :
      Mirrored text pairId orderId .gone ⟨[row], [c]⟩
  | refunded {owner : Addr} {side : LimitOrderSide} {row : PlacementRow}
      (h : row.Shows text pairId orderId owner side .refunded) :
      Mirrored text pairId orderId .gone ⟨[row], []⟩

section Life

variable {s s' : OrderState} {l : List OrderMark} {m : OrderMark} {text : Addr → String}
  {pairId orderId : ℤ} {tx : TxPlace} {rows : LifecycleTables}

theorem Mirrored.still (h : Mirrored text pairId orderId s rows) (hstep : ToldStep s none s') :
    Mirrored text pairId orderId s' rows := by
  cases hstep with
  | skipped =>
    cases h
    exact .skipped
  | edited howner hside =>
    cases h with
    | resting hrow =>
      rw [← howner, ← hside] at hrow
      exact .resting hrow
  | filled t hzero =>
    cases h with
    | resting hrow => exact .filled hrow

theorem Mirrored.change (h : Mirrored text pairId orderId s rows)
    (hstep : ToldStep s (some m) s') :
    Mirrored text pairId orderId s' (rows.change pairId orderId tx (m.change text)) := by
  cases hstep with
  | placed t =>
    cases h
    have hrow : PlacementRow.Shows text pairId orderId t.owner t.side .active ⟨pairId, tx, orderId,
        some (text t.owner), some (sideStr t.side), some (t.price.atomics / 10 ^ 18), none, .active,
        none, none, none⟩ := ⟨by simp [PlacementRow.isOf], rfl, rfl, rfl⟩
    exact .resting hrow
  | cancelled t =>
    cases h with
    | resting hrow =>
      have hof : CancellationRow.isOf pairId orderId
        ⟨pairId, tx, orderId, some (text t.owner)⟩ = true := by simp [CancellationRow.isOf]
      exact .cancelled hrow hof rfl
  | parked howner hside =>
    cases h with
    | @resting t row hrow =>
      rw [← howner, ← hside] at hrow
      have hactive : (row.isOf pairId orderId && row.lifecycleStatus = .active) = true := by
        simp [hrow.isOf, hrow.status_eq]
      simp only [LifecycleTables.change, OrderMark.change, LifecycleTables.applyParkedExpired,
        List.map_cons, List.map_nil]
      rw [PlacementRow.park, if_pos hactive]
      exact .parked ⟨hrow.isOf, hrow.owner_eq, hrow.side_eq, rfl⟩ rfl
  | claimed r =>
    cases h with
    | @parked r row hrow hremaining =>
      have hparked : (row.isOf pairId orderId && row.lifecycleStatus = .parkedExpired) = true := by
        simp [hrow.isOf, hrow.status_eq]
      simp only [LifecycleTables.change, OrderMark.change, LifecycleTables.applyClaimRefund,
        List.map_cons, List.map_nil]
      rw [PlacementRow.refund, if_pos hparked]
      exact .refunded ⟨hrow.isOf, hrow.owner_eq, hrow.side_eq, rfl⟩

/-- The rows of an order follow everything that is told of it. -/
theorem Mirrored.told (h : Mirrored text pairId orderId s rows) (htold : Told s l s')
    (ops : List LifecycleOp) (hops : ops.map LifecycleOp.change = l.map (OrderMark.change text)) :
    Mirrored text pairId orderId s' (ops.foldl
      (fun rows op => rows.change pairId orderId op.tx op.change) rows) := by
  induction htold generalizing rows ops with
  | refl =>
    rw [List.map_nil, List.map_eq_nil_iff] at hops
    rw [hops]
    exact h
  | @step s s' s'' mark l hstep rest ih =>
    cases mark with
    | none => exact ih (h.still hstep) ops hops
    | some m =>
      cases ops with
      | nil => cases hops
      | cons op ops =>
        obtain ⟨hop, hops⟩ := List.cons.inj hops
        rw [List.foldl_cons, hop]
        exact ih (h.change hstep) ops hops

end Life

end WasmEvents

end Cl8yDex
