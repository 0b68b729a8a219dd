import Cl8yDex.SnapshotRuns

/-!
# The mirrors of a pair

What coherent mirrors are, and that each statement of the jobs keeps them coherent and their rows
from going back.
-/

namespace Cl8yDex.BookSnapshot

open Interleaving

section Mirrors

variable (contractText : Addr → String) (chain : ℤ → PairStorage)

def feeAt (height : ℤ) : ℤ := (chain height).feeConfig.feeBps

/-- The reserves of a row are those of the pair at a height. -/
structure ReservesAt (row : PairReservesRow) (height : ℤ) : Prop where
  reserve0 : row.reserve0 = (chain height).reserves.1
  reserve1 : row.reserve1 = (chain height).reserves.2

/-- One side of the table is all of that side at a height, in the order of the list. -/
def SideMirrored (table : List RestingLimitOrder) (height : ℤ) (s : LimitOrderSide) : Prop :=
  ∃ ids, Walked (chain height).book ((chain height).book.head s) ids ∧
    (∀ A, Represents (chain height).book A → ids = A.queue s) ∧
    ((getPairRestingBook s.sideStr table).map fun row => some row.toRestingOrderInput) =
      ids.map (mirrored contractText (chain height).book s)

/-- The hybrid row and the resting orders are those of one height. -/
structure HybridMirrored (table : List RestingLimitOrder) (row : PairReservesRow) (height : ℤ) :
    Prop where
  known : row.blockHeight = some height
  reserves : ReservesAt chain row height
  fee : row.feeBps = feeAt chain height
  side : ∀ s, SideMirrored contractText chain table height s
  rows : ∀ order ∈ table, order.blockHeight = some height

structure Coherent (db : Database) : Prop where
  cached : ∀ o, db.feeObservation = some o → o.feeBps = feeAt chain o.blockHeight
  pool : ∀ row height, db.pairReserves = some row → row.blockHeight = some height →
    ReservesAt chain row height ∧ (row.feeBps = -1 ∨ row.feeBps = feeAt chain height)
  hybrid : ∀ row, db.hybridReserves = some row →
    ∃ height, HybridMirrored contractText chain db.restingOrders row height
  unbooked : db.hybridReserves = none → db.restingOrders = []

/-- A row is replaced by one that is no earlier and no lower. -/
def RowLater (old new : Option PairReservesRow) : Prop :=
  ∀ row, old = some row → ∃ row', new = some row' ∧ row.snapshotAt ≤ row'.snapshotAt ∧
    ∀ h, row.blockHeight = some h → ∃ h', row'.blockHeight = some h' ∧ h ≤ h'

structure Later (db db' : Database) : Prop where
  pool : RowLater db.pairReserves db'.pairReserves
  hybrid : RowLater db.hybridReserves db'.hybridReserves

theorem RowLater.refl (row : Option PairReservesRow) : RowLater row row :=
  fun r hr => ⟨r, hr, le_rfl, fun h hh => ⟨h, hh, le_rfl⟩⟩

theorem RowLater.trans {a b c : Option PairReservesRow} (hab : RowLater a b) (hbc : RowLater b c) :
    RowLater a c := by
  intro row hrow
  obtain ⟨row', hrow', htime, hheight⟩ := hab row hrow
  obtain ⟨row'', hrow'', htime', hheight'⟩ := hbc row' hrow'
  refine ⟨row'', hrow'', htime.trans htime', fun h hh => ?_⟩
  obtain ⟨h', hh', hle⟩ := hheight h hh
  obtain ⟨h'', hh'', hle'⟩ := hheight' h' hh'
  exact ⟨h'', hh'', hle.trans hle'⟩

theorem Later.refl (db : Database) : Later db db := ⟨.refl _, .refl _⟩

theorem Later.trans {a b c : Database} (hab : Later a b) (hbc : Later b c) : Later a c :=
  ⟨hab.pool.trans hbc.pool, hab.hybrid.trans hbc.hybrid⟩

end Mirrors

section Statements

variable {contractText : Addr → String} {chain : ℤ → PairStorage} {db db' : Database}
  {now height fee : ℤ}

theorem upsert_later (table : Option PairReservesRow) (row : PairReservesRow) :
    RowLater table (upsert table row).2 := by
  intro old hold
  rw [hold]
  unfold upsert
  dsimp only
  split_ifs with h
  · exact ⟨row, rfl, h.1.le, h.2⟩
  · exact ⟨old, rfl, le_rfl, fun h hh => ⟨h, hh, le_rfl⟩⟩

/-- A row of the table after an upsert is the new one, if it was taken, or the old one. -/
theorem upsert_cases {table : Option PairReservesRow} {row : PairReservesRow} {taken : Bool}
    {rows : Option PairReservesRow} (h : upsert table row = (taken, rows)) :
    taken = true ∧ rows = some row ∨ taken = false ∧ rows = table := by
  unfold upsert at h
  cases table with
  | none =>
      cases h
      exact .inl ⟨rfl, rfl⟩
  | some old =>
      dsimp only at h
      split_ifs at h
      · cases h
        exact .inl ⟨rfl, rfl⟩
      · cases h
        exact .inr ⟨rfl, rfl⟩

theorem Coherent.selected (hdb : Coherent contractText chain db)
    (h : selectFee now height db = some fee) : fee = feeAt chain height := by
  obtain ⟨o, ho, rfl⟩ := Option.map_eq_some_iff.1 h
  obtain ⟨ho, hmatch⟩ := Option.filter_eq_some_iff.1 ho
  have hheight : o.blockHeight = height := (of_decide_eq_true hmatch).1
  rw [hdb.cached o ho, hheight]

theorem Coherent.upsertPool {r0 r1 : ℚ} {blockHeight : Option ℤ} {observedAt : ℤ} {taken : Bool}
    (hdb : Coherent contractText chain db)
    (hreserves : ∀ h, blockHeight = some h →
      r0 = (chain h).reserves.1 ∧ r1 = (chain h).reserves.2)
    (h : upsertPoolObservation r0 r1 blockHeight observedAt db = .ok (taken, db')) :
    Coherent contractText chain db' ∧ Later db db' := by
  unfold upsertPoolObservation at h
  cases h0 : numeric 39 0 r0 with
  | error e =>
      rw [h0] at h
      cases h
  | ok c0 =>
      cases h1 : numeric 39 0 r1 with
      | error e =>
          rw [h0, h1] at h
          cases h
      | ok c1 =>
          rw [h0, h1] at h
          dsimp only [bind, Except.bind] at h
          have hlater := upsert_later db.pairReserves ⟨c0, c1, (blockHeight.bind fun height =>
            selectFee observedAt height db).getD (-1), blockHeight, observedAt⟩
          generalize hupsert : upsert db.pairReserves _ = r at h hlater
          obtain ⟨taken, rows⟩ := r
          cases h
          refine ⟨⟨hdb.cached, ?_, hdb.hybrid, hdb.unbooked⟩, ⟨hlater, .refl _⟩⟩
          intro row height hrow hheight
          obtain ⟨-, rfl⟩ | ⟨-, rfl⟩ := upsert_cases hupsert
          · cases hrow
            change blockHeight = some height at hheight
            subst hheight
            obtain ⟨rfl, rfl⟩ := hreserves height rfl
            refine ⟨⟨numeric_whole h0, numeric_whole h1⟩, ?_⟩
            change (selectFee observedAt height db).getD (-1) = -1 ∨
              (selectFee observedAt height db).getD (-1) = feeAt chain height
            cases hfee : selectFee observedAt height db with
            | none => exact .inl rfl
            | some fee => exact .inr (hdb.selected hfee)
          · exact hdb.pool row height hrow hheight

theorem Coherent.applyFee {rows : ℕ} (hdb : Coherent contractText chain db)
    (h : applyCompatibleFee now height fee db = .ok (rows, db')) :
    Coherent contractText chain db' ∧ Later db db' := by
  unfold applyCompatibleFee at h
  split_ifs at h with hrange hcurrent
  · cases h
    exact ⟨hdb, .refl db⟩
  · have hfee : fee = feeAt chain height := by
      rw [not_not] at hcurrent
      exact hdb.selected (Option.filter_eq_some_iff.1 hcurrent).1
    cases hrow : db.pairReserves with
    | none =>
        rw [hrow] at h
        cases h
        exact ⟨hdb, .refl db⟩
    | some row =>
        rw [hrow] at h
        dsimp only at h
        split_ifs at h with hheight
        · cases h
          constructor
          · refine ⟨hdb.cached, ?_, hdb.hybrid, hdb.unbooked⟩
            intro row' height' hrow' hheight'
            cases hrow'
            have hsame : height' = height := Option.some.inj (hheight'.symm.trans hheight)
            subst hsame
            have hreserves := (hdb.pool row height' hrow hheight).1
            exact ⟨⟨hreserves.1, hreserves.2⟩, .inr hfee⟩
          · refine ⟨?_, .refl _⟩
            intro old hold
            cases hrow.symm.trans hold
            exact ⟨_, rfl, le_rfl, fun h hh => ⟨h, hh, le_rfl⟩⟩
        · cases h
          exact ⟨hdb, .refl db⟩

theorem Coherent.applyCached (hdb : Coherent contractText chain db)
    (h : applyCachedFee now height fee db = .ok db') :
    Coherent contractText chain db' ∧ Later db db' := by
  unfold applyCachedFee at h
  cases happly : applyCompatibleFee now height fee db with
  | error e =>
      rw [happly] at h
      cases h
  | ok r =>
      rw [happly] at h
      dsimp only [bind, Except.bind] at h
      split_ifs at h
      cases h
      exact hdb.applyFee happly

theorem Coherent.insertFee {row : FeeObservation} (hdb : Coherent contractText chain db)
    (hfee : row.feeBps = feeAt chain row.blockHeight)
    (h : insertFeeObservation row db = .ok db') :
    Coherent contractText chain db' ∧ Later db db' := by
  have hnew : Coherent contractText chain { db with feeObservation := some row } := by
    refine ⟨?_, hdb.pool, hdb.hybrid, hdb.unbooked⟩
    intro o ho
    cases ho
    exact hfee
  unfold insertFeeObservation at h
  split_ifs at h
  cases hold : db.feeObservation with
  | none =>
      rw [hold] at h
      cases h
      exact ⟨hnew, .refl _, .refl _⟩
  | some old =>
      rw [hold] at h
      dsimp only at h
      split_ifs at h
      · cases h
        exact ⟨hnew, .refl _, .refl _⟩
      · cases h
        exact ⟨hdb, .refl db⟩

theorem Coherent.publish {observedAt : ℤ} (hdb : Coherent contractText chain db)
    (hfee : fee = feeAt chain height) (h : publishFee now height fee observedAt db = .ok db') :
    Coherent contractText chain db' ∧ Later db db' := by
  unfold publishFee at h
  cases hinsert : insertFeeObservation ⟨fee, observedAt, height⟩ db with
  | error e =>
      rw [hinsert] at h
      cases h
  | ok inserted =>
      rw [hinsert] at h
      dsimp only [bind, Except.bind] at h
      obtain ⟨hcoherent, hlater⟩ := hdb.insertFee hfee hinsert
      cases happly : applyCompatibleFee now height fee inserted with
      | error e =>
          rw [happly] at h
          cases h
      | ok r =>
          rw [happly] at h
          dsimp only at h
          split_ifs at h
          cases h
          obtain ⟨hcoherent', hlater'⟩ := hcoherent.applyFee happly
          exact ⟨hcoherent', hlater.trans hlater'⟩

/-- What a job knows of the orders it walked. -/
def WalkedSide (contractText : Addr → String) (chain : ℤ → PairStorage) (height : ℤ)
    (s : LimitOrderSide) (orders : List RestingOrderInput) : Prop :=
  ∃ ids, Walked (chain height).book ((chain height).book.head s) ids ∧
    orders.map some = ids.map (mirrored contractText (chain height).book s)

theorem WalkedSide.mem {s : LimitOrderSide} {orders : List RestingOrderInput}
    (h : WalkedSide contractText chain height s orders) :
    ∀ o ∈ orders, Plain o ∧ o.side = s.sideStr := by
  obtain ⟨ids, -, hmap⟩ := h
  intro o ho
  have hmem : some o ∈ ids.map (mirrored contractText (chain height).book s) := by
    rw [← hmap]
    exact List.mem_map_of_mem ho
  obtain ⟨id, -, hid⟩ := List.mem_map.1 hmem
  exact ⟨mirrored_plain hid, mirrored_side hid⟩

theorem replaced_mirrored {orders : LimitOrderSide → List RestingOrderInput}
    {table : List RestingLimitOrder}
    (hwalked : ∀ s, WalkedSide contractText chain height s (orders s))
    (h : replacePairRestingOrders now (some height) (orders .bid ++ orders .ask) = .ok table)
    (s : LimitOrderSide) : SideMirrored contractText chain table height s := by
  have hside := fun s => (hwalked s).mem
  have hplain : ∀ o ∈ orders .bid ++ orders .ask, Plain o := by
    intro o ho
    rcases List.mem_append.1 ho with ho | ho
    · exact (hside .bid o ho).1
    · exact (hside .ask o ho).1
  obtain ⟨rows, htable, hmap, -, hsorted⟩ := insert_all hplain h
  rw [List.nil_append] at htable
  rw [← htable] at hmap hsorted
  obtain ⟨ids, hids, hmirrored⟩ := hwalked s
  refine ⟨ids, hids, fun A hA => hids.complete hA, ?_⟩
  rw [← hmirrored, ← Function.comp_def, ← List.map_map, getPairRestingBook_written hsorted, hmap,
    List.filter_append]
  congr 1
  cases s with
  | bid =>
      rw [List.filter_eq_self.2 fun o ho => decide_eq_true (hside .bid o ho).2,
        List.filter_eq_nil_iff.2, List.append_nil]
      intro o ho heq
      exact absurd ((of_decide_eq_true heq).symm.trans (hside .ask o ho).2) (by decide)
  | ask =>
      rw [List.filter_eq_nil_iff.2, List.nil_append,
        List.filter_eq_self.2 fun o ho => decide_eq_true (hside .ask o ho).2]
      intro o ho heq
      exact absurd ((of_decide_eq_true heq).symm.trans (hside .bid o ho).2) (by decide)

theorem Coherent.publishHybrid {observation : PairReservesRow}
    (hdb : Coherent contractText chain db) (orders : LimitOrderSide → List RestingOrderInput)
    (hheight : observation.blockHeight = some height)
    (hreserves : ReservesAt chain observation height) (hfee : fee = feeAt chain height)
    (hwalked : ∀ s, WalkedSide contractText chain height s (orders s))
    (h : BookSnapshot.publishHybrid now observation fee (orders .bid ++ orders .ask) db =
      .ok db') : Coherent contractText chain db' ∧ Later db db' := by
  unfold BookSnapshot.publishHybrid at h
  have hlater := upsert_later db.hybridReserves { observation with feeBps := fee }
  generalize hupsert : upsert db.hybridReserves _ = r at h hlater
  obtain ⟨taken, rows⟩ := r
  dsimp only at h hlater
  obtain ⟨rfl, rfl⟩ | ⟨rfl, rfl⟩ := upsert_cases hupsert
  · rw [if_pos rfl] at h
    cases hreplace : replacePairRestingOrders now observation.blockHeight
        (orders .bid ++ orders .ask) with
    | error e =>
        rw [hreplace] at h
        cases h
    | ok table =>
        rw [hreplace] at h
        cases h
        rw [hheight] at hreplace
        have hbooked : (some { observation with feeBps := fee } : Option PairReservesRow) = none →
            table = [] := by
          intro h
          cases h
        refine ⟨⟨hdb.cached, hdb.pool, ?_, hbooked⟩, .refl _, hlater⟩
        intro row hrow
        cases hrow
        refine ⟨height, hheight, ⟨hreserves.1, hreserves.2⟩, hfee, ?_, ?_⟩
        · exact replaced_mirrored hwalked hreplace
        · have hplain : ∀ o ∈ orders .bid ++ orders .ask, Plain o := by
            intro o ho
            rcases List.mem_append.1 ho with ho | ho
            · exact ((hwalked .bid).mem o ho).1
            · exact ((hwalked .ask).mem o ho).1
          obtain ⟨rows, htable, -, hall, -⟩ := insert_all hplain hreplace
          rw [List.nil_append] at htable
          change ∀ order ∈ table, order.blockHeight = some height
          rw [htable]
          exact fun order horder => (hall order horder).1
  · rw [if_neg (by decide)] at h
    cases h
    exact ⟨hdb, .refl db⟩

end Statements

end Cl8yDex.BookSnapshot
