import Cl8yDex.BookRefines
import Cl8yDex.SnapshotJobs
import Mathlib.Tactic.Linarith
import Mathlib.Tactic.NormNum

/-!
# Coherent snapshots

What the tables say about a height is what the pair held at it, whatever the jobs do in between:
facts about a height never change, and a row only gives way to one that is later.
-/

namespace Cl8yDex.BookSnapshot

open DecimalText Interleaving

section Columns

/-- A number with no more places than the column is stored as it is. -/
theorem numeric_exact {precision scale k : ℕ} {y : ℚ}
    (h : numeric precision scale ((k : ℚ) / 10 ^ scale) = .ok y) : y = (k : ℚ) / 10 ^ scale := by
  have hscale : (10 : ℚ) ^ scale ≠ 0 := by positivity
  have hnonneg : (0 : ℚ) ≤ (k : ℚ) / 10 ^ scale := by positivity
  have hfloor : ⌊(k : ℚ) + 1 / 2⌋ = (k : ℤ) := by
    apply Int.floor_eq_iff.2
    constructor
    · push_cast
      linarith
    · push_cast
      linarith
  unfold numeric at h
  dsimp only at h
  rw [if_pos hnonneg, div_mul_cancel₀ _ hscale, hfloor] at h
  split_ifs at h
  cases h
  norm_num

theorem numeric_whole {precision k : ℕ} {y : ℚ} (h : numeric precision 0 (k : ℚ) = .ok y) :
    y = k := by
  have hexact : numeric precision 0 ((k : ℚ) / 10 ^ 0) = .ok y := by simpa using h
  simpa using numeric_exact hexact

/-- Rows that are written keep what they were given, as far as the columns have room. -/
structure Plain (o : RestingOrderInput) : Prop where
  price : ∃ k : ℕ, o.price = (k : ℚ) / 10 ^ 18
  remaining : ∃ n : ℕ, o.remaining = n

variable {now : ℤ} {blockHeight : Option ℤ} {table out : List RestingLimitOrder}
  {o : RestingOrderInput} {n : ℕ} {orders : List RestingOrderInput}

theorem insertRestingOrder_plain (ho : Plain o)
    (h : insertRestingOrder now blockHeight table (o, n) = .ok out) :
    out = table ++ [{ o with blockHeight := blockHeight, snapshotAt := now, walkIndex := n }] := by
  obtain ⟨⟨k, hprice⟩, m, hremaining⟩ := ho
  unfold insertRestingOrder at h
  dsimp only at h
  cases hp : numeric 39 18 o.price with
  | error e =>
      rw [hp] at h
      cases h
  | ok price =>
      cases hr : numeric 39 0 o.remaining with
      | error e =>
          rw [hp, hr] at h
          cases h
      | ok remaining =>
          rw [hp, hr] at h
          rw [hprice] at hp
          rw [hremaining] at hr
          have hp' := (numeric_exact hp).trans hprice.symm
          have hr' := (numeric_whole hr).trans hremaining.symm
          dsimp only [bind, Except.bind] at h
          split_ifs at h
          cases h
          rw [hp', hr']

theorem insert_all (horders : ∀ o ∈ orders, Plain o)
    (h : (orders.zipIdx n).foldlM (insertRestingOrder now blockHeight) table = .ok out) :
    ∃ rows, out = table ++ rows ∧ rows.map (·.toRestingOrderInput) = orders ∧
      (∀ row ∈ rows, row.blockHeight = blockHeight ∧ (n : ℤ) ≤ row.walkIndex) ∧
      rows.Pairwise (fun a b => a.walkIndex ≤ b.walkIndex) := by
  induction orders generalizing n table with
  | nil =>
      cases h
      exact ⟨[], by simp⟩
  | cons o orders ih =>
      rw [List.zipIdx_cons, List.foldlM_cons] at h
      cases hinsert : insertRestingOrder now blockHeight table (o, n) with
      | error e =>
          rw [hinsert] at h
          cases h
      | ok next =>
          rw [hinsert] at h
          obtain ⟨rows, rfl, hmap, hall, hsorted⟩ :=
            ih (fun p hp => horders p (List.mem_cons_of_mem o hp)) h
          rw [insertRestingOrder_plain (horders o List.mem_cons_self) hinsert]
          refine ⟨_ :: rows, (List.append_assoc ..), ?_, ?_, ?_⟩
          · rw [List.map_cons, hmap]
          · rw [List.forall_mem_cons]
            constructor
            · exact ⟨rfl, le_rfl⟩
            · intro row hrow
              obtain ⟨hblock, hindex⟩ := hall row hrow
              refine ⟨hblock, ?_⟩
              push_cast at hindex
              omega
          · apply List.pairwise_cons.2
            constructor
            · intro row hrow
              have hindex := (hall row hrow).2
              push_cast at hindex
              change (n : ℤ) ≤ row.walkIndex
              omega
            · exact hsorted

/-- The book of one side is read back in the order in which it was written. -/
theorem getPairRestingBook_written {side : String}
    (hsorted : table.Pairwise fun a b => a.walkIndex ≤ b.walkIndex) :
    (getPairRestingBook side table).map (·.toRestingOrderInput) =
      (table.map (·.toRestingOrderInput)).filter fun o => o.side = side := by
  unfold getPairRestingBook
  rw [List.mergeSort_of_pairwise, List.filter_map]
  · rfl
  · exact (hsorted.filter _).imp fun h => decide_eq_true h

end Columns

section Chain

variable {contractText : Addr → String} {fromStr : String → Option ℚ} {b : Book}
  {s : LimitOrderSide} {ids : List OrderId}

/-- The numbers a pair writes are read as what they are. -/
def ReadsDecimals (fromStr : String → Option ℚ) : Prop :=
  ∀ d : Decimal, fromStr (WasmEvents.decimalText d) = some ((d.atomics : ℚ) / 10 ^ 18)

theorem ReadsDecimals.whole (h : ReadsDecimals fromStr) (n : ℕ) :
    fromStr (toString n) = some (n : ℚ) := by
  have hread := h ⟨n * 10 ^ 18⟩
  have htext : WasmEvents.decimalText ⟨n * 10 ^ 18⟩ = toString n := by
    unfold WasmEvents.decimalText
    dsimp only
    rw [if_pos (Nat.mul_mod_left n (10 ^ 18)), Nat.mul_div_cancel n (by decide)]
  rw [htext] at hread
  rw [hread]
  push_cast
  norm_num

/-- The orders from `current` to the end of the list, by their links. -/
def Walked (b : Book) : Option OrderId → List OrderId → Prop
  | current, [] => current = none
  | current, id :: ids => current = some id ∧ ∃ o, b.orders id = some o ∧ Walked b o.next ids

/-- What walks a well-formed side is all of it. -/
theorem Walked.complete {A : AbsBook} (hA : Represents b A) (h : Walked b (b.head s) ids) :
    ids = A.queue s := by
  have hsuffix : ∀ (ids q : List OrderId) (p : Option OrderId), Walked b q.head? ids →
      DoublyLinked.Seg b.links p q none → ids = q := by
    intro ids
    induction ids with
    | nil =>
        intro q p hwalk _
        exact (List.head?_eq_none_iff.1 hwalk).symm
    | cons id ids ih =>
        intro q p hwalk hseg
        obtain ⟨hhead, o, ho, hrest⟩ := hwalk
        cases q with
        | nil => cases hhead
        | cons x q =>
            cases hhead
            obtain ⟨hnode, hseg⟩ := hseg
            obtain ⟨o', ho', hlink⟩ := Book.links_eq_some.1 hnode
            cases ho.symm.trans ho'
            have hnext : o.next = q.head? := by
              have h := congrArg DoublyLinked.Link.next hlink
              simpa using h
            rw [hnext] at hrest
            rw [ih q _ hrest hseg]
  rw [hA.head s] at h
  exact hsuffix ids _ none h (hA.linked s)

/-- The row that mirrors an order. -/
def mirrored (contractText : Addr → String) (b : Book) (s : LimitOrderSide) (id : OrderId) :
    Option RestingOrderInput :=
  (b.orders id).map fun o =>
    ⟨id, s.sideStr, (o.price.atomics : ℚ) / 10 ^ 18, o.remaining, some (contractText o.owner),
      o.expiresAt.map fun v : ℕ => (v : ℤ)⟩

theorem mirrored_plain {o : RestingOrderInput} {id : OrderId}
    (h : mirrored contractText b s id = some o) : Plain o := by
  obtain ⟨order, -, rfl⟩ := Option.map_eq_some_iff.1 h
  exact ⟨⟨_, rfl⟩, ⟨_, rfl⟩⟩

theorem mirrored_side {o : RestingOrderInput} {id : OrderId}
    (h : mirrored contractText b s id = some o) : o.side = s.sideStr := by
  obtain ⟨order, -, rfl⟩ := Option.map_eq_some_iff.1 h
  rfl

theorem parseReserveAmount_text (hread : ReadsDecimals fromStr) {n : ℕ} {x : ℚ}
    (h : parseReserveAmount fromStr (toString n) = .ok x) : x = n := by
  unfold parseReserveAmount parseDecimalAmount at h
  rw [hread.whole n] at h
  split_ifs at h
  cases h
  rfl

theorem parseBookPrice_text (hread : ReadsDecimals fromStr) {d : Decimal} {x : ℚ}
    (h : parseBookPrice fromStr (WasmEvents.decimalText d) = .ok x) :
    x = (d.atomics : ℚ) / 10 ^ 18 := by
  unfold parseBookPrice parseDecimalAmount at h
  rw [hread d] at h
  dsimp only [bind, Except.bind] at h
  split_ifs at h
  cases h
  rfl

/-- A row that is accepted mirrors the order it answers for. -/
theorem restingOrder_mirrored (hread : ReadsDecimals fromStr) {p : PairStorage} {id : OrderId}
    {row : ChainLimitOrderRow} {o : RestingOrderInput}
    (hrow : queryLimitOrder contractText p id = some row)
    (h : restingOrder fromStr s.sideStr id row = .ok o) :
    mirrored contractText p.book s id = some o ∧
      ∃ order, p.book.orders id = some order ∧ row.next = order.next := by
  obtain ⟨order, horder, rfl⟩ := Option.map_eq_some_iff.1 hrow
  refine ⟨?_, order, horder, rfl⟩
  unfold mirrored
  rw [horder]
  unfold restingOrder at h
  split_ifs at h
  cases hprice : parseBookPrice fromStr (WasmEvents.decimalText order.price) with
  | error e =>
      rw [hprice] at h
      cases h
  | ok price =>
      cases hremaining : parseReserveAmount fromStr (toString order.remaining) with
      | error e =>
          rw [hprice, hremaining] at h
          cases h
      | ok remaining =>
          rw [hprice, hremaining] at h
          cases h
          rw [parseBookPrice_text hread hprice, parseReserveAmount_text hread hremaining]
          rfl

end Chain

end Cl8yDex.BookSnapshot
