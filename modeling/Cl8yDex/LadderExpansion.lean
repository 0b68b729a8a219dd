import Cl8yDex.LadderPrices
import Cl8yDex.PlacementSpec

/-!
# The expansion of a ladder

The rungs of an accepted ladder carry its prices and amounts in order, and its hint stands on the
rung that the batch inserts first.
-/

namespace Cl8yDex

open Outcome

variable {spec : LimitOrderLadderSpec} {maxRungs decimals0 decimals1 n k : ℕ}
  {items : List LimitOrderPlacementItem} {side : LimitOrderSide} {plans : List BatchRungPlan}

/-- `ladder_amounts_equal` with its checked operations. -/
def ladderAmountsEqualChecked (total count : ℕ) : Except ContractError (List ℕ) := do
  let base ← divOrZero total count
  let amounts := List.replicate count base
  let assigned ← mulOrOverflow base count
  let remainder ← subOrOverflow total assigned
  if remainder = 0 then return amounts
  else
    let last ← orThrow amounts.getLast? (.std (.genericErr "empty ladder"))
    let last ← addOrOverflow last remainder
    return amounts.dropLast ++ [last]

theorem ladderAmountsEqualChecked_eq {total : ℕ} (htotal : total ≤ u128Max) (hn : n ≠ 0) :
    ladderAmountsEqualChecked total n = .ok (ladderAmountsEqual total n) := by
  obtain ⟨m, rfl⟩ := Nat.exists_eq_succ_of_ne_zero hn
  rw [Nat.succ_eq_add_one, ladderAmountsEqual_succ]
  have hassigned : total / (m + 1) * (m + 1) ≤ total := Nat.div_mul_le_self _ _
  have hdiv := Nat.div_add_mod total (m + 1)
  rw [Nat.mul_comm] at hdiv
  have hremainder : total - total / (m + 1) * (m + 1) = total % (m + 1) := by omega
  have hlast : total / (m + 1) + total % (m + 1) ≤ u128Max := by
    have hle : total / (m + 1) ≤ total / (m + 1) * (m + 1) :=
      Nat.le_mul_of_pos_right _ (Nat.succ_pos m)
    omega
  unfold ladderAmountsEqualChecked
  rw [divOrZero_eq_ok.2 ⟨Nat.succ_ne_zero m, rfl⟩, ok_bind,
    mulOrOverflow_eq_ok.2 ⟨hassigned.trans htotal, rfl⟩, ok_bind,
    subOrOverflow_eq_ok.2 ⟨hassigned, rfl⟩, ok_bind, hremainder]
  by_cases hzero : total % (m + 1) = 0
  · rw [if_pos hzero, hzero, Nat.add_zero, List.replicate_succ']
    rfl
  · rw [if_neg hzero, List.replicate_succ', List.getLast?_concat, orThrow_some, ok_bind,
      addOrOverflow_eq_ok.2 ⟨hlast, rfl⟩, ok_bind, List.dropLast_concat]
    rfl

def LimitOrderLadderSpec.rungs (spec : LimitOrderLadderSpec) : List Decimal :=
  (List.range spec.count).map (rungPrice spec.startPrice spec.endPrice spec.count)

def LimitOrderLadderSpec.amounts (spec : LimitOrderLadderSpec) : List ℕ :=
  ladderAmountsEqual spec.totalAmount spec.count

def LimitOrderLadderSpec.boundary (spec : LimitOrderLadderSpec) : ℕ :=
  ladderBoundaryRungIndex spec.side spec.startPrice spec.endPrice spec.count

def LimitOrderLadderSpec.item (spec : LimitOrderLadderSpec) (idx : ℕ) (rung : Decimal × ℕ) :
    LimitOrderPlacementItem where
  price := rung.1
  amount := rung.2
  maxAdjustSteps := spec.maxAdjustSteps
  expiresAt := spec.expiresAt
  hintAfterOrderId := if idx = spec.boundary then spec.hintAfterOrderId else none

/-- A ladder between two prices that pass the gate. -/
structure LadderRequest (spec : LimitOrderLadderSpec) (maxRungs decimals0 decimals1 : ℕ) :
    Prop where
  two_le : 2 ≤ spec.count
  count_le : spec.count ≤ maxRungs
  rungs_le : maxRungs ≤ 100
  start_le : spec.startPrice.atomics ≤ u128Max
  end_le : spec.endPrice.atomics ≤ u128Max
  start_ok : validateLimitOrderPrice spec.startPrice decimals0 decimals1 = .ok ()
  end_ok : validateLimitOrderPrice spec.endPrice decimals0 decimals1 = .ok ()
  total_pos : 0 < spec.totalAmount
  total_le : spec.totalAmount ≤ u128Max

section Rungs

theorem rungs_length : spec.rungs.length = spec.count := by
  unfold LimitOrderLadderSpec.rungs
  rw [List.length_map, List.length_range]

theorem amounts_length : spec.amounts.length = spec.count := ladderAmountsEqual_length

theorem rungPrice_mono {start stop : Decimal} {i j : ℕ} (h : start ≤ stop) (hij : i ≤ j)
    (hj : j ≤ n - 1) : rungPrice start stop n i ≤ rungPrice start stop n j :=
  rungAtomics_mono h hij hj

theorem rungPrice_anti {start stop : Decimal} {i j : ℕ} (h : stop ≤ start) (hij : i ≤ j)
    (hj : j ≤ n - 1) : rungPrice start stop n j ≤ rungPrice start stop n i :=
  rungAtomics_anti h hij hj

theorem rungPrice_zero {start stop : Decimal} (hn : 2 ≤ n) : rungPrice start stop n 0 = start :=
  Decimal.ext (rungAtomics_zero hn)

theorem rungPrice_last {start stop : Decimal} : rungPrice start stop n (n - 1) = stop :=
  Decimal.ext rungAtomics_last

theorem rungPrice_ne_last {start stop : Decimal} {i : ℕ} (h : start ≠ stop) (hi : i < n - 1) :
    rungPrice start stop n i ≠ stop := by
  intro heq
  apply rungAtomics_ne_last (fun heq => h (Decimal.ext heq)) hi
  exact congrArg Decimal.atomics heq

theorem rungs_pairwise {R : Decimal → Decimal → Prop}
    (h : ∀ i j, i ≤ j → j ≤ spec.count - 1 →
      R (rungPrice spec.startPrice spec.endPrice spec.count i)
        (rungPrice spec.startPrice spec.endPrice spec.count j)) : spec.rungs.Pairwise R := by
  unfold LimitOrderLadderSpec.rungs
  rw [List.pairwise_map]
  apply List.pairwise_lt_range.imp_of_mem
  intro i j _ hj hij
  have hlt := List.mem_range.1 hj
  exact h i j hij.le (by omega)

variable (hreq : LadderRequest spec maxRungs decimals0 decimals1)
include hreq

theorem LadderRequest.prices :
    ladderPrices spec.startPrice spec.endPrice spec.count = .ok spec.rungs :=
  ladderPrices_eq hreq.start_le hreq.end_le hreq.two_le

theorem LadderRequest.rung_ok {i : ℕ} (hi : i < spec.count) :
    validateLimitOrderPrice (rungPrice spec.startPrice spec.endPrice spec.count i) decimals0
      decimals1 = .ok () := by
  have hlast : i ≤ spec.count - 1 := by omega
  have hstart : rungPrice spec.startPrice spec.endPrice spec.count 0 = spec.startPrice :=
    rungPrice_zero hreq.two_le
  have hend : rungPrice spec.startPrice spec.endPrice spec.count (spec.count - 1) =
      spec.endPrice := rungPrice_last
  rcases le_total spec.startPrice spec.endPrice with h | h
  · have h1 := rungPrice_mono h (Nat.zero_le i) hlast
    have h2 := rungPrice_mono h hlast le_rfl
    rw [hstart] at h1
    rw [hend] at h2
    exact validate_between hreq.start_ok hreq.end_ok h1 h2
  · have h1 := rungPrice_anti h (Nat.zero_le i) hlast
    have h2 := rungPrice_anti h hlast le_rfl
    rw [hstart] at h1
    rw [hend] at h2
    exact validate_between hreq.end_ok hreq.start_ok h2 h1

theorem LadderRequest.gate : ∀ price ∈ spec.rungs,
    validateLimitOrderPrice price decimals0 decimals1 = .ok () := by
  intro price hprice
  obtain ⟨i, hi, rfl⟩ := List.mem_map.1 hprice
  exact hreq.rung_ok (List.mem_range.1 hi)

end Rungs

section Items

theorem forM_eq_ok {ε α : Type} {f : α → Except ε Unit} {l : List α} :
    l.forM f = .ok () ↔ ∀ x ∈ l, f x = .ok () := by
  induction l with
  | nil => exact iff_of_true rfl (fun _ hx => absurd hx List.not_mem_nil)
  | cons x l ih =>
      change (f x >>= fun _ => l.forM f) = .ok () ↔ _
      rw [bind_eq_ok, List.forall_mem_cons, ← ih]
      exact ⟨fun ⟨_, hx, hl⟩ => ⟨hx, hl⟩, fun ⟨hx, hl⟩ => ⟨(), hx, hl⟩⟩

theorem LadderRequest.expand_eq_ok (hreq : LadderRequest spec maxRungs decimals0 decimals1) :
    expandLimitLadder spec maxRungs decimals0 decimals1 = .ok items ↔
      (∀ amount ∈ spec.amounts, minLimitPlaceRemaining ≤ amount) ∧
      (∀ rung ∈ spec.rungs.zip spec.amounts, isLimitOrderFillable spec.side rung.2 rung.1 = true) ∧
      items = (spec.rungs.zip spec.amounts).mapIdx spec.item := by
  have hzero : ¬ (spec.startPrice.isZero ∨ spec.endPrice.isZero) :=
    not_or.2 ⟨(validateLimitOrderPrice_eq_ok.1 hreq.start_ok).1,
      (validateLimitOrderPrice_eq_ok.1 hreq.end_ok).1⟩
  have hgate : (spec.rungs.forM fun price => validateLimitOrderPrice price decimals0 decimals1) =
      .ok () := forM_eq_ok.2 hreq.gate
  unfold expandLimitLadder
  rw [ensure_pos hreq.two_le, ok_bind, ensure_pos hreq.count_le, ok_bind, ensure_pos hzero, ok_bind,
    hreq.start_ok, ok_bind, hreq.end_ok, ok_bind, ensure_pos hreq.total_pos.ne', ok_bind,
    hreq.prices, ok_bind, hgate, ok_bind, bind_eq_ok]
  constructor
  · rintro ⟨_, hmin, h⟩
    obtain ⟨_, hfill, h⟩ := bind_eq_ok.1 h
    cases h
    exact ⟨fun amount ha => ensure_eq_ok.1 (forM_eq_ok.1 hmin amount ha),
      fun rung hr => ensure_eq_ok.1 (forM_eq_ok.1 hfill rung hr), rfl⟩
  · rintro ⟨hmin, hfill, rfl⟩
    have hfillable : ((spec.rungs.zip spec.amounts).forM fun rung =>
        validateLimitOrderFillability spec.side rung.2 rung.1) = .ok () :=
      forM_eq_ok.2 fun rung hr => ensure_pos (hfill rung hr)
    refine ⟨(), forM_eq_ok.2 fun amount ha => ensure_pos (hmin amount ha), ?_⟩
    rw [LimitOrderLadderSpec.amounts] at hfillable
    rw [hfillable]
    rfl

theorem item_getElem? {idx : ℕ} {item : LimitOrderPlacementItem}
    (h : ((spec.rungs.zip spec.amounts).mapIdx spec.item)[idx]? = some item) :
    idx < spec.count ∧ item.price = rungPrice spec.startPrice spec.endPrice spec.count idx ∧
      item.hintAfterOrderId = if idx = spec.boundary then spec.hintAfterOrderId else none := by
  rw [List.getElem?_mapIdx] at h
  obtain ⟨rung, hrung, rfl⟩ := Option.map_eq_some_iff.1 h
  obtain ⟨hprice, -⟩ := List.getElem?_zip_eq_some.1 hrung
  unfold LimitOrderLadderSpec.rungs at hprice
  rw [List.getElem?_map] at hprice
  obtain ⟨i, hi, hprice⟩ := Option.map_eq_some_iff.1 hprice
  obtain ⟨hlt, hval⟩ := List.getElem?_eq_some_iff.1 hi
  rw [List.length_range] at hlt
  rw [List.getElem_range] at hval
  rw [← hval] at hprice
  exact ⟨hlt, hprice.symm, rfl⟩

theorem numberRungs_eq_ok {index : ℕ} {id : OrderId} (h : numberRungs index id items = .ok plans) :
    plans = items.mapIdx fun j item => ⟨index + j, id + j, item⟩ := by
  induction items generalizing index id plans with
  | nil =>
      cases h
      rfl
  | cons item items ih =>
      obtain ⟨_, -, h⟩ := bind_eq_ok.1 h
      obtain ⟨rest, hrest, h⟩ := bind_eq_ok.1 h
      cases h
      have hshift : (fun j item => (⟨index + 1 + j, id + 1 + j, item⟩ : BatchRungPlan)) =
          fun j item => ⟨index + (j + 1), id + (j + 1), item⟩ := by
        funext j item
        rw [Nat.add_assoc, Nat.add_comm 1, Nat.add_assoc, Nat.add_comm 1]
      rw [ih hrest, List.mapIdx_cons, hshift]
      rfl

/-- A plan that comes before all others is the first of the sorted batch. -/
theorem head_insertionSort {plan : BatchRungPlan} (hmem : plan ∈ plans)
    (hfirst : ∀ other ∈ plans, other ≠ plan →
      before side plan.item.price plan.id other.item.price other.id) :
    (plans.insertionSort (bookOrderLe side)).head? = some plan := by
  have hsorted := List.pairwise_insertionSort (bookOrderLe side) plans
  have hin : plan ∈ plans.insertionSort (bookOrderLe side) := (List.mem_insertionSort _).2 hmem
  cases hlist : plans.insertionSort (bookOrderLe side) with
  | nil =>
      rw [hlist] at hin
      cases hin
  | cons head tail =>
      have hhead : head ∈ plans := by
        apply (List.mem_insertionSort (bookOrderLe side)).1
        rw [hlist]
        exact List.mem_cons_self ..
      rw [hlist] at hin hsorted
      by_contra hne
      have hne' : head ≠ plan := fun heq => hne (congrArg some heq)
      rcases List.mem_cons.1 hin with heq | htail
      · exact hne' heq.symm
      · exact (List.pairwise_cons.1 hsorted).1 plan htail (hfirst head hhead hne')

/-- The boundary rung comes before every other rung, ties included. -/
theorem boundary_before (hn : 2 ≤ spec.count) (id : OrderId) {j : ℕ} (hj : j < spec.count)
    (hne : j ≠ spec.boundary) :
    before spec.side (rungPrice spec.startPrice spec.endPrice spec.count spec.boundary)
      (id + spec.boundary) (rungPrice spec.startPrice spec.endPrice spec.count j) (id + j) := by
  have hlast : j ≤ spec.count - 1 := by omega
  have hend : rungPrice spec.startPrice spec.endPrice spec.count (spec.count - 1) =
      spec.endPrice := rungPrice_last
  unfold LimitOrderLadderSpec.boundary ladderBoundaryRungIndex at *
  cases hside : spec.side with
  | bid =>
      rw [hside] at hne
      dsimp only at hne ⊢
      split_ifs at hne ⊢ with h
      · rcases (rungPrice_anti h (Nat.zero_le j) hlast).lt_or_eq with hlt | heq
        · exact .inl hlt
        · exact .inr ⟨heq.symm, Nat.add_lt_add_left (Nat.pos_of_ne_zero hne) id⟩
      · have hlt := not_le.1 h
        have hle := rungPrice_mono hlt.le hlast le_rfl
        rw [hend] at hle ⊢
        exact .inl (lt_of_le_of_ne hle (rungPrice_ne_last hlt.ne (by omega)))
  | ask =>
      rw [hside] at hne
      dsimp only at hne ⊢
      split_ifs at hne ⊢ with h
      · rcases (rungPrice_mono h (Nat.zero_le j) hlast).lt_or_eq with hlt | heq
        · exact .inl hlt
        · exact .inr ⟨heq, Nat.add_lt_add_left (Nat.pos_of_ne_zero hne) id⟩
      · have hlt := not_le.1 h
        have hge := rungPrice_anti hlt.le hlast le_rfl
        rw [hend] at hge ⊢
        exact .inl (lt_of_le_of_ne hge (rungPrice_ne_last hlt.ne' (by omega)).symm)

end Items

/-- What the expansion of a ladder promises. -/
structure LadderSound (spec : LimitOrderLadderSpec) (maxRungs decimals0 decimals1 : ℕ) : Prop where
  prices : ladderPrices spec.startPrice spec.endPrice spec.count = .ok spec.rungs
  length : spec.rungs.length = spec.count ∧ spec.amounts.length = spec.count
  ends : spec.rungs.head? = some spec.startPrice ∧ spec.rungs.getLast? = some spec.endPrice
  gate : ∀ price ∈ spec.rungs, validateLimitOrderPrice price decimals0 decimals1 = .ok ()
  ascending : spec.startPrice ≤ spec.endPrice → spec.rungs.Pairwise (· ≤ ·)
  descending : spec.endPrice ≤ spec.startPrice → spec.rungs.Pairwise (· ≥ ·)
  amounts : ladderAmountsEqualChecked spec.totalAmount spec.count = .ok spec.amounts
  sum : spec.amounts.sum = spec.totalAmount
  expands : (∀ amount ∈ spec.amounts, minLimitPlaceRemaining ≤ amount) →
    (∀ rung ∈ spec.rungs.zip spec.amounts,
      isLimitOrderFillable spec.side rung.2 rung.1 = true) →
    ∃ items, expandLimitLadder spec maxRungs decimals0 decimals1 = .ok items
  items : ∀ items, expandLimitLadder spec maxRungs decimals0 decimals1 = .ok items →
    (items.map fun item => (item.price, item.amount)) = spec.rungs.zip spec.amounts
  hint : ∀ items, expandLimitLadder spec maxRungs decimals0 decimals1 = .ok items →
    ∃ k < spec.count,
      (∀ idx item, items[idx]? = some item →
        item.hintAfterOrderId = if idx = k then spec.hintAfterOrderId else none) ∧
      ∀ firstId plans, numberRungs 0 firstId items = .ok plans →
        (plans.insertionSort (bookOrderLe spec.side)).head?.map BatchRungPlan.inputIndex = some k

theorem boundary_lt (hn : 2 ≤ spec.count) : spec.boundary < spec.count := by
  unfold LimitOrderLadderSpec.boundary ladderBoundaryRungIndex
  split <;> split_ifs <;> omega

theorem head_of_expansion (hn : 2 ≤ spec.count) {firstId : OrderId}
    (h : numberRungs 0 firstId ((spec.rungs.zip spec.amounts).mapIdx spec.item) = .ok plans) :
    (plans.insertionSort (bookOrderLe spec.side)).head?.map BatchRungPlan.inputIndex =
      some spec.boundary := by
  have hplans := numberRungs_eq_ok h
  have hlength : ((spec.rungs.zip spec.amounts).mapIdx spec.item).length = spec.count := by
    rw [List.length_mapIdx, List.length_zip, rungs_length, amounts_length, Nat.min_self]
  have hget (j : ℕ) : plans[j]? = ((spec.rungs.zip spec.amounts).mapIdx spec.item)[j]?.map
      fun item => ⟨0 + j, firstId + j, item⟩ := by
    rw [hplans, List.getElem?_mapIdx]
  have hboundary := boundary_lt hn
  obtain ⟨item, hitem⟩ : ∃ item,
      ((spec.rungs.zip spec.amounts).mapIdx spec.item)[spec.boundary]? = some item :=
    List.getElem?_eq_some_iff.2 ⟨hlength.symm ▸ hboundary, rfl⟩ |> fun h => ⟨_, h⟩
  have hfirst := hget spec.boundary
  rw [hitem, Option.map_some] at hfirst
  rw [head_insertionSort (List.mem_of_getElem? hfirst)]
  · exact congrArg some (Nat.zero_add _)
  · intro other hother hne
    obtain ⟨j, hj⟩ := List.mem_iff_getElem?.1 hother
    rw [hget j] at hj
    obtain ⟨item', hitem', rfl⟩ := Option.map_eq_some_iff.1 hj
    obtain ⟨hlt, hprice, -⟩ := item_getElem? hitem'
    have hjne : j ≠ spec.boundary := by
      rintro rfl
      rw [hitem] at hitem'
      cases hitem'
      exact hne rfl
    have hbefore := boundary_before hn firstId hlt hjne
    rw [← hprice, ← (item_getElem? hitem).2.1] at hbefore
    exact hbefore

/-- The expansion of a ladder between two prices that pass the gate is total, conserves the amount
and hands its hint to the rung that is inserted first. -/
theorem ladder_expansion_sound (hreq : LadderRequest spec maxRungs decimals0 decimals1) :
    LadderSound spec maxRungs decimals0 decimals1 := by
  have hn := hreq.two_le
  constructor
  · exact hreq.prices
  · exact ⟨rungs_length, amounts_length⟩
  · constructor
    · rw [List.head?_eq_getElem?, LimitOrderLadderSpec.rungs, List.getElem?_map,
        List.getElem?_range (by omega), Option.map_some, rungPrice_zero hn]
    · rw [List.getLast?_eq_getElem?, rungs_length, LimitOrderLadderSpec.rungs, List.getElem?_map,
        List.getElem?_range (by omega), Option.map_some, rungPrice_last]
  · exact hreq.gate
  · exact fun h => rungs_pairwise fun i j hij hj => rungPrice_mono h hij hj
  · exact fun h => rungs_pairwise fun i j hij hj => rungPrice_anti h hij hj
  · exact ladderAmountsEqualChecked_eq hreq.total_le (by omega)
  · exact ladderAmountsEqual_sum (by omega)
  · exact fun hmin hfill => ⟨_, hreq.expand_eq_ok.2 ⟨hmin, hfill, rfl⟩⟩
  · intro items h
    obtain ⟨-, -, rfl⟩ := hreq.expand_eq_ok.1 h
    apply List.ext_getElem?
    intro i
    rw [List.getElem?_map, List.getElem?_mapIdx]
    cases (spec.rungs.zip spec.amounts)[i]? <;> rfl
  · intro items h
    obtain ⟨-, -, rfl⟩ := hreq.expand_eq_ok.1 h
    exact ⟨spec.boundary, boundary_lt hn, fun idx item hitem => (item_getElem? hitem).2.2,
      fun firstId plans hplans => head_of_expansion hn hplans⟩

/-- A descending ladder of bids over a span that its steps do not divide. -/
theorem ladder_expansion_sound_sample :
    LadderSound ⟨.bid, ⟨2 * 10 ^ 18⟩, ⟨10 ^ 18⟩, 4, 1003, 5, none, some 7⟩ 5 6 6 :=
  ladder_expansion_sound ⟨by decide, by decide, by decide, by decide, by decide,
    by decide +kernel, by decide +kernel, by decide, by decide⟩

end Cl8yDex
