import Mathlib.Data.List.Sort
import Mathlib.Data.Prod.Lex
import Cl8yDex.CandleRows
import Cl8yDex.OrderedTables

/-!
# Candles rebuilt from the stored swaps

One statement groups the swaps of a pair by a time expression and replaces the rows of an
interval. Over the swaps that the live candles were written from, the groups are minutes.
-/

namespace Cl8yDex.Candles

open OpenHighLowClose

structure SwapEventRow where
  id : ℕ
  pairId : ℕ
  blockTimestamp : ℤ
  offerAssetId : ℕ
  offerAmount : ℚ
  returnAmount : ℚ
  price : ℚ
  priceUsd : Option ℚ

structure PairRow where
  id : ℕ
  asset0Id : ℕ

namespace SwapEventRow

def volumeBase (pair : PairRow) (row : SwapEventRow) : ℚ :=
  if row.offerAssetId = pair.asset0Id then row.offerAmount else row.returnAmount

def volumeQuote (pair : PairRow) (row : SwapEventRow) : ℚ :=
  if row.offerAssetId = pair.asset0Id then row.returnAmount else row.offerAmount

/-- `price_usd IS NOT NULL AND price_usd > 0 AND price > 0`. -/
def isPriced (row : SwapEventRow) : Bool := row.priceUsd.any (0 < ·) && 0 < row.price

/-- What the arrays are ordered by. -/
def position (row : SwapEventRow) : ℤ ×ₗ ℕ := toLex (row.blockTimestamp, row.id)

/-- The live write of a swap whose first asset has a print. -/
def live (pair : PairRow) (row : SwapEventRow) : CandleEvent :=
  .swap row.blockTimestamp (row.priceUsd.elim .skip (.usd .asset0)) row.price
    (row.volumeBase pair) (row.volumeQuote pair)

end SwapEventRow

def dateTruncMinute (ts : ℤ) : ℤ := ts - ts % 60000000000

/-- The grouping expression. Its `%` and `/` have one precedence and associate to the left. -/
def openTimeExpr (interval : Interval) (ts : ℤ) : ℤ :=
  dateTruncMinute ts - (minute ts % interval.seconds / 60) * 60000000000

/-- The selected swaps of one group. -/
def groupRows (pair : PairRow) (swapEvents : List SwapEventRow) (interval : Interval)
    (start openTime : ℤ) : List SwapEventRow :=
  swapEvents.filter fun row =>
    row.pairId = pair.id ∧ start ≤ row.blockTimestamp ∧ row.isPriced ∧
      openTimeExpr interval row.blockTimestamp = openTime

def selectCandle (pair : PairRow) (swapEvents : List SwapEventRow) (interval : Interval)
    (start openTime : ℤ) : Option CandleRow :=
  let rows := groupRows pair swapEvents interval start openTime
  let ascending := rows.insertionSort fun row next => row.position ≤ next.position
  let descending := rows.insertionSort fun row next => next.position ≤ row.position
  if rows.isEmpty then none
  else some {
    openUsd := ascending.head?.bind SwapEventRow.priceUsd
    highUsd := (rows.filterMap SwapEventRow.priceUsd).max?
    lowUsd := (rows.filterMap SwapEventRow.priceUsd).min?
    closeUsd := descending.head?.bind SwapEventRow.priceUsd
    usdLeg := none
    openHuman := ascending.head?.map SwapEventRow.price
    highHuman := (rows.map SwapEventRow.price).max?
    lowHuman := (rows.map SwapEventRow.price).min?
    closeHuman := descending.head?.map SwapEventRow.price
    volumeBase := (rows.map (SwapEventRow.volumeBase pair)).sum
    volumeQuote := (rows.map (SwapEventRow.volumeQuote pair)).sum
    tradeCount := rows.length }

/-- Every selected row replaces the row stored at its open time. -/
def rebuildCandlesFromSwaps (pair : PairRow) (swapEvents : List SwapEventRow)
    (interval : Interval) (start : ℤ) (candles : CandleTable) : CandleTable :=
  fun other time =>
    if other = interval then
      (selectCandle pair swapEvents interval start time).or (candles other time)
    else candles other time

/-- A row without a leg is of the first asset. -/
def asAsset0 (row : CandleRow) : CandleRow :=
  { row with usdLeg := some (row.usdLeg.getD .asset0) }

/-- The minute of an hour is below sixty, so that the quotient is zero in every interval. -/
theorem openTimeExpr_eq (interval : Interval) (ts : ℤ) :
    openTimeExpr interval ts = truncateToInterval .m1 ts := by
  rw [truncate_eq]
  cases interval <;>
    simp only [openTimeExpr, dateTruncMinute, minute, Interval.seconds, Interval.offset] <;>
    omega

/-- A time is in the first minute of its bucket when its minute opens the bucket. -/
theorem first_minute_iff (interval : Interval) (ts : ℤ) :
    ts < truncateToInterval interval ts + 60000000000 ↔
      truncateToInterval interval ts = truncateToInterval .m1 ts := by
  rw [truncate_eq, truncate_eq]
  constructor <;> intro h <;> cases interval <;>
    simp only [Interval.seconds, Interval.offset] at h ⊢ <;> omega

section Groups

variable {pair : PairRow} {rows : List SwapEventRow}

/-- A row with both quadruples, of the first asset. -/
def rowWith (usd human : Ohlc ℚ) (base quote : ℚ) (count : ℕ) : CandleRow where
  openUsd := usd.opening
  highUsd := usd.high
  lowUsd := usd.low
  closeUsd := usd.closing
  usdLeg := some .asset0
  openHuman := human.opening
  highHuman := human.high
  lowHuman := human.low
  closeHuman := human.closing
  volumeBase := base
  volumeQuote := quote
  tradeCount := count

/-- The row of a list of swaps that all have both prices. -/
def summary (pair : PairRow) (rows : List SwapEventRow) : Option CandleRow :=
  (ofPrices (rows.filterMap SwapEventRow.priceUsd)).bind fun usd =>
    (ofPrices (rows.map SwapEventRow.price)).map fun human =>
      rowWith usd human (rows.map (SwapEventRow.volumeBase pair)).sum
        (rows.map (SwapEventRow.volumeQuote pair)).sum rows.length

theorem isPriced_iff {row : SwapEventRow} :
    row.isPriced = true ↔ (∃ usd, row.priceUsd = some usd ∧ 0 < usd) ∧ 0 < row.price := by
  simp [SwapEventRow.isPriced, Option.any_eq_true]

theorem exists_quadruples (hpriced : ∀ row ∈ rows, row.isPriced = true) (hrows : rows ≠ []) :
    ∃ usd human, ofPrices (rows.filterMap SwapEventRow.priceUsd) = some usd ∧
      ofPrices (rows.map SwapEventRow.price) = some human := by
  cases rows with
  | nil => exact absurd rfl hrows
  | cons row rows =>
    obtain ⟨⟨price, hprice, -⟩, -⟩ := isPriced_iff.mp (hpriced row List.mem_cons_self)
    cases husd : ofPrices ((row :: rows).filterMap SwapEventRow.priceUsd) with
    | none =>
      have hnil := ofPrices_eq_none husd
      rw [List.filterMap_cons_some hprice] at hnil
      cases hnil
    | some usd =>
      cases hhuman : ofPrices ((row :: rows).map SwapEventRow.price) with
      | none => cases ofPrices_eq_none hhuman
      | some human => exact ⟨usd, human, rfl, rfl⟩

theorem mergeSwap_rowWith (usd human : Ohlc ℚ) (base quote : ℚ) (count : ℕ)
    (price priceHuman offerAmount returnAmount : ℚ) :
    mergeSwapIntoCandle (some (rowWith usd human base quote count)) (some price)
        (some .asset0) (some priceHuman) offerAmount returnAmount =
      rowWith (usd.combine (single price)) (human.combine (single priceHuman))
        (base + offerAmount) (quote + returnAmount) (count + 1) := by
  have hhighUsd := merge_high price usd.opening usd.high usd.low
  have hlowUsd := merge_low price usd.opening usd.high usd.low
  have hhigh := merge_high priceHuman human.opening human.high human.low
  have hlow := merge_low priceHuman human.opening human.high human.low
  simp only [mergeSwapIntoCandle, rowWith, storedUsdLeg, mergeHumanOhlc, Option.getD_some,
    if_true, Ohlc.combine, single, hhighUsd, hlowUsd, hhigh, hlow]
  rfl

/-- Written one by one, priced swaps leave their summary. -/
theorem foldl_live (hpriced : ∀ row ∈ rows, row.isPriced = true) :
    (rows.map (SwapEventRow.live pair)).foldl CandleEvent.mergeRow none = summary pair rows := by
  induction rows using List.reverseRecOn with
  | nil => rfl
  | append_singleton rows row ih =>
    have hbefore := ih fun other hmem => hpriced other (List.mem_append_left _ hmem)
    obtain ⟨⟨usd, husd, hpos⟩, hprice⟩ :=
      isPriced_iff.mp (hpriced row (List.mem_append_right _ List.mem_cons_self))
    have hstep : ∀ existing, (row.live pair).mergeRow existing =
        some (mergeSwapIntoCandle existing (some usd) (some .asset0) (some row.price)
          (row.volumeBase pair) (row.volumeQuote pair)) := by
      intro existing
      simp [SwapEventRow.live, husd, CandleEvent.mergeRow, usdPrint, not_le.mpr hpos, hprice]
    rw [List.map_append, List.foldl_append, hbefore, List.map_singleton, List.foldl_cons,
      List.foldl_nil, hstep]
    unfold summary
    rw [List.filterMap_append, List.map_append, List.map_append, List.map_append,
      List.sum_append, List.sum_append, List.length_append, ofPrices_append, ofPrices_append]
    simp only [List.filterMap_cons, List.filterMap_nil, husd, List.map_cons, List.map_nil,
      List.sum_cons, List.sum_nil, add_zero, List.length_cons, List.length_nil, zero_add]
    by_cases hnil : rows = []
    · subst hnil
      simp [ofPrices, aggregate, mergeSwapIntoCandle, rowWith, single]
    · obtain ⟨usds, humans, husds, hhumans⟩ := exists_quadruples
        (fun other hmem => hpriced other (List.mem_append_left _ hmem)) hnil
      simp only [husds, hhumans, Option.bind_some, Option.map_some]
      rw [mergeSwap_rowWith]
      rfl

/-- The first print of priced rows is that of the first row. -/
theorem head?_bind_priceUsd (hpriced : ∀ row ∈ rows, row.isPriced = true) :
    rows.head?.bind SwapEventRow.priceUsd = (rows.filterMap SwapEventRow.priceUsd).head? := by
  cases rows with
  | nil => rfl
  | cons row rows =>
    obtain ⟨⟨price, hprice, -⟩, -⟩ := isPriced_iff.mp (hpriced row List.mem_cons_self)
    rw [List.filterMap_cons_some hprice]
    exact hprice

theorem max?_perm {prices prices' : List ℚ} (h : prices.Perm prices') :
    prices.max? = prices'.max? := by
  cases hmax : prices'.max? with
  | none =>
    rw [List.max?_eq_none_iff] at hmax ⊢
    exact List.perm_nil.mp (hmax ▸ h)
  | some price =>
    rw [List.max?_eq_some_iff] at hmax ⊢
    exact ⟨h.mem_iff.mpr hmax.1, fun other hmem => hmax.2 other (h.mem_iff.mp hmem)⟩

theorem min?_perm {prices prices' : List ℚ} (h : prices.Perm prices') :
    prices.min? = prices'.min? := by
  cases hmin : prices'.min? with
  | none =>
    rw [List.min?_eq_none_iff] at hmin ⊢
    exact List.perm_nil.mp (hmin ▸ h)
  | some price =>
    rw [List.min?_eq_some_iff] at hmin ⊢
    exact ⟨h.mem_iff.mpr hmin.1, fun other hmem => hmin.2 other (h.mem_iff.mp hmem)⟩

/-- The row selected for a group is the summary of its rows in their order. -/
theorem selectCandle_eq {swapEvents : List SwapEventRow} {interval : Interval}
    {start openTime : ℤ} (hperm : (groupRows pair swapEvents interval start openTime).Perm rows)
    (hordered : rows.Pairwise fun row next => row.position < next.position)
    (hpriced : ∀ row ∈ rows, row.isPriced = true) :
    (selectCandle pair swapEvents interval start openTime).map asAsset0 = summary pair rows := by
  unfold selectCandle
  dsimp only
  by_cases hnil : rows = []
  · have hempty : groupRows pair swapEvents interval start openTime = [] :=
      List.perm_nil.mp (hnil ▸ hperm)
    rw [hempty, hnil]
    rfl
  · have hsome : (groupRows pair swapEvents interval start openTime).isEmpty ≠ true := by
      intro hempty
      have hlength := hperm.length_eq
      rw [List.isEmpty_iff.mp hempty] at hlength
      exact hnil (List.length_eq_zero_iff.mp hlength.symm)
    obtain ⟨usd, human, husd, hhuman⟩ := exists_quadruples hpriced hnil
    obtain ⟨hopenUsd, hhighUsd, hlowUsd, hcloseUsd⟩ := ofPrices_eq_some husd
    obtain ⟨hopen, hhigh, hlow, hclose⟩ := ofPrices_eq_some hhuman
    have hlastUsd : rows.reverse.head?.bind SwapEventRow.priceUsd = some usd.closing := by
      rw [head?_bind_priceUsd fun row hmem => hpriced row (List.mem_reverse.mp hmem),
        List.filterMap_reverse, List.head?_reverse, hcloseUsd]
    have hlast : rows.reverse.head?.map SwapEventRow.price = some human.closing := by
      rw [← List.head?_map, List.map_reverse, List.head?_reverse, hclose]
    rw [if_neg hsome, OrderedTables.ascending_eq hperm hordered,
      OrderedTables.descending_eq hperm hordered,
      max?_perm (hperm.filterMap _), min?_perm (hperm.filterMap _), max?_perm (hperm.map _),
      min?_perm (hperm.map _), (hperm.map _).sum_eq, (hperm.map _).sum_eq, hperm.length_eq,
      head?_bind_priceUsd hpriced, ← List.head?_map, hopenUsd, hhighUsd, hlowUsd, hlastUsd,
      hopen, hhigh, hlow, hlast]
    unfold summary
    rw [husd, hhuman]
    rfl

end Groups

section Live

variable {pair : PairRow} {swapEvents history : List SwapEventRow} {start : ℤ}

/-- The swaps of a history in one bucket. -/
def bucketRows (interval : Interval) (openTime : ℤ) (history : List SwapEventRow) :
    List SwapEventRow :=
  history.filter fun row => truncateToInterval interval row.blockTimestamp = openTime

theorem mem_bucketRows {interval : Interval} {openTime : ℤ} {row : SwapEventRow} :
    row ∈ bucketRows interval openTime history ↔
      row ∈ history ∧ truncateToInterval interval row.blockTimestamp = openTime := by
  simp [bucketRows]

/-- The selected group is the history's bucket of one minute, in the order of the table. -/
theorem groupRows_perm (hrows : (swapEvents.filter fun row => row.pairId = pair.id).Perm history)
    (hpriced : ∀ row ∈ history, row.isPriced = true)
    (hstart : ∀ row ∈ history, start ≤ row.blockTimestamp) (interval : Interval)
    (openTime : ℤ) :
    (groupRows pair swapEvents interval start openTime).Perm (bucketRows .m1 openTime history) := by
  have hgroup : groupRows pair swapEvents interval start openTime =
      (swapEvents.filter fun row => row.pairId = pair.id).filter fun row =>
        start ≤ row.blockTimestamp ∧ row.isPriced ∧
          openTimeExpr interval row.blockTimestamp = openTime := by
    rw [List.filter_filter]
    apply List.filter_congr
    intro row _
    rw [Bool.and_comm]
    exact Bool.decide_and _ _
  have hkept := hrows.filter fun row => decide (start ≤ row.blockTimestamp ∧ row.isPriced ∧
    openTimeExpr interval row.blockTimestamp = openTime)
  rw [hgroup]
  refine hkept.trans (List.Perm.of_eq ?_)
  apply List.filter_congr
  intro row hmem
  simp [hstart row hmem, hpriced row hmem, openTimeExpr_eq]

/-- A live row is the summary of its bucket. -/
theorem live_eq (hpriced : ∀ row ∈ history, row.isPriced = true) (interval : Interval)
    (openTime : ℤ) :
    candlesOf (history.map (SwapEventRow.live pair)) interval openTime =
      summary pair (bucketRows interval openTime history) := by
  have hbucket : bucketOf interval openTime (history.map (SwapEventRow.live pair)) =
      (bucketRows interval openTime history).map (SwapEventRow.live pair) := by
    unfold bucketOf bucketRows
    rw [List.filter_map]
    rfl
  rw [candlesOf_apply, hbucket]
  exact foldl_live fun row hmem => hpriced row (mem_bucketRows.mp hmem).1

theorem summary_isSome (pair : PairRow) {rows : List SwapEventRow}
    (hpriced : ∀ row ∈ rows, row.isPriced = true) :
    (summary pair rows).isSome ↔ rows ≠ [] := by
  constructor
  · intro h hnil
    subst hnil
    cases h
  · intro hrows
    obtain ⟨usd, human, husd, hhuman⟩ := exists_quadruples hpriced hrows
    simp [summary, husd, hhuman]

theorem summary_asAsset0 (rows : List SwapEventRow) :
    (summary pair rows).map asAsset0 = summary pair rows := by
  unfold summary
  cases ofPrices (rows.filterMap SwapEventRow.priceUsd) with
  | none => rfl
  | some usd => cases ofPrices (rows.map SwapEventRow.price) <;> rfl

/-- Rebuilding an interval gives the live rows if and only if every swap is in the first
minute of its bucket. -/
theorem rebuilt_eq_live_iff (pair : PairRow) (swapEvents history : List SwapEventRow)
    (interval : Interval) (start : ℤ)
    (hrows : (swapEvents.filter fun row => row.pairId = pair.id).Perm history)
    (hordered : history.Pairwise fun row next => row.position < next.position)
    (hpriced : ∀ row ∈ history, row.isPriced = true)
    (hstart : ∀ row ∈ history, start ≤ row.blockTimestamp) :
    (∀ openTime,
      (rebuildCandlesFromSwaps pair swapEvents interval start (fun _ _ => none) interval
        openTime).map asAsset0 =
      (candlesOf (history.map (SwapEventRow.live pair)) interval openTime).map asAsset0) ↔
    ∀ row ∈ history,
      row.blockTimestamp < truncateToInterval interval row.blockTimestamp + 60000000000 := by
  have hbucket : ∀ interval openTime row, row ∈ bucketRows interval openTime history →
      row.isPriced = true := fun interval openTime row hmem =>
    hpriced row (mem_bucketRows.mp hmem).1
  have hrebuilt : ∀ openTime,
      (rebuildCandlesFromSwaps pair swapEvents interval start (fun _ _ => none) interval
        openTime).map asAsset0 = summary pair (bucketRows .m1 openTime history) := by
    intro openTime
    have hselected := selectCandle_eq (groupRows_perm hrows hpriced hstart interval openTime)
      (hordered.filter _) (hbucket .m1 openTime)
    unfold rebuildCandlesFromSwaps
    rw [if_pos rfl, Option.or_none]
    exact hselected
  simp only [hrebuilt, live_eq hpriced, summary_asAsset0, first_minute_iff]
  constructor
  · intro hsame row hmem
    let openTime := truncateToInterval .m1 row.blockTimestamp
    have hminute : row ∈ bucketRows .m1 openTime history := mem_bucketRows.mpr ⟨hmem, rfl⟩
    have hsome := (summary_isSome pair (hbucket .m1 openTime)).mpr
      (List.ne_nil_of_mem hminute)
    rw [hsame, summary_isSome _ (hbucket interval openTime)] at hsome
    -- Some swap's bucket opens at this minute, and opening times are fixed by truncation.
    obtain ⟨other, hother⟩ := List.exists_mem_of_ne_nil _ hsome
    have hopen : truncateToInterval interval other.blockTimestamp = openTime :=
      (mem_bucketRows.mp hother).2
    calc truncateToInterval interval row.blockTimestamp
        = truncateToInterval interval openTime :=
          (truncate_nested (minute_finest interval) row.blockTimestamp).symm
      _ = openTime := by rw [← hopen, truncate_idem]
  · intro haligned openTime
    have hrows : bucketRows .m1 openTime history = bucketRows interval openTime history := by
      apply List.filter_congr
      intro row hmem
      rw [haligned row hmem]
    rw [hrows]

/-- A swap of the first pair at a time in seconds. -/
def swapAt (id : ℕ) (seconds : ℤ) (price usd : ℚ) : SwapEventRow :=
  ⟨id, 1, seconds * 1000000000, 1, 10, 10 * price, price, some usd⟩

/-- Three swaps in the first minute of a quarter of an hour, and one in that of the next. -/
def quarterSwaps : List SwapEventRow :=
  [swapAt 1 3600 3 2, swapAt 2 3620 5 4, swapAt 4 3659 1 1, swapAt 5 4530 2 2]

/-- The same swaps as they are stored, with one of another pair. -/
def storedSwaps : List SwapEventRow :=
  [swapAt 2 3620 5 4, swapAt 1 3600 3 2, { swapAt 3 3640 9 9 with pairId := 2 },
    swapAt 4 3659 1 1, swapAt 5 4530 2 2]

/-- The first quarter opens at 3, reaches 5 and closes at 1, rebuilt as live. -/
theorem rebuilt_eq_live_sample :
    (∀ openTime,
      (rebuildCandlesFromSwaps ⟨1, 1⟩ storedSwaps .m15 0 (fun _ _ => none) .m15
        openTime).map asAsset0 =
      (candlesOf (quarterSwaps.map (SwapEventRow.live ⟨1, 1⟩)) .m15 openTime).map asAsset0) ∧
    (rebuildCandlesFromSwaps ⟨1, 1⟩ storedSwaps .m15 0 (fun _ _ => none) .m15
      3600000000000).map (fun row => (row.openHuman, row.highHuman, row.lowHuman, row.closeHuman,
        row.volumeQuote, row.tradeCount)) = some (some 3, some 5, some 1, some 1, 90, 3) := by
  have hordered : quarterSwaps.Pairwise fun row next => row.position < next.position := by
    decide +kernel
  refine ⟨?_, by decide +kernel⟩
  apply (rebuilt_eq_live_iff ⟨1, 1⟩ storedSwaps quarterSwaps .m15 0 (.swap ..) hordered
    (by decide +kernel) (by decide)).mpr
  decide

/-- One swap in the fourth minute of an hour. -/
def sampleSwap : SwapEventRow :=
  ⟨1, 1, 180000000000, 1, 10, 30, 3, some 2⟩

/-- In the interval of five minutes the swap is live in the bucket of the hour's start and
rebuilt in its own minute. -/
theorem rebuilt_minute :
    ¬ ∀ openTime,
      (rebuildCandlesFromSwaps ⟨1, 1⟩ [sampleSwap] .m5 0 (fun _ _ => none) .m5
        openTime).map asAsset0 =
      (candlesOf ([sampleSwap].map (SwapEventRow.live ⟨1, 1⟩)) .m5 openTime).map asAsset0 := by
  intro h
  have hlive : (candlesOf ([sampleSwap].map (SwapEventRow.live ⟨1, 1⟩)) .m5 0).isSome := by
    decide +kernel
  have hrebuilt : (rebuildCandlesFromSwaps ⟨1, 1⟩ [sampleSwap] .m5 0 (fun _ _ => none) .m5
      0).isNone := by
    decide +kernel
  have hsame := congrArg Option.isSome (h 0)
  rw [Option.isSome_map, Option.isSome_map, hlive] at hsame
  rw [Option.isNone_iff_eq_none] at hrebuilt
  rw [hrebuilt] at hsame
  cases hsame

end Live

end Cl8yDex.Candles
