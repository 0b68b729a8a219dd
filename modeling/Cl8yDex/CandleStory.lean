import Mathlib.Data.Int.ConditionallyCompleteOrder
import Cl8yDex.CandleRows

/-!
# Candles of different intervals

The rows of a coarse interval against the rows of a finer one that their buckets contain:
sums of volumes and counts in every history, human quadruples in histories of swaps in the
order of block time.
-/

namespace Cl8yDex.Candles

open OpenHighLowClose

variable {history : List CandleEvent} {fine coarse : Interval} {openTime : ℤ}

/-- The open times of the finer rows in a bucket. -/
def finerBuckets (history : List CandleEvent) (fine coarse : Interval) (openTime : ℤ) :
    Finset ℤ :=
  (history.map fun event => truncateToInterval fine event.time).toFinset.filter fun time =>
    (candlesOf history fine time).isSome ∧ truncateToInterval coarse time = openTime

theorem mem_bucketOf {interval : Interval} {event : CandleEvent} :
    event ∈ bucketOf interval openTime history ↔
      event ∈ history ∧ truncateToInterval interval event.time = openTime := by
  simp [bucketOf]

/-- A row has an event in its bucket. -/
theorem exists_of_row {interval : Interval} (h : (candlesOf history interval openTime).isSome) :
    ∃ event ∈ history, truncateToInterval interval event.time = openTime := by
  rw [candlesOf_apply] at h
  cases hbucket : bucketOf interval openTime history with
  | nil =>
    rw [hbucket] at h
    cases h
  | cons event events =>
    have hmem : event ∈ bucketOf interval openTime history := by
      rw [hbucket]
      exact List.mem_cons_self
    exact ⟨event, mem_bucketOf.mp hmem⟩

theorem mem_finerBuckets {time : ℤ} : time ∈ finerBuckets history fine coarse openTime ↔
    (candlesOf history fine time).isSome ∧ truncateToInterval coarse time = openTime := by
  constructor
  · intro h
    exact (Finset.mem_filter.mp h).2
  · intro h
    apply Finset.mem_filter.mpr
    refine ⟨?_, h⟩
    obtain ⟨event, hmem, htime⟩ := exists_of_row h.1
    rw [List.mem_toFinset]
    exact List.mem_map.mpr ⟨event, hmem, htime⟩

/-- Within a coarse bucket the events of a finer one are a group. -/
theorem group_bucket (h : fine.seconds ≤ coarse.seconds) {time : ℤ}
    (htime : truncateToInterval coarse time = openTime) :
    StableGroups.group (fun event => truncateToInterval fine event.time)
      (bucketOf coarse openTime history) time = bucketOf fine time history := by
  unfold StableGroups.group bucketOf
  rw [List.filter_filter]
  apply List.filter_congr
  intro event _
  by_cases hfine : truncateToInterval fine event.time = time
  · have hcoarse := truncate_nested h event.time
    rw [hfine, htime] at hcoarse
    simp [hfine, hcoarse]
  · simp [hfine]

theorem truncate_of_mem_bucket (h : fine.seconds ≤ coarse.seconds) {event : CandleEvent}
    (hmem : event ∈ bucketOf coarse openTime history) :
    truncateToInterval coarse (truncateToInterval fine event.time) = openTime := by
  rw [truncate_nested h]
  exact (mem_bucketOf.mp hmem).2

/-- What the events of a bucket add up to is the sum over the finer rows in it. -/
theorem sum_finer {M : Type} [AddCommMonoid M] (openTime : ℤ) (h : fine.seconds ≤ coarse.seconds)
    (value : Option CandleRow → M) (w : CandleEvent → M) (hnone : value none = 0)
    (hvalue : ∀ interval time, value (candlesOf history interval time) =
      ((bucketOf interval time history).map w).sum) :
    value (candlesOf history coarse openTime) =
      ∑ time ∈ finerBuckets history fine coarse openTime,
        value (candlesOf history fine time) := by
  let key := fun event : CandleEvent => truncateToInterval fine event.time
  let times := ((bucketOf coarse openTime history).map key).toFinset
  have hcoarse : ∀ time ∈ times, truncateToInterval coarse time = openTime := by
    intro time hmem
    obtain ⟨event, hevent, rfl⟩ := List.mem_map.mp (List.mem_toFinset.mp hmem)
    exact truncate_of_mem_bucket h hevent
  have hsum : value (candlesOf history coarse openTime) =
      ∑ time ∈ times, value (candlesOf history fine time) := by
    rw [hvalue, ← sum_groups key w times (bucketOf coarse openTime history) fun event hmem =>
      List.mem_toFinset.mpr (List.mem_map_of_mem hmem)]
    apply Finset.sum_congr rfl
    intro time hmem
    rw [hvalue, group_bucket h (hcoarse time hmem)]
  rw [hsum]
  symm
  apply Finset.sum_subset
  · intro time hmem
    obtain ⟨hrow, htime⟩ := mem_finerBuckets.mp hmem
    obtain ⟨event, hevent, hkey⟩ := exists_of_row hrow
    have hnested := truncate_nested h event.time
    rw [hkey, htime] at hnested
    exact List.mem_toFinset.mpr
      (List.mem_map.mpr ⟨event, mem_bucketOf.mpr ⟨hevent, hnested.symm⟩, hkey⟩)
  · intro time hmem hnot
    cases hrow : candlesOf history fine time with
    | none => exact hnone
    | some row =>
      exact absurd (mem_finerBuckets.mpr ⟨by rw [hrow]; rfl, hcoarse time hmem⟩) hnot

theorem sums_of_bucket (history : List CandleEvent) (interval : Interval) (time : ℤ) :
    baseOf (candlesOf history interval time) =
        ((bucketOf interval time history).map CandleEvent.base).sum ∧
      quoteOf (candlesOf history interval time) =
        ((bucketOf interval time history).map CandleEvent.quote).sum ∧
      tradesOf (candlesOf history interval time) =
        ((bucketOf interval time history).map CandleEvent.trades).sum := by
  have hsums := foldl_sums (bucketOf interval time history) none
  rw [← candlesOf_apply] at hsums
  simpa [baseOf, quoteOf, tradesOf] using hsums

section Human

variable (hswaps : ∀ event ∈ history, event.isSwap = true)

include hswaps

theorem human_of_bucket (interval : Interval) (time : ℤ) :
    humanOf (candlesOf history interval time) =
      ofPrices ((bucketOf interval time history).filterMap CandleEvent.human) := by
  rw [candlesOf_apply]
  exact foldl_human _ fun event hmem => hswaps event (mem_bucketOf.mp hmem).1

theorem row_of_human {event : CandleEvent} (hmem : event ∈ history) {price : ℚ}
    (hprice : event.human = some price) (interval : Interval) :
    (candlesOf history interval (truncateToInterval interval event.time)).isSome := by
  cases hrow : candlesOf history interval (truncateToInterval interval event.time) with
  | some row => rfl
  | none =>
    have hhuman := human_of_bucket hswaps interval (truncateToInterval interval event.time)
    rw [hrow] at hhuman
    have hempty := ofPrices_eq_none hhuman.symm
    have hlisted : price ∈ (bucketOf interval (truncateToInterval interval event.time)
        history).filterMap CandleEvent.human :=
      List.mem_filterMap.mpr ⟨event, mem_bucketOf.mpr ⟨hmem, rfl⟩, hprice⟩
    rw [hempty] at hlisted
    cases hlisted

/-- The human prices of a bucket are those of its finer rows, one after the other. -/
theorem prices_finer (h : fine.seconds ≤ coarse.seconds)
    (hsorted : history.Pairwise fun event next => event.time ≤ next.time) :
    (bucketOf coarse openTime history).filterMap CandleEvent.human =
      ((finerBuckets history fine coarse openTime).sort (· ≤ ·)).flatMap fun time =>
        (bucketOf fine time history).filterMap CandleEvent.human := by
  let key := fun event : CandleEvent => truncateToInterval fine event.time
  let priced := (bucketOf coarse openTime history).filter fun event => event.human.isSome
  have hpriced : (bucketOf coarse openTime history).filterMap CandleEvent.human =
      priced.filterMap CandleEvent.human := by
    rw [List.filterMap_filter]
    apply List.filterMap_congr
    intro event _
    cases event.human <;> simp
  have horder : priced.Pairwise fun event next => key event ≤ key next :=
    ((hsorted.filter _).filter _).imp fun hle => truncate_mono fine hle
  have hmem : ∀ event ∈ priced, key event ∈
      (finerBuckets history fine coarse openTime).sort (· ≤ ·) := by
    intro event hevent
    obtain ⟨hbucket, hhuman⟩ := List.mem_filter.mp hevent
    obtain ⟨price, hprice⟩ := Option.isSome_iff_exists.mp hhuman
    rw [Finset.mem_sort, mem_finerBuckets]
    exact ⟨row_of_human hswaps (mem_bucketOf.mp hbucket).1 hprice fine,
      truncate_of_mem_bucket h hbucket⟩
  have hgroups := StableGroups.eq_flatMap_group horder
    (Finset.pairwise_sort (finerBuckets history fine coarse openTime) (· ≤ ·))
    (Finset.sort_nodup _ _) hmem
  rw [hpriced, hgroups, List.filterMap_flatMap]
  apply List.flatMap_congr
  intro time htime
  rw [Finset.mem_sort, mem_finerBuckets] at htime
  have hgroup : StableGroups.group key priced time =
      (bucketOf fine time history).filter fun event => event.human.isSome := by
    rw [← group_bucket h htime.2]
    unfold StableGroups.group priced
    rw [List.filter_filter, List.filter_filter]
    apply List.filter_congr
    intro event _
    exact Bool.and_comm _ _
  rw [hgroup, List.filterMap_filter]
  apply List.filterMap_congr
  intro event _
  cases event.human <;> simp

/-- The human quadruple of a bucket is the aggregate of the finer ones in it. -/
theorem human_finer (openTime : ℤ) (h : fine.seconds ≤ coarse.seconds)
    (hsorted : history.Pairwise fun event next => event.time ≤ next.time) :
    humanOf (candlesOf history coarse openTime) =
      aggregate (((finerBuckets history fine coarse openTime).sort (· ≤ ·)).filterMap
        fun time => humanOf (candlesOf history fine time)) := by
  have hquadruples : (fun time => humanOf (candlesOf history fine time)) = fun time =>
      ofPrices ((bucketOf fine time history).filterMap CandleEvent.human) := by
    funext time
    exact human_of_bucket hswaps fine time
  rw [human_of_bucket hswaps, prices_finer hswaps h hsorted, ofPrices_flatMap, hquadruples]

end Human

theorem row_shaped {interval : Interval} {row : CandleRow}
    (hrow : candlesOf history interval openTime = some row) : Shaped row := by
  rw [candlesOf_apply] at hrow
  exact foldl_shaped _ row hrow

/-- Candles of different intervals tell one story: the buckets are nested, volumes and counts
are the sums of the finer rows, both quadruples of a row are complete and ordered or absent,
and without marks the human quadruple is the aggregate of the finer ones. -/
theorem candles_tell_one_story (history : List CandleEvent) :
    (∀ fine coarse ts, fine.seconds ≤ coarse.seconds →
      truncateToInterval coarse (truncateToInterval fine ts) = truncateToInterval coarse ts) ∧
    (∀ interval openTime row, candlesOf history interval openTime = some row → Shaped row) ∧
    ∀ (fine coarse : Interval) (openTime : ℤ) (row : CandleRow),
      fine.seconds ≤ coarse.seconds → candlesOf history coarse openTime = some row →
      (∀ time, time ∈ finerBuckets history fine coarse openTime ↔
        (candlesOf history fine time).isSome ∧ truncateToInterval coarse time = openTime) ∧
      row.volumeBase = ∑ time ∈ finerBuckets history fine coarse openTime,
        baseOf (candlesOf history fine time) ∧
      row.volumeQuote = ∑ time ∈ finerBuckets history fine coarse openTime,
        quoteOf (candlesOf history fine time) ∧
      row.tradeCount = ∑ time ∈ finerBuckets history fine coarse openTime,
        tradesOf (candlesOf history fine time) ∧
      ((∀ event ∈ history, event.isSwap = true) →
        (history.Pairwise fun event next => event.time ≤ next.time) →
        columns (row.openHuman, row.highHuman, row.lowHuman, row.closeHuman) =
          aggregate (((finerBuckets history fine coarse openTime).sort (· ≤ ·)).filterMap
            fun time => humanOf (candlesOf history fine time))) := by
  refine ⟨fun fine coarse ts h => truncate_nested h ts,
    fun interval openTime row hrow => row_shaped hrow, ?_⟩
  intro fine coarse openTime row h hrow
  have hbase := sum_finer openTime h baseOf CandleEvent.base rfl
    fun interval time => (sums_of_bucket history interval time).1
  have hquote := sum_finer openTime h quoteOf CandleEvent.quote rfl
    fun interval time => (sums_of_bucket history interval time).2.1
  have htrades := sum_finer openTime h tradesOf CandleEvent.trades rfl
    fun interval time => (sums_of_bucket history interval time).2.2
  rw [hrow] at hbase hquote htrades
  refine ⟨fun time => mem_finerBuckets, hbase, hquote, htrades, ?_⟩
  intro hswaps hsorted
  have hhuman := human_finer hswaps openTime h hsorted
  rw [hrow] at hhuman
  exact hhuman

/-- Two swaps in consecutive minutes of one bucket of five. -/
def sampleSwaps : List CandleEvent :=
  [.swap 5000000000 (.usd .asset0 2) 3 10 30, .swap 61000000000 .humanOnly 4 5 20]

theorem candles_tell_one_story_sample :
    ∃ row, candlesOf sampleSwaps .m5 0 = some row ∧
      row.volumeBase = ∑ time ∈ finerBuckets sampleSwaps .m1 .m5 0,
        baseOf (candlesOf sampleSwaps .m1 time) ∧
      columns (row.openHuman, row.highHuman, row.lowHuman, row.closeHuman) =
        aggregate (((finerBuckets sampleSwaps .m1 .m5 0).sort (· ≤ ·)).filterMap
          fun time => humanOf (candlesOf sampleSwaps .m1 time)) := by
  have hsome : (candlesOf sampleSwaps .m5 0).isSome := by decide +kernel
  obtain ⟨row, hrow⟩ := Option.isSome_iff_exists.mp hsome
  obtain ⟨-, hbase, -, -, hhuman⟩ := (candles_tell_one_story sampleSwaps).2.2 .m1 .m5 0 row
    (by decide) hrow
  have hswaps : ∀ event ∈ sampleSwaps, event.isSwap = true := by decide
  exact ⟨row, hrow, hbase, hhuman hswaps (by simp [sampleSwaps, CandleEvent.time])⟩

end Cl8yDex.Candles
