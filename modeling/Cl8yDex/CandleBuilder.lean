import Mathlib.Algebra.Order.Ring.Int
import Mathlib.Tactic.Common
import Mathlib.Algebra.Order.Field.Rat

/-!
# Candle intervals

An instant is a number of nanoseconds since the start of 1970 in UTC. A bucket starts where
the calendar fields below its interval are zero; a week starts on Monday.
-/

namespace Cl8yDex.Candles

inductive Interval
  | m1 | m5 | m15 | h1 | h4 | d1 | w1
  deriving DecidableEq, Repr

def nanosecond (ts : ℤ) : ℤ := ts % 1000000000

def second (ts : ℤ) : ℤ := ts / 1000000000 % 60

def minute (ts : ℤ) : ℤ := ts / 60000000000 % 60

def hour (ts : ℤ) : ℤ := ts / 3600000000000 % 24

/-- The first of January 1970 was a Thursday. -/
def numDaysFromMonday (ts : ℤ) : ℤ := (ts / 86400000000000 + 3) % 7

def withNanosecond (ts : ℤ) (value : ℤ) : ℤ := ts + (value - nanosecond ts)

def withSecond (ts : ℤ) (value : ℤ) : ℤ := ts + (value - second ts) * 1000000000

def withMinute (ts : ℤ) (value : ℤ) : ℤ := ts + (value - minute ts) * 60000000000

def withHour (ts : ℤ) (value : ℤ) : ℤ := ts + (value - hour ts) * 3600000000000

def minusDays (ts : ℤ) (days : ℤ) : ℤ := ts - days * 86400000000000

def intervals : List Interval := [.m1, .m5, .m15, .h1, .h4, .d1, .w1]

theorem mem_intervals (interval : Interval) : interval ∈ intervals := by
  cases interval <;> decide

def Interval.seconds : Interval → ℤ
  | .m1 => 60
  | .m5 => 300
  | .m15 => 900
  | .h1 => 3600
  | .h4 => 14400
  | .d1 => 86400
  | .w1 => 604800

def truncateToInterval (interval : Interval) (ts : ℤ) : ℤ :=
  let zeroed := withNanosecond ts 0
  match interval with
  | .m1 => withSecond zeroed 0
  | .m5 =>
    let m := minute zeroed
    withSecond (withMinute zeroed (m - m % 5)) 0
  | .m15 =>
    let m := minute zeroed
    withSecond (withMinute zeroed (m - m % 15)) 0
  | .h1 => withSecond (withMinute zeroed 0) 0
  | .h4 =>
    let h := hour zeroed
    withSecond (withMinute (withHour zeroed (h - h % 4)) 0) 0
  | .d1 => withSecond (withMinute (withHour zeroed 0) 0) 0
  | .w1 =>
    let monday := minusDays zeroed (numDaysFromMonday zeroed)
    withSecond (withMinute (withHour monday 0) 0) 0

section Fields

variable (ts : ℤ)

theorem withNanosecond_zero : withNanosecond ts 0 = ts - ts % 1000000000 := by
  unfold withNanosecond nanosecond
  omega

theorem withSecond_zero (h : ts % 1000000000 = 0) :
    withSecond ts 0 = ts - ts % 60000000000 := by
  unfold withSecond second
  omega

theorem withMinute_floor (h : ts % 1000000000 = 0) (n : ℤ) (hn : n = 5 ∨ n = 15 ∨ n = 60) :
    withSecond (withMinute ts (minute ts - minute ts % n)) 0 =
      ts - ts % (n * 60000000000) := by
  rw [withSecond_zero]
  · unfold withMinute minute
    rcases hn with rfl | rfl | rfl <;> omega
  · unfold withMinute
    omega

theorem withMinute_zero (h : ts % 1000000000 = 0) :
    withSecond (withMinute ts 0) 0 = ts - ts % 3600000000000 := by
  rw [withSecond_zero]
  · unfold withMinute minute
    omega
  · unfold withMinute
    omega

theorem withHour_floor (h : ts % 1000000000 = 0) (n : ℤ) (hn : n = 4 ∨ n = 24) :
    withSecond (withMinute (withHour ts (hour ts - hour ts % n)) 0) 0 =
      ts - ts % (n * 3600000000000) := by
  rw [withMinute_zero]
  · unfold withHour hour
    rcases hn with rfl | rfl <;> omega
  · unfold withHour
    omega

theorem withHour_zero (h : ts % 1000000000 = 0) :
    withSecond (withMinute (withHour ts 0) 0) 0 = ts - ts % 86400000000000 := by
  rw [withMinute_zero]
  · unfold withHour hour
    omega
  · unfold withHour
    omega

end Fields

/-- Weeks are counted from a Monday, all other intervals from the start of 1970. -/
def Interval.offset : Interval → ℤ
  | .w1 => 259200000000000
  | _ => 0

theorem truncate_eq (interval : Interval) (ts : ℤ) : truncateToInterval interval ts =
    ts - (ts + interval.offset) % (interval.seconds * 1000000000) := by
  have hzeroed := withNanosecond_zero ts
  have hclean : withNanosecond ts 0 % 1000000000 = 0 := by omega
  cases interval with
  | m1 =>
    have h := withSecond_zero _ hclean
    simp only [truncateToInterval, Interval.offset, Interval.seconds]
    omega
  | m5 =>
    have h := withMinute_floor _ hclean 5 (Or.inl rfl)
    simp only [truncateToInterval, Interval.offset, Interval.seconds]
    omega
  | m15 =>
    have h := withMinute_floor _ hclean 15 (Or.inr (Or.inl rfl))
    simp only [truncateToInterval, Interval.offset, Interval.seconds]
    omega
  | h1 =>
    have h := withMinute_zero _ hclean
    simp only [truncateToInterval, Interval.offset, Interval.seconds]
    omega
  | h4 =>
    have h := withHour_floor _ hclean 4 (Or.inl rfl)
    simp only [truncateToInterval, Interval.offset, Interval.seconds]
    omega
  | d1 =>
    have h := withHour_zero _ hclean
    simp only [truncateToInterval, Interval.offset, Interval.seconds]
    omega
  | w1 =>
    have hmonday : minusDays (withNanosecond ts 0) (numDaysFromMonday (withNanosecond ts 0)) %
        1000000000 = 0 := by
      unfold minusDays
      omega
    have h := withHour_zero _ hmonday
    simp only [truncateToInterval, Interval.offset, Interval.seconds]
    rw [h]
    unfold minusDays numDaysFromMonday
    omega

/-- Each interval is a whole number of the finer ones, Mondays included. -/
theorem truncate_nested {fine coarse : Interval} (h : fine.seconds ≤ coarse.seconds) (ts : ℤ) :
    truncateToInterval coarse (truncateToInterval fine ts) = truncateToInterval coarse ts := by
  rw [truncate_eq, truncate_eq, truncate_eq]
  cases fine <;> cases coarse <;> simp only [Interval.seconds, Interval.offset] at h ⊢ <;> omega

theorem truncate_idem (interval : Interval) (ts : ℤ) :
    truncateToInterval interval (truncateToInterval interval ts) =
      truncateToInterval interval ts :=
  truncate_nested (le_refl _) ts

theorem truncate_mono (interval : Interval) {ts ts' : ℤ} (h : ts ≤ ts') :
    truncateToInterval interval ts ≤ truncateToInterval interval ts' := by
  rw [truncate_eq, truncate_eq]
  cases interval <;> simp only [Interval.seconds, Interval.offset] <;> omega

theorem minute_finest (interval : Interval) : Interval.m1.seconds ≤ interval.seconds := by
  cases interval <;> decide

end Cl8yDex.Candles

/-!
## Candles of one pair

Every swap is merged into its bucket of each of the seven intervals, from the row stored
there. A row has the open, high, low and close of the USD print of one leg and of the human
price, either of which may be absent. Marks refresh the USD series between swaps.
-/

namespace Cl8yDex.Candles

inductive CandleUsdLeg
  | asset0 | asset1
  deriving DecidableEq, Repr

inductive CandleUsdSubject
  | usd (leg : CandleUsdLeg) (price : ℚ)
  | humanOnly
  | skip

structure CandleRow where
  openUsd : Option ℚ
  highUsd : Option ℚ
  lowUsd : Option ℚ
  closeUsd : Option ℚ
  usdLeg : Option CandleUsdLeg
  openHuman : Option ℚ
  highHuman : Option ℚ
  lowHuman : Option ℚ
  closeHuman : Option ℚ
  volumeBase : ℚ
  volumeQuote : ℚ
  tradeCount : ℕ
  deriving DecidableEq

/-- The rows of a pair by interval and open time. -/
abbrev CandleTable := Interval → ℤ → Option CandleRow

/-- Open, high, low and close after one more price. -/
def mergeCandleOhlc (price existingOpen existingHigh existingLow : ℚ) : ℚ × ℚ × ℚ × ℚ :=
  let high := if price > existingHigh then price else existingHigh
  let low := if price < existingLow then price else existingLow
  (existingOpen, high, low, price)

/-- A row without a leg that has USD prices is of the first asset. -/
def storedUsdLeg (candle : CandleRow) : Option CandleUsdLeg :=
  match candle.usdLeg with
  | some leg => some leg
  | none => if candle.openUsd.isSome then some .asset0 else none

def mergeHumanOhlc (priceHuman : Option ℚ) (candle : CandleRow) :
    Option ℚ × Option ℚ × Option ℚ × Option ℚ :=
  match priceHuman with
  | none => (candle.openHuman, candle.highHuman, candle.lowHuman, candle.closeHuman)
  | some price =>
    match candle.openHuman, candle.highHuman, candle.lowHuman with
    | some o, some h, some l =>
      let (o, h, l, c) := mergeCandleOhlc price o h l
      (some o, some h, some l, some c)
    | _, _, _ => (some price, some price, some price, some price)

def mergeSwapIntoCandle (existing : Option CandleRow) (usdPrice : Option ℚ)
    (usdLeg : Option CandleUsdLeg) (human : Option ℚ) (offerAmount returnAmount : ℚ) :
    CandleRow :=
  match existing with
  | none =>
    ⟨usdPrice, usdPrice, usdPrice, usdPrice, usdLeg, human, human, human, human,
      offerAmount, returnAmount, 1⟩
  | some candle =>
    let (openHuman, highHuman, lowHuman, closeHuman) := mergeHumanOhlc human candle
    let kept : CandleRow := { candle with
      usdLeg := candle.usdLeg.or (storedUsdLeg candle)
      openHuman, highHuman, lowHuman, closeHuman
      volumeBase := candle.volumeBase + offerAmount
      volumeQuote := candle.volumeQuote + returnAmount
      tradeCount := candle.tradeCount + 1 }
    match usdPrice with
    | none => kept
    | some price =>
      let newLeg := usdLeg.getD .asset0
      if storedUsdLeg candle = some newLeg then
        let (o, h, l, c) :=
          match candle.openUsd, candle.highUsd, candle.lowUsd with
          | some o, some h, some l => mergeCandleOhlc price o h l
          | _, _, _ => (price, price, price, price)
        { kept with
          openUsd := some o
          highUsd := some h
          lowUsd := some l
          closeUsd := some c
          usdLeg := some newLeg }
      -- A stored leg or a human-only bucket is not reclassified.
      else kept

/-- The row a mark leaves, or `none` where the loop goes on to the next interval. -/
def mergeMarkIntoCandle (existing : Option CandleRow) (priceUsd priceHuman : ℚ) :
    Option CandleRow :=
  match existing with
  | none =>
    some ⟨some priceUsd, some priceUsd, some priceUsd, some priceUsd, some .asset0,
      some priceHuman, some priceHuman, some priceHuman, some priceHuman, 0, 0, 0⟩
  | some candle =>
    if storedUsdLeg candle = some .asset1 ∨ candle.openUsd.isNone then none
    else
      match candle.openUsd, candle.highUsd, candle.lowUsd with
      | some o, some h, some l =>
        let (o, h, l, c) := mergeCandleOhlc priceUsd o h l
        let marked : CandleRow := { candle with
          openUsd := some o
          highUsd := some h
          lowUsd := some l
          closeUsd := some c
          usdLeg := some .asset0 }
        if candle.tradeCount > 0 then some marked
        else
          let (openHuman, highHuman, lowHuman, closeHuman) :=
            mergeHumanOhlc (some priceHuman) candle
          some { marked with openHuman, highHuman, lowHuman, closeHuman }
      | _, _, _ => none

/-- The loop over the intervals: the row of the instant's bucket is read, merged and, unless
the merge goes on to the next interval, written back. -/
def updateIntervals (candles : CandleTable) (timestamp : ℤ)
    (merge : Option CandleRow → Option CandleRow) : CandleTable :=
  intervals.foldl (fun candles interval =>
    let openTime := truncateToInterval interval timestamp
    match merge (candles interval openTime) with
    | some row => fun other time =>
        if other = interval ∧ time = openTime then some row else candles other time
    | none => candles) candles

/-- The USD print and its leg, or `none` where the swap writes no candle. -/
def usdPrint (subject : CandleUsdSubject) (priceHuman : ℚ) :
    Option (Option ℚ × Option CandleUsdLeg) :=
  match subject with
  | .skip => none
  | .humanOnly => if priceHuman ≤ 0 then none else some (none, none)
  | .usd leg price => if price ≤ 0 then none else some (some price, some leg)

def updateCandlesForSwap (candles : CandleTable) (timestamp : ℤ) (subject : CandleUsdSubject)
    (priceHuman offerAmount returnAmount : ℚ) : CandleTable :=
  match usdPrint subject priceHuman with
  | none => candles
  | some (usdPrice, usdLeg) =>
    let human := if priceHuman > 0 then some priceHuman else none
    updateIntervals candles timestamp fun existing =>
      some (mergeSwapIntoCandle existing usdPrice usdLeg human offerAmount returnAmount)

def updateCandlesForMark (candles : CandleTable) (timestamp : ℤ) (priceUsd priceHuman : ℚ) :
    CandleTable :=
  if priceUsd ≤ 0 ∨ priceHuman ≤ 0 then candles
  else
    updateIntervals candles timestamp fun existing =>
      mergeMarkIntoCandle existing priceUsd priceHuman

/-- The writes of a pair's candles. -/
inductive CandleEvent
  | swap (timestamp : ℤ) (subject : CandleUsdSubject)
    (priceHuman offerAmount returnAmount : ℚ)
  | mark (timestamp : ℤ) (priceUsd priceHuman : ℚ)

namespace CandleEvent

def time : CandleEvent → ℤ
  | swap timestamp _ _ _ _ => timestamp
  | mark timestamp _ _ => timestamp

def isSwap : CandleEvent → Bool
  | swap .. => true
  | mark .. => false

def update (candles : CandleTable) : CandleEvent → CandleTable
  | swap timestamp subject priceHuman offerAmount returnAmount =>
    updateCandlesForSwap candles timestamp subject priceHuman offerAmount returnAmount
  | mark timestamp priceUsd priceHuman =>
    updateCandlesForMark candles timestamp priceUsd priceHuman

/-- What the event makes of the row of its bucket, the same for every interval. -/
def mergeRow (existing : Option CandleRow) : CandleEvent → Option CandleRow
  | swap _ subject priceHuman offerAmount returnAmount =>
    match usdPrint subject priceHuman with
    | none => existing
    | some (usdPrice, usdLeg) =>
      some (mergeSwapIntoCandle existing usdPrice usdLeg
        (if priceHuman > 0 then some priceHuman else none) offerAmount returnAmount)
  | mark _ priceUsd priceHuman =>
    if priceUsd ≤ 0 ∨ priceHuman ≤ 0 then existing
    else (mergeMarkIntoCandle existing priceUsd priceHuman).or existing

end CandleEvent

/-- The candles after a history that starts from none. -/
def candlesOf (history : List CandleEvent) : CandleTable :=
  history.foldl CandleEvent.update fun _ _ => none

section Rows

variable {candles : CandleTable} {timestamp : ℤ} {merge : Option CandleRow → Option CandleRow}

theorem foldl_intervals (remaining : List Interval) (hnodup : remaining.Nodup)
    (candles : CandleTable) (interval : Interval) (openTime : ℤ) :
    (remaining.foldl (fun candles interval =>
      let openTime := truncateToInterval interval timestamp
      match merge (candles interval openTime) with
      | some row => fun other time =>
          if other = interval ∧ time = openTime then some row else candles other time
      | none => candles) candles) interval openTime =
      if interval ∈ remaining ∧ openTime = truncateToInterval interval timestamp then
        (merge (candles interval openTime)).or (candles interval openTime)
      else candles interval openTime := by
  induction remaining generalizing candles with
  | nil => simp
  | cons first remaining ih =>
    obtain ⟨hfirst, hnodup⟩ := List.nodup_cons.mp hnodup
    rw [List.foldl_cons, ih hnodup]
    by_cases hinterval : interval = first
    · subst hinterval
      rw [if_neg fun h => hfirst h.1]
      by_cases htime : openTime = truncateToInterval interval timestamp
      · subst htime
        rw [if_pos ⟨List.mem_cons_self, rfl⟩]
        cases merge (candles interval (truncateToInterval interval timestamp)) with
        | none => rfl
        | some row => simp
      · rw [if_neg fun h => htime h.2]
        cases merge (candles interval (truncateToInterval interval timestamp)) with
        | none => rfl
        | some row => simp [htime]
    · have hmem : interval ∈ first :: remaining ↔ interval ∈ remaining := by
        simp [hinterval]
      simp only [hmem]
      cases merge (candles first (truncateToInterval first timestamp)) with
      | none => rfl
      | some row => simp [hinterval]

theorem updateIntervals_apply (interval : Interval) (openTime : ℤ) :
    updateIntervals candles timestamp merge interval openTime =
      if openTime = truncateToInterval interval timestamp then
        (merge (candles interval openTime)).or (candles interval openTime)
      else candles interval openTime := by
  rw [updateIntervals, foldl_intervals intervals (by decide)]
  simp [mem_intervals]

theorem update_apply (event : CandleEvent) (interval : Interval) (openTime : ℤ) :
    event.update candles interval openTime =
      if openTime = truncateToInterval interval event.time then
        event.mergeRow (candles interval openTime)
      else candles interval openTime := by
  cases event with
  | swap timestamp subject priceHuman offerAmount returnAmount =>
    simp only [CandleEvent.update, updateCandlesForSwap, CandleEvent.mergeRow, CandleEvent.time]
    cases usdPrint subject priceHuman with
    | none => exact (ite_self _).symm
    | some printed => simp [updateIntervals_apply]
  | mark timestamp priceUsd priceHuman =>
    simp only [CandleEvent.update, updateCandlesForMark, CandleEvent.mergeRow, CandleEvent.time]
    by_cases h : priceUsd ≤ 0 ∨ priceHuman ≤ 0
    · simp only [if_pos h]
      split <;> rfl
    · simp only [if_neg h, updateIntervals_apply]

/-- The events of one bucket, in the order of the history. -/
def bucketOf (interval : Interval) (openTime : ℤ) (history : List CandleEvent) :
    List CandleEvent :=
  history.filter fun event => truncateToInterval interval event.time = openTime

/-- A row depends on the events of its bucket alone. -/
theorem candlesOf_apply (history : List CandleEvent) (interval : Interval) (openTime : ℤ) :
    candlesOf history interval openTime =
      (bucketOf interval openTime history).foldl CandleEvent.mergeRow none := by
  have hrows : ∀ (history : List CandleEvent) (candles : CandleTable),
      history.foldl CandleEvent.update candles interval openTime =
        (bucketOf interval openTime history).foldl CandleEvent.mergeRow
          (candles interval openTime) := by
    intro history
    induction history with
    | nil =>
      intro candles
      rfl
    | cons event history ih =>
      intro candles
      rw [List.foldl_cons, ih, update_apply]
      by_cases hbucket : openTime = truncateToInterval interval event.time
      · rw [if_pos hbucket, bucketOf, bucketOf, List.filter_cons_of_pos (by simp [hbucket]),
          List.foldl_cons]
      · have hother : ¬ truncateToInterval interval event.time = openTime :=
          fun h => hbucket h.symm
        rw [if_neg hbucket, bucketOf, bucketOf, List.filter_cons_of_neg (by simp [hother])]
  exact hrows history _

end Rows

end Cl8yDex.Candles
