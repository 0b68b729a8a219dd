import Mathlib.Data.List.Induction
import Mathlib.Algebra.BigOperators.Group.List.Basic
import Mathlib.Tactic.Linarith
import Cl8yDex.CandleBuilder
import Cl8yDex.OpenHighLowClose

/-!
# What a row says of its bucket

Volumes and counts of a row are the sums over the swaps of its bucket that are not skipped,
its human prices are the quadruple of their positive human prices, and its two quadruples are
each complete and ordered or absent.
-/

namespace Cl8yDex.Candles

open OpenHighLowClose

section Shape

/-- All four prices with the low below and the high above, or none of them. -/
def Quadruple (o h l c : Option ℚ) : Prop :=
  (o = none ∧ h = none ∧ l = none ∧ c = none) ∨
    ∃ o' h' l' c', o = some o' ∧ h = some h' ∧ l = some l' ∧ c = some c' ∧
      l' ≤ o' ∧ l' ≤ c' ∧ o' ≤ h' ∧ c' ≤ h'

structure Shaped (row : CandleRow) : Prop where
  usd : Quadruple row.openUsd row.highUsd row.lowUsd row.closeUsd
  human : Quadruple row.openHuman row.highHuman row.lowHuman row.closeHuman

theorem quadruple_single (price : ℚ) :
    Quadruple (some price) (some price) (some price) (some price) :=
  Or.inr ⟨price, price, price, price, rfl, rfl, rfl, rfl, le_refl _, le_refl _, le_refl _,
    le_refl _⟩

theorem quadruple_same (price : Option ℚ) : Quadruple price price price price := by
  cases price with
  | none => exact Or.inl ⟨rfl, rfl, rfl, rfl⟩
  | some price => exact quadruple_single price

theorem merge_high (price o h l : ℚ) : (mergeCandleOhlc price o h l).2.1 = max h price := by
  unfold mergeCandleOhlc
  dsimp only
  split
  case isTrue hgt => rw [max_eq_right hgt.le]
  case isFalse hle => rw [max_eq_left (not_lt.mp hle)]

theorem merge_low (price o h l : ℚ) : (mergeCandleOhlc price o h l).2.2.1 = min l price := by
  unfold mergeCandleOhlc
  dsimp only
  split
  case isTrue hlt => rw [min_eq_right hlt.le]
  case isFalse hle => rw [min_eq_left (not_lt.mp hle)]

theorem quadruple_merge (price o h l : ℚ) (hlow : l ≤ o) (hhigh : o ≤ h) :
    Quadruple (some (mergeCandleOhlc price o h l).1) (some (mergeCandleOhlc price o h l).2.1)
      (some (mergeCandleOhlc price o h l).2.2.1)
      (some (mergeCandleOhlc price o h l).2.2.2) := by
  refine Or.inr ⟨_, _, _, _, rfl, rfl, rfl, rfl, ?_⟩
  rw [merge_high, merge_low]
  have hopen : (mergeCandleOhlc price o h l).1 = o := rfl
  have hclose : (mergeCandleOhlc price o h l).2.2.2 = price := rfl
  rw [hopen, hclose]
  exact ⟨(min_le_left _ _).trans hlow, min_le_right _ _, hhigh.trans (le_max_left _ _),
    le_max_right _ _⟩

/-- A stored quadruple takes one more price, an absent one starts from it. -/
theorem quadruple_next {o h l c : Option ℚ} (hq : Quadruple o h l c) :
    (o = none ∧ h = none ∧ l = none) ∨ ∃ o' h' l', o = some o' ∧ h = some h' ∧ l = some l' ∧
      l' ≤ o' ∧ o' ≤ h' := by
  rcases hq with ⟨ho, hh, hl, -⟩ | ⟨o', h', l', c', ho, hh, hl, -, hlow, -, hhigh, -⟩
  · exact Or.inl ⟨ho, hh, hl⟩
  · exact Or.inr ⟨o', h', l', ho, hh, hl, hlow, hhigh⟩

theorem mergeHumanOhlc_quadruple {candle : CandleRow} (hshaped : Shaped candle)
    (human : Option ℚ) :
    Quadruple (mergeHumanOhlc human candle).1 (mergeHumanOhlc human candle).2.1
      (mergeHumanOhlc human candle).2.2.1 (mergeHumanOhlc human candle).2.2.2 := by
  cases human with
  | none => exact hshaped.human
  | some price =>
    rcases quadruple_next hshaped.human with ⟨ho, hh, hl⟩ | ⟨o, h, l, ho, hh, hl, hlow,
      hhigh⟩
    · simp only [mergeHumanOhlc, ho]
      exact quadruple_single price
    · simp only [mergeHumanOhlc, ho, hh, hl]
      exact quadruple_merge price o h l hlow hhigh

theorem mergeSwapIntoCandle_shaped {existing : Option CandleRow}
    (hshaped : ∀ row, existing = some row → Shaped row) (usdPrice : Option ℚ)
    (usdLeg : Option CandleUsdLeg) (human : Option ℚ) (offerAmount returnAmount : ℚ) :
    Shaped (mergeSwapIntoCandle existing usdPrice usdLeg human offerAmount returnAmount) := by
  cases existing with
  | none => exact ⟨quadruple_same usdPrice, quadruple_same human⟩
  | some candle =>
    have hcandle := hshaped candle rfl
    have hhuman := mergeHumanOhlc_quadruple hcandle human
    cases usdPrice with
    | none => exact ⟨hcandle.usd, hhuman⟩
    | some price =>
      simp only [mergeSwapIntoCandle]
      split
      case isFalse => exact ⟨hcandle.usd, hhuman⟩
      case isTrue =>
        rcases quadruple_next hcandle.usd with ⟨ho, hh, hl⟩ | ⟨o, h, l, ho, hh, hl, hlow,
          hhigh⟩
        · simp only [ho]
          exact ⟨quadruple_single price, hhuman⟩
        · simp only [ho, hh, hl]
          exact ⟨quadruple_merge price o h l hlow hhigh, hhuman⟩

theorem mergeMarkIntoCandle_shaped {existing : Option CandleRow}
    (hshaped : ∀ row, existing = some row → Shaped row) {priceUsd priceHuman : ℚ}
    {row : CandleRow} (hrow : mergeMarkIntoCandle existing priceUsd priceHuman = some row) :
    Shaped row := by
  cases existing with
  | none =>
    cases hrow
    exact ⟨quadruple_single priceUsd, quadruple_single priceHuman⟩
  | some candle =>
    have hcandle := hshaped candle rfl
    simp only [mergeMarkIntoCandle] at hrow
    split at hrow
    · cases hrow
    · split at hrow
      case h_1 o h l ho hh hl =>
        rcases quadruple_next hcandle.usd with ⟨hnone, -, -⟩ |
          ⟨o', h', l', ho', hh', hl', hlow, hhigh⟩
        · rw [hnone] at ho
          cases ho
        · rw [ho] at ho'
          rw [hh] at hh'
          rw [hl] at hl'
          cases ho'
          cases hh'
          cases hl'
          have husd := quadruple_merge priceUsd o h l hlow hhigh
          split at hrow
          · cases hrow
            exact ⟨husd, hcandle.human⟩
          · cases hrow
            exact ⟨husd, mergeHumanOhlc_quadruple hcandle (some priceHuman)⟩
      case h_2 => cases hrow

theorem mergeRow_shaped {existing : Option CandleRow}
    (hshaped : ∀ row, existing = some row → Shaped row) (event : CandleEvent) (row : CandleRow)
    (hrow : event.mergeRow existing = some row) : Shaped row := by
  cases event with
  | swap timestamp subject priceHuman offerAmount returnAmount =>
    simp only [CandleEvent.mergeRow] at hrow
    split at hrow
    · exact hshaped row hrow
    · cases hrow
      exact mergeSwapIntoCandle_shaped hshaped _ _ _ _ _
  | mark timestamp priceUsd priceHuman =>
    simp only [CandleEvent.mergeRow] at hrow
    split at hrow
    · exact hshaped row hrow
    · rcases Option.or_eq_some_iff.mp hrow with hmarked | ⟨-, hkept⟩
      · exact mergeMarkIntoCandle_shaped hshaped hmarked
      · exact hshaped row hkept

theorem foldl_shaped (events : List CandleEvent) (row : CandleRow)
    (hrow : events.foldl CandleEvent.mergeRow none = some row) : Shaped row := by
  have hall : ∀ row, events.foldl CandleEvent.mergeRow none = some row → Shaped row := by
    apply List.foldlRecOn events CandleEvent.mergeRow
      (motive := fun existing => ∀ row, existing = some row → Shaped row)
    · intro row hnone
      cases hnone
    · intro existing hshaped event _ row hmerged
      exact mergeRow_shaped hshaped event row hmerged
  exact hall row hrow

end Shape

section Sums

namespace CandleEvent

/-- The swap is written to the candles. -/
def writes : CandleEvent → Bool
  | swap _ subject priceHuman _ _ => (usdPrint subject priceHuman).isSome
  | mark .. => false

/-- Base amount, quote amount and count that an event adds to its bucket. -/
def base : CandleEvent → ℚ
  | event@(swap _ _ _ offerAmount _) => if event.writes then offerAmount else 0
  | mark .. => 0

def quote : CandleEvent → ℚ
  | event@(swap _ _ _ _ returnAmount) => if event.writes then returnAmount else 0
  | mark .. => 0

def trades : CandleEvent → ℕ
  | event@(swap ..) => if event.writes then 1 else 0
  | mark .. => 0

/-- The human price an event adds to its bucket. -/
def human : CandleEvent → Option ℚ
  | event@(swap _ _ priceHuman _ _) =>
    if event.writes ∧ priceHuman > 0 then some priceHuman else none
  | mark .. => none

end CandleEvent

/-- What a row, or no row, contributes to the sums. -/
def baseOf (row : Option CandleRow) : ℚ := row.elim 0 CandleRow.volumeBase

def quoteOf (row : Option CandleRow) : ℚ := row.elim 0 CandleRow.volumeQuote

def tradesOf (row : Option CandleRow) : ℕ := row.elim 0 CandleRow.tradeCount

theorem mergeSwapIntoCandle_sums (existing : Option CandleRow) (usdPrice : Option ℚ)
    (usdLeg : Option CandleUsdLeg) (human : Option ℚ) (offerAmount returnAmount : ℚ) :
    let row := mergeSwapIntoCandle existing usdPrice usdLeg human offerAmount returnAmount
    row.volumeBase = baseOf existing + offerAmount ∧
      row.volumeQuote = quoteOf existing + returnAmount ∧
      row.tradeCount = tradesOf existing + 1 := by
  cases existing with
  | none => simp [mergeSwapIntoCandle, baseOf, quoteOf, tradesOf]
  | some candle =>
    cases usdPrice with
    | none => exact ⟨rfl, rfl, rfl⟩
    | some price =>
      simp only [mergeSwapIntoCandle]
      split <;> exact ⟨rfl, rfl, rfl⟩

theorem mergeMarkIntoCandle_sums {existing : Option CandleRow} {priceUsd priceHuman : ℚ}
    {row : CandleRow} (hrow : mergeMarkIntoCandle existing priceUsd priceHuman = some row) :
    row.volumeBase = baseOf existing ∧ row.volumeQuote = quoteOf existing ∧
      row.tradeCount = tradesOf existing := by
  cases existing with
  | none =>
    cases hrow
    exact ⟨rfl, rfl, rfl⟩
  | some candle =>
    simp only [mergeMarkIntoCandle] at hrow
    split at hrow
    · cases hrow
    · split at hrow
      · split at hrow <;> cases hrow <;> exact ⟨rfl, rfl, rfl⟩
      · cases hrow

theorem mergeRow_sums (existing : Option CandleRow) (event : CandleEvent) :
    baseOf (event.mergeRow existing) = baseOf existing + event.base ∧
      quoteOf (event.mergeRow existing) = quoteOf existing + event.quote ∧
      tradesOf (event.mergeRow existing) = tradesOf existing + event.trades := by
  cases event with
  | swap timestamp subject priceHuman offerAmount returnAmount =>
    cases hprint : usdPrint subject priceHuman with
    | none =>
      simp [CandleEvent.mergeRow, CandleEvent.base, CandleEvent.quote, CandleEvent.trades,
        CandleEvent.writes, hprint]
    | some printed =>
      have hsums := mergeSwapIntoCandle_sums existing printed.1 printed.2
        (if priceHuman > 0 then some priceHuman else none) offerAmount returnAmount
      simpa [CandleEvent.mergeRow, CandleEvent.base, CandleEvent.quote, CandleEvent.trades,
        CandleEvent.writes, hprint, baseOf, quoteOf, tradesOf] using hsums
  | mark timestamp priceUsd priceHuman =>
    simp only [CandleEvent.mergeRow, CandleEvent.base, CandleEvent.quote, CandleEvent.trades,
      add_zero]
    split
    · exact ⟨rfl, rfl, rfl⟩
    · cases hmarked : mergeMarkIntoCandle existing priceUsd priceHuman with
      | none => exact ⟨rfl, rfl, rfl⟩
      | some row => exact mergeMarkIntoCandle_sums hmarked

theorem foldl_sums (events : List CandleEvent) (existing : Option CandleRow) :
    baseOf (events.foldl CandleEvent.mergeRow existing) =
        baseOf existing + (events.map CandleEvent.base).sum ∧
      quoteOf (events.foldl CandleEvent.mergeRow existing) =
        quoteOf existing + (events.map CandleEvent.quote).sum ∧
      tradesOf (events.foldl CandleEvent.mergeRow existing) =
        tradesOf existing + (events.map CandleEvent.trades).sum := by
  induction events generalizing existing with
  | nil => simp
  | cons event events ih =>
    obtain ⟨hbase, hquote, htrades⟩ := mergeRow_sums existing event
    obtain ⟨ihbase, ihquote, ihtrades⟩ := ih (event.mergeRow existing)
    rw [List.foldl_cons, ihbase, ihquote, ihtrades, hbase, hquote, htrades]
    simp only [List.map_cons, List.sum_cons, ← add_assoc, and_self]

end Sums

section Human

/-- The quadruple of four columns, if all are present. -/
def columns (quadruple : Option ℚ × Option ℚ × Option ℚ × Option ℚ) : Option (Ohlc ℚ) :=
  match quadruple with
  | (some o, some h, some l, some c) => some ⟨o, h, l, c⟩
  | _ => none

/-- The human quadruple of a row. -/
def humanOf (row : Option CandleRow) : Option (Ohlc ℚ) :=
  row.bind fun row => columns (row.openHuman, row.highHuman, row.lowHuman, row.closeHuman)

theorem mergeHumanOhlc_columns {candle : CandleRow} (hshaped : Shaped candle)
    (human : Option ℚ) :
    columns (mergeHumanOhlc human candle) = join (humanOf (some candle)) (human.map single) := by
  cases human with
  | none =>
    rw [Option.map_none, join_none_right]
    rfl
  | some price =>
    rcases hshaped.human with ⟨ho, hh, hl, hc⟩ | ⟨o, h, l, c, ho, hh, hl, hc, -⟩
    · simp [mergeHumanOhlc, columns, humanOf, ho, single]
    · have hhigh := merge_high price o h l
      have hlow := merge_low price o h l
      simp only [mergeHumanOhlc, columns, humanOf, ho, hh, hl, hc, Option.bind_some,
        Option.map_some, join, Ohlc.combine, single]
      rw [hhigh, hlow]
      rfl

theorem humanOf_mergeSwap {existing : Option CandleRow}
    (hshaped : ∀ row, existing = some row → Shaped row) (usdPrice : Option ℚ)
    (usdLeg : Option CandleUsdLeg) (human : Option ℚ) (offerAmount returnAmount : ℚ) :
    humanOf (some (mergeSwapIntoCandle existing usdPrice usdLeg human offerAmount
      returnAmount)) = join (humanOf existing) (human.map single) := by
  cases existing with
  | none =>
    cases human with
    | none => rfl
    | some price => rfl
  | some candle =>
    rw [← mergeHumanOhlc_columns (hshaped candle rfl)]
    cases usdPrice with
    | none => rfl
    | some price =>
      simp only [mergeSwapIntoCandle]
      split <;> rfl

theorem humanOf_mergeRow {existing : Option CandleRow}
    (hshaped : ∀ row, existing = some row → Shaped row) {event : CandleEvent}
    (hswap : event.isSwap = true) :
    humanOf (event.mergeRow existing) = join (humanOf existing) (event.human.map single) := by
  cases event with
  | mark => cases hswap
  | swap timestamp subject priceHuman offerAmount returnAmount =>
    cases hprint : usdPrint subject priceHuman with
    | none => simp [CandleEvent.mergeRow, CandleEvent.human, CandleEvent.writes, hprint]
    | some printed =>
      simp only [CandleEvent.mergeRow, hprint, CandleEvent.human, CandleEvent.writes,
        Option.isSome_some, true_and]
      exact humanOf_mergeSwap hshaped printed.1 printed.2 _ offerAmount returnAmount

/-- In a swap-only bucket the human quadruple is that of the human prices. -/
theorem foldl_human (events : List CandleEvent) (hswaps : ∀ event ∈ events, event.isSwap = true) :
    humanOf (events.foldl CandleEvent.mergeRow none) =
      ofPrices (events.filterMap CandleEvent.human) := by
  induction events using List.reverseRecOn with
  | nil => rfl
  | append_singleton events event ih =>
    have hbefore := ih fun other hmem => hswaps other (List.mem_append_left _ hmem)
    have hlast := hswaps event (List.mem_append_right _ List.mem_cons_self)
    have hstep := humanOf_mergeRow (fun row => foldl_shaped events row) hlast
    rw [List.foldl_append, List.foldl_cons, List.foldl_nil, hstep, hbefore,
      List.filterMap_append, ofPrices_append]
    cases hhuman : event.human with
    | none => simp [hhuman, ofPrices, aggregate]
    | some price => simp [hhuman, ofPrices, aggregate]

end Human

end Cl8yDex.Candles
