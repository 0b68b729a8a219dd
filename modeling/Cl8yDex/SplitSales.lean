import Cl8yDex.TraderPositions

/-!
# The cost basis of a position

Profit and remaining cost against the base that came in and went out. The two accounts agree
exactly as long as no sale exceeds a position that is held and no purchase into an empty
position returns nothing: the sale charges the average price for the whole amount offered,
the position only gives up what it holds.
-/

namespace Cl8yDex.TraderPositions

/-- What a row keeps between two swaps of an orderly history. -/
structure Sound (row : PositionRow) : Prop where
  position_nonneg : 0 ≤ row.netPositionQuote
  cost_eq : row.totalCostBase = row.netPositionQuote * row.avgEntryPrice
  closed : row.netPositionQuote = 0 → row.avgEntryPrice = 0
  held : 0 < row.netPositionQuote → 0 < row.avgEntryPrice

theorem sound_empty : Sound .empty :=
  ⟨le_refl _, by simp [PositionRow.empty], fun _ => rfl, fun h => absurd h (lt_irrefl _)⟩

section Rows

variable {row : PositionRow} {swap : SwapForPosition}

theorem netQuoteAfterSell_eq_max (oldPos offer : ℚ) :
    netQuoteAfterSell oldPos offer = max 0 (oldPos - offer) := by
  unfold netQuoteAfterSell
  dsimp only
  split
  case isTrue h => rw [max_eq_left h.le]
  case isFalse h => rw [max_eq_right (not_lt.mp h)]

theorem exitPrice_mul (swap : SwapForPosition) :
    swap.exitPrice * swap.offerAmount = swap.returnAmount := by
  rw [SwapForPosition.exitPrice, if_pos swap.offer_pos]
  exact div_mul_cancel₀ _ swap.offer_pos.ne'

theorem exitPrice_nonneg (swap : SwapForPosition) : 0 ≤ swap.exitPrice := by
  rw [SwapForPosition.exitPrice, if_pos swap.offer_pos]
  exact div_nonneg swap.return_nonneg swap.offer_pos.le

theorem apply_buy (h : swap.buyingQuote = true) : row.apply swap = row.buy swap := by
  rw [PositionRow.apply, if_pos h]

theorem apply_sell (h : swap.buyingQuote = false) : row.apply swap = row.sell swap := by
  rw [PositionRow.apply, h]
  rfl

theorem sell_position : (row.sell swap).netPositionQuote =
    max 0 (row.netPositionQuote - swap.offerAmount) :=
  netQuoteAfterSell_eq_max _ _

/-- The remaining cost is the remaining position at the old average, also where it closes. -/
theorem sell_cost : (row.sell swap).totalCostBase =
    (row.sell swap).netPositionQuote * row.avgEntryPrice := by
  unfold PositionRow.sell
  dsimp only
  split
  case isTrue => rfl
  case isFalse h =>
    rw [netQuoteAfterSell_eq_max] at h ⊢
    rw [le_antisymm (not_lt.mp h) (le_max_left _ _), zero_mul]

theorem sell_average : (row.sell swap).avgEntryPrice =
    if 0 < (row.sell swap).netPositionQuote then row.avgEntryPrice else 0 := by
  unfold PositionRow.sell
  dsimp only [gt_iff_lt]
  split <;> rfl

theorem sell_cost_eq : (row.sell swap).totalCostBase =
    (row.sell swap).netPositionQuote * (row.sell swap).avgEntryPrice := by
  rw [sell_cost, sell_average]
  split
  case isTrue => rfl
  case isFalse h =>
    have hzero : (row.sell swap).netPositionQuote = 0 := by
      rw [sell_position] at h ⊢
      exact le_antisymm (not_lt.mp h) (le_max_left _ _)
    rw [hzero, zero_mul, zero_mul]

theorem sell_pnl : (row.sell swap).realizedPnl =
    row.realizedPnl + swap.returnAmount - row.avgEntryPrice * swap.offerAmount := by
  have hmul := exitPrice_mul swap
  calc (row.sell swap).realizedPnl
      = row.realizedPnl + (swap.exitPrice - row.avgEntryPrice) * swap.offerAmount := rfl
    _ = row.realizedPnl + swap.exitPrice * swap.offerAmount
          - row.avgEntryPrice * swap.offerAmount := by ring
    _ = _ := by rw [hmul]

/-- The part of a sale that the position does not hold. -/
def excess (row : PositionRow) (swap : SwapForPosition) : ℚ :=
  max 0 (swap.offerAmount - row.netPositionQuote)

theorem excess_eq : excess row swap =
    swap.offerAmount + (row.sell swap).netPositionQuote - row.netPositionQuote := by
  rw [sell_position, excess]
  rcases le_total swap.offerAmount row.netPositionQuote with h | h
  · rw [max_eq_left (by linarith), max_eq_right (by linarith)]
    ring
  · rw [max_eq_right (by linarith), max_eq_left (by linarith)]
    ring

theorem excess_eq_zero_iff : excess row swap = 0 ↔
    swap.offerAmount ≤ row.netPositionQuote := by
  rw [excess, max_eq_left_iff]
  exact sub_nonpos

/-- A sale moves profit less cost by what it returns, less the average charged for the part
that was never held. -/
theorem sell_balance (swap : SwapForPosition) (hsound : Sound row) :
    (row.sell swap).realizedPnl - (row.sell swap).totalCostBase =
      row.realizedPnl - row.totalCostBase +
        (swap.returnAmount - row.avgEntryPrice * excess row swap) := by
  rw [sell_pnl, sell_cost, hsound.cost_eq, excess_eq]
  ring

theorem buy_balance : (row.buy swap).realizedPnl - (row.buy swap).totalCostBase =
    row.realizedPnl - row.totalCostBase + -swap.offerAmount := by
  have hpnl : (row.buy swap).realizedPnl = row.realizedPnl := rfl
  have hcost : (row.buy swap).totalCostBase = row.totalCostBase + swap.offerAmount := rfl
  rw [hpnl, hcost]
  ring

theorem Sound.cost_nonneg (hsound : Sound row) : 0 ≤ row.totalCostBase := by
  rw [hsound.cost_eq]
  rcases hsound.position_nonneg.eq_or_lt with hzero | hpos
  · rw [← hzero, zero_mul]
  · exact mul_nonneg hpos.le (hsound.held hpos).le

theorem Sound.sell (hsound : Sound row) : Sound (row.sell swap) where
  position_nonneg := by
    rw [sell_position]
    exact le_max_left _ _
  cost_eq := sell_cost_eq
  closed h := by
    rw [sell_average, h, if_neg (lt_irrefl _)]
  held h := by
    rw [sell_average, if_pos h]
    apply hsound.held
    rw [sell_position] at h
    have hoffer := swap.offer_pos
    have := (lt_max_iff.mp h).resolve_left (lt_irrefl _)
    linarith

theorem Sound.buy (hsound : Sound row)
    (h : 0 < swap.returnAmount ∨ 0 < row.netPositionQuote) : Sound (row.buy swap) := by
  have hposition : (row.buy swap).netPositionQuote = row.netPositionQuote + swap.returnAmount :=
    rfl
  have hpos : 0 < row.netPositionQuote + swap.returnAmount := by
    have hposition := hsound.position_nonneg
    have hreturn := swap.return_nonneg
    rcases h with h | h <;> linarith
  have havg : (row.buy swap).avgEntryPrice =
      (row.totalCostBase + swap.offerAmount) / (row.netPositionQuote + swap.returnAmount) := by
    unfold PositionRow.buy
    exact if_pos hpos
  have hcost := hsound.cost_nonneg
  have hoffer := swap.offer_pos
  constructor
  · rw [hposition]
    exact hpos.le
  · rw [hposition, havg]
    exact (mul_div_cancel₀ _ hpos.ne').symm
  · intro hzero
    rw [hposition] at hzero
    exact absurd hzero hpos.ne'
  · intro _
    rw [havg]
    exact div_pos (by linarith) hpos

/-- A purchase into an empty position that returns nothing leaves a cost without a
position. -/
theorem buy_unsound (hsound : Sound row) (hreturn : ¬ 0 < swap.returnAmount)
    (hposition : ¬ 0 < row.netPositionQuote) :
    (row.buy swap).totalCostBase ≠
      (row.buy swap).netPositionQuote * (row.buy swap).avgEntryPrice := by
  have hzero : row.netPositionQuote + swap.returnAmount = 0 := by
    have := hsound.position_nonneg
    have := swap.return_nonneg
    linarith
  have hnew : (row.buy swap).netPositionQuote = 0 := hzero
  have hcost : (row.buy swap).totalCostBase = row.totalCostBase + swap.offerAmount := rfl
  rw [hnew, hcost, zero_mul]
  have := hsound.cost_nonneg
  have := swap.offer_pos
  linarith

end Rows

end Cl8yDex.TraderPositions

/-!
## Sales in two parts

A sale made in two parts at the price of the whole leaves the books of the whole sale, unless
the position closes on the way: then the first part resets the average and the second is
charged nothing.
-/

namespace Cl8yDex.TraderPositions

/-- A part of a sale, at the price of the whole. -/
def SwapForPosition.part (swap : SwapForPosition) (amount : ℚ) (h : 0 < amount) :
    SwapForPosition :=
  { swap with
    offerAmount := amount
    returnAmount := amount * swap.exitPrice
    offer_pos := h
    return_nonneg := mul_nonneg h.le (exitPrice_nonneg swap) }

/-- The same position, cost and profit. -/
def SameBooks (row other : PositionRow) : Prop :=
  row.netPositionQuote = other.netPositionQuote ∧ row.totalCostBase = other.totalCostBase ∧
    row.realizedPnl = other.realizedPnl

/-- Every division of the sale into two at its price leaves the books of the whole sale. -/
def Splits (row : PositionRow) (swap : SwapForPosition) : Prop :=
  ∀ (first second : ℚ) (hfirst : 0 < first) (hsecond : 0 < second),
    first + second = swap.offerAmount →
      SameBooks ((row.apply (swap.part first hfirst)).apply (swap.part second hsecond))
        (row.apply swap)

section Splitting

variable {row : PositionRow} {swap : SwapForPosition} {first second : ℚ}

theorem two_parts_position (row : PositionRow) (hfirst : 0 < first) (hsecond : 0 < second)
    (hsum : first + second = swap.offerAmount) :
    ((row.sell (swap.part first hfirst)).sell (swap.part second hsecond)).netPositionQuote =
      (row.sell swap).netPositionQuote := by
  have houter : (swap.part second hsecond).offerAmount = second := rfl
  have hinner : (swap.part first hfirst).offerAmount = first := rfl
  rw [sell_position, sell_position, sell_position, houter, hinner, ← hsum]
  rcases le_total row.netPositionQuote first with h | h
  · have hclosed : max 0 (row.netPositionQuote - first) = 0 := max_eq_left (by linarith)
    rw [hclosed, max_eq_left (by linarith), max_eq_left (by linarith)]
  · rw [max_eq_right (by linarith : (0 : ℚ) ≤ row.netPositionQuote - first), sub_sub]

/-- The two profits together, with the average that is left after the first part. -/
theorem two_parts_pnl (hfirst : 0 < first) (hsecond : 0 < second)
    (hsum : first + second = swap.offerAmount) :
    ((row.sell (swap.part first hfirst)).sell (swap.part second hsecond)).realizedPnl =
      (row.sell swap).realizedPnl + (row.avgEntryPrice -
        (row.sell (swap.part first hfirst)).avgEntryPrice) * second := by
  have hprice := exitPrice_mul swap
  have houter : (swap.part second hsecond).returnAmount = second * swap.exitPrice := rfl
  have hinner : (swap.part first hfirst).returnAmount = first * swap.exitPrice := rfl
  have hsecondAmount : (swap.part second hsecond).offerAmount = second := rfl
  have hfirstAmount : (swap.part first hfirst).offerAmount = first := rfl
  rw [sell_pnl, sell_pnl, sell_pnl, houter, hinner, hsecondAmount, hfirstAmount, ← hprice,
    ← hsum]
  ring

theorem average_after_part (hsound : Sound row) (hfirst : 0 < first) (hsecond : 0 < second)
    (hsum : first + second = swap.offerAmount)
    (h : swap.offerAmount ≤ row.netPositionQuote ∨ row.netPositionQuote = 0) :
    (row.sell (swap.part first hfirst)).avgEntryPrice = row.avgEntryPrice := by
  rw [sell_average]
  rcases h with hheld | hclosed
  · rw [if_pos]
    rw [sell_position]
    have hfirstAmount : (swap.part first hfirst).offerAmount = first := rfl
    rw [hfirstAmount]
    exact lt_max_of_lt_right (by linarith)
  · rw [hsound.closed hclosed]
    split <;> rfl

theorem splits_of_orderly (hsound : Sound row) (hsell : swap.buyingQuote = false)
    (h : swap.offerAmount ≤ row.netPositionQuote ∨ row.netPositionQuote = 0) :
    Splits row swap := by
  intro first second hfirst hsecond hsum
  have hpartSell : (swap.part first hfirst).buyingQuote = false := hsell
  have hrestSell : (swap.part second hsecond).buyingQuote = false := hsell
  rw [apply_sell hsell, apply_sell hpartSell, apply_sell hrestSell]
  have hposition := two_parts_position row hfirst hsecond hsum
  have haverage := average_after_part hsound hfirst hsecond hsum h
  refine ⟨hposition, ?_, ?_⟩
  · rw [sell_cost, sell_cost, hposition, haverage]
  · rw [two_parts_pnl hfirst hsecond hsum, haverage, sub_self, zero_mul, add_zero]

/-- A sale that closes a held position on the way cannot be split where it closes. -/
theorem not_splits (hsound : Sound row) (hsell : swap.buyingQuote = false)
    (hheld : 0 < row.netPositionQuote) (hover : row.netPositionQuote < swap.offerAmount) :
    ¬ Splits row swap := by
  intro hsplits
  have hrest : 0 < swap.offerAmount - row.netPositionQuote := sub_pos.mpr hover
  have hbooks := hsplits row.netPositionQuote (swap.offerAmount - row.netPositionQuote) hheld
    hrest (by ring)
  have hpartSell : (swap.part row.netPositionQuote hheld).buyingQuote = false := hsell
  have hrestSell : (swap.part (swap.offerAmount - row.netPositionQuote) hrest).buyingQuote =
      false := hsell
  rw [apply_sell hsell, apply_sell hpartSell, apply_sell hrestSell] at hbooks
  have hpnl := hbooks.2.2
  rw [two_parts_pnl hheld hrest (by ring)] at hpnl
  have hclosed : (row.sell (swap.part row.netPositionQuote hheld)).avgEntryPrice = 0 := by
    rw [sell_average, if_neg]
    rw [sell_position]
    have hamount : (swap.part row.netPositionQuote hheld).offerAmount = row.netPositionQuote :=
      rfl
    rw [hamount, sub_self, max_self]
    exact lt_irrefl _
  rw [hclosed, sub_zero] at hpnl
  have hpositive := mul_pos (hsound.held hheld) hrest
  linarith

end Splitting

end Cl8yDex.TraderPositions
