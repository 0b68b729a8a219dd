import Cl8yDex.SplitSales

/-!
# Positions over whole histories

A history keeps its accounts when after every swap the row is consistent, profit less cost is
what came in less what went out, and every sale could have been made in two at the same
price. It does exactly if every swap of it is orderly.
-/

namespace Cl8yDex.TraderPositions

section Histories

/-- What a swap adds to base received less base spent. `received` is what counts of a sale. -/
def flow (received : PositionRow → SwapForPosition → ℚ) (row : PositionRow)
    (swap : SwapForPosition) : ℚ :=
  if swap.buyingQuote then -swap.offerAmount else received row swap

def netReceived (received : PositionRow → SwapForPosition → ℚ)
    (history : List SwapForPosition) : ℚ :=
  (history.foldl (fun state swap =>
    (state.1.apply swap, state.2 + flow received state.1 swap)) (PositionRow.empty, (0 : ℚ))).2

/-- All of what a sale returned. -/
def fullReturn (_ : PositionRow) (swap : SwapForPosition) : ℚ := swap.returnAmount

/-- What a sale returned for the quote that was held. -/
def heldReturn (row : PositionRow) (swap : SwapForPosition) : ℚ :=
  swap.exitPrice * min swap.offerAmount row.netPositionQuote

variable {received : PositionRow → SwapForPosition → ℚ} {history : List SwapForPosition}
  {swap : SwapForPosition}

theorem foldl_state (history : List SwapForPosition) :
    ∀ (row : PositionRow) (sum : ℚ), (history.foldl (fun state swap =>
      (state.1.apply swap, state.2 + flow received state.1 swap)) (row, sum)).1 =
        history.foldl PositionRow.apply row := by
  induction history with
  | nil =>
    intro row sum
    rfl
  | cons swap history ih =>
    intro row sum
    exact ih _ _

theorem netReceived_append : netReceived received (history ++ [swap]) =
    netReceived received history + flow received (after history) swap := by
  unfold netReceived after
  rw [List.foldl_append]
  simp only [List.foldl_cons, List.foldl_nil]
  rw [foldl_state]

/-- The row after a history keeps the accounts. -/
structure Conserved (received : PositionRow → SwapForPosition → ℚ)
    (history : List SwapForPosition) : Prop where
  position_nonneg : 0 ≤ (after history).netPositionQuote
  cost_eq : (after history).totalCostBase =
    (after history).netPositionQuote * (after history).avgEntryPrice
  count : (after history).tradeCount = history.length
  balance : (after history).realizedPnl - (after history).totalCostBase =
    netReceived received history

/-- After every swap the accounts are kept, and every sale splits. -/
def Accounts (received : PositionRow → SwapForPosition → ℚ) (history : List SwapForPosition) :
    Prop :=
  ∀ earlier, earlier <+: history → Conserved received earlier ∧
    ∀ swap, swap.buyingQuote = false → earlier ++ [swap] <+: history →
      Splits (after earlier) swap

/-- A purchase leaves a position, and a sale stays within the position or starts from none;
`unheld` says what is allowed of a sale from none. -/
def Orderly (unheld : SwapForPosition → Prop) (row : PositionRow) (swap : SwapForPosition) :
    Prop :=
  if swap.buyingQuote then 0 < swap.returnAmount ∨ 0 < row.netPositionQuote
  else swap.offerAmount ≤ row.netPositionQuote ∨ (row.netPositionQuote = 0 ∧ unheld swap)

def OrderlyRun (unheld : SwapForPosition → Prop) (history : List SwapForPosition) : Prop :=
  ∀ earlier swap, earlier ++ [swap] <+: history → Orderly unheld (after earlier) swap

theorem accounts_append : Accounts received (history ++ [swap]) ↔
    Accounts received history ∧ Conserved received (history ++ [swap]) ∧
      (swap.buyingQuote = false → Splits (after history) swap) := by
  constructor
  · intro h
    refine ⟨fun earlier hearlier => ?_, (h _ (List.prefix_refl _)).1, fun hsell => ?_⟩
    · obtain ⟨hconserved, hsplits⟩ := h earlier (hearlier.trans (List.prefix_append _ _))
      exact ⟨hconserved, fun next hsell hnext =>
        hsplits next hsell (hnext.trans (List.prefix_append _ _))⟩
    · exact (h history (List.prefix_append _ _)).2 swap hsell (List.prefix_refl _)
  · rintro ⟨hbefore, hconserved, hsplits⟩ earlier hearlier
    rcases List.prefix_concat_iff.mp hearlier with rfl | hearlier
    · refine ⟨hconserved, fun next _ hnext => ?_⟩
      have hlength := hnext.length_le
      simp at hlength
    · refine ⟨(hbefore earlier hearlier).1, fun next hsell hnext => ?_⟩
      rcases List.prefix_concat_iff.mp hnext with heq | hnext
      · obtain ⟨rfl, hswap⟩ := List.append_inj' heq rfl
        cases hswap
        exact hsplits hsell
      · exact (hbefore earlier hearlier).2 next hsell hnext

theorem orderlyRun_append {unheld : SwapForPosition → Prop} :
    OrderlyRun unheld (history ++ [swap]) ↔
      OrderlyRun unheld history ∧ Orderly unheld (after history) swap := by
  constructor
  · intro h
    exact ⟨fun earlier next hnext => h earlier next (hnext.trans (List.prefix_append _ _)),
      h history swap (List.prefix_refl _)⟩
  · rintro ⟨hbefore, hlast⟩ earlier next hnext
    rcases List.prefix_concat_iff.mp hnext with heq | hnext
    · obtain ⟨rfl, hswap⟩ := List.append_inj' heq rfl
      cases hswap
      exact hlast
    · exact hbefore earlier next hnext

/-- Which sales keep the balance and split, for a reading of what counts as received. -/
def Decides (received : PositionRow → SwapForPosition → ℚ) (unheld : SwapForPosition → Prop) :
    Prop :=
  ∀ row swap, Sound row → swap.buyingQuote = false →
    ((swap.returnAmount - row.avgEntryPrice * excess row swap = received row swap ∧
      Splits row swap) ↔
        (swap.offerAmount ≤ row.netPositionQuote ∨
          (row.netPositionQuote = 0 ∧ unheld swap)))

theorem decides_full : Decides fullReturn fun _ => True := by
  intro row swap hsound hsell
  simp only [and_true]
  constructor
  · rintro ⟨hbalance, -⟩
    have hcharged : row.avgEntryPrice * excess row swap = 0 := by
      rw [fullReturn] at hbalance
      linarith
    rcases hsound.position_nonneg.eq_or_lt with hzero | hheld
    · exact Or.inr hzero.symm
    · left
      rw [← excess_eq_zero_iff]
      exact (mul_eq_zero.mp hcharged).resolve_left (hsound.held hheld).ne'
  · intro horderly
    refine ⟨?_, splits_of_orderly hsound hsell horderly⟩
    have hcharged : row.avgEntryPrice * excess row swap = 0 := by
      rcases horderly with hheld | hclosed
      · rw [excess_eq_zero_iff.mpr hheld, mul_zero]
      · rw [hsound.closed hclosed, zero_mul]
    rw [hcharged, sub_zero]
    rfl

theorem min_add_excess (row : PositionRow) (swap : SwapForPosition) :
    min swap.offerAmount row.netPositionQuote + excess row swap = swap.offerAmount := by
  unfold excess
  rcases le_total swap.offerAmount row.netPositionQuote with h | h
  · rw [min_eq_left h, max_eq_left (by linarith), add_zero]
  · rw [min_eq_right h, max_eq_right (by linarith)]
    ring

/-- Where only held quote counts, the balance holds for an excess sold at the average. -/
theorem held_balance_iff (row : PositionRow) (swap : SwapForPosition) :
    swap.returnAmount - row.avgEntryPrice * excess row swap = heldReturn row swap ↔
      (swap.exitPrice - row.avgEntryPrice) * excess row swap = 0 := by
  have hsplit : swap.returnAmount = swap.exitPrice *
      (min swap.offerAmount row.netPositionQuote + excess row swap) := by
    rw [min_add_excess, exitPrice_mul]
  have hexpand : swap.returnAmount - row.avgEntryPrice * excess row swap - heldReturn row swap =
      (swap.exitPrice - row.avgEntryPrice) * excess row swap := by
    rw [hsplit, heldReturn]
    ring
  rw [← hexpand, sub_eq_zero]

theorem decides_held : Decides heldReturn fun swap => swap.returnAmount = 0 := by
  intro row swap hsound hsell
  rw [held_balance_iff]
  constructor
  · rintro ⟨hbalance, hsplits⟩
    rcases le_or_gt swap.offerAmount row.netPositionQuote with hheld | hover
    · exact Or.inl hheld
    · right
      have hposition : row.netPositionQuote = 0 := by
        rcases hsound.position_nonneg.eq_or_lt with hzero | hpos
        · exact hzero.symm
        · exact absurd hsplits (not_splits hsound hsell hpos hover)
      have hexcess : excess row swap ≠ 0 := fun h =>
        absurd (excess_eq_zero_iff.mp h) (not_le.mpr hover)
      have hexit := (mul_eq_zero.mp hbalance).resolve_right hexcess
      rw [hsound.closed hposition, sub_zero] at hexit
      refine ⟨hposition, ?_⟩
      have hmul := exitPrice_mul swap
      rw [hexit, zero_mul] at hmul
      exact hmul.symm
  · intro horderly
    refine ⟨?_, splits_of_orderly hsound hsell (horderly.imp_right And.left)⟩
    rcases horderly with hheld | ⟨hclosed, hreturn⟩
    · rw [excess_eq_zero_iff.mpr hheld, mul_zero]
    · have hexit : swap.exitPrice = 0 := by
        rw [SwapForPosition.exitPrice, if_pos swap.offer_pos, hreturn, zero_div]
      rw [hexit, hsound.closed hclosed, sub_zero, zero_mul]

theorem after_count (history : List SwapForPosition) :
    (after history).tradeCount = history.length := by
  induction history using List.reverseRecOn with
  | nil => rfl
  | append_singleton history swap ih =>
    have hcount : ((after history).apply swap).tradeCount = (after history).tradeCount + 1 := by
      unfold PositionRow.apply
      split <;> rfl
    rw [after_append, hcount, ih, List.length_append]
    rfl

theorem Sound.apply {row : PositionRow} {unheld : SwapForPosition → Prop}
    (hsound : Sound row) (horderly : Orderly unheld row swap) : Sound (row.apply swap) := by
  cases hkind : swap.buyingQuote with
  | true =>
    rw [Orderly, if_pos hkind] at horderly
    rw [apply_buy hkind]
    exact hsound.buy horderly
  | false =>
    rw [apply_sell hkind]
    exact hsound.sell

theorem OrderlyRun.sound {unheld : SwapForPosition → Prop} (h : OrderlyRun unheld history) :
    Sound (after history) := by
  induction history using List.reverseRecOn with
  | nil => exact sound_empty
  | append_singleton history swap ih =>
    rw [orderlyRun_append] at h
    rw [after_append]
    exact (ih h.1).apply h.2

/-- One more swap: it is orderly exactly if the row stays consistent, the balance is kept and
a sale splits. -/
theorem orderly_iff {unheld : SwapForPosition → Prop} (hdecides : Decides received unheld)
    (hsound : Sound (after history)) (hbalance : (after history).realizedPnl -
      (after history).totalCostBase = netReceived received history) :
    (Conserved received (history ++ [swap]) ∧
      (swap.buyingQuote = false → Splits (after history) swap)) ↔
        Orderly unheld (after history) swap := by
  cases hkind : swap.buyingQuote with
  | true =>
    rw [Orderly, if_pos hkind]
    constructor
    · rintro ⟨hconserved, -⟩
      by_contra hnot
      rw [not_or] at hnot
      have hcost := hconserved.cost_eq
      rw [after_append, apply_buy hkind] at hcost
      exact buy_unsound hsound hnot.1 hnot.2 hcost
    · intro horderly
      refine ⟨?_, fun h => by cases h⟩
      have hnext := hsound.buy horderly
      constructor
      · rw [after_append, apply_buy hkind]
        exact hnext.position_nonneg
      · rw [after_append, apply_buy hkind]
        exact hnext.cost_eq
      · exact after_count _
      · rw [after_append, apply_buy hkind, netReceived_append, buy_balance, hbalance, flow,
          if_pos hkind]
  | false =>
    have hmoved := sell_balance swap hsound
    have hflow : flow received (after history) swap = received (after history) swap := by
      rw [flow, hkind]
      rfl
    have horderly : Orderly unheld (after history) swap ↔
        (swap.offerAmount ≤ (after history).netPositionQuote ∨
          ((after history).netPositionQuote = 0 ∧ unheld swap)) := by
      rw [Orderly, hkind]
      rfl
    rw [horderly, ← hdecides _ _ hsound hkind]
    constructor
    · rintro ⟨hconserved, hsplits⟩
      refine ⟨?_, hsplits rfl⟩
      have hkept := hconserved.balance
      rw [after_append, apply_sell hkind, netReceived_append, hmoved, hbalance, hflow] at hkept
      linarith
    · rintro ⟨hreceived, hsplits⟩
      refine ⟨?_, fun _ => hsplits⟩
      have hnext : Sound ((after history).sell swap) := hsound.sell
      constructor
      · rw [after_append, apply_sell hkind]
        exact hnext.position_nonneg
      · rw [after_append, apply_sell hkind]
        exact hnext.cost_eq
      · exact after_count _
      · rw [after_append, apply_sell hkind, netReceived_append, hmoved, hbalance, hflow,
          hreceived]

theorem accounts_iff_orderly {unheld : SwapForPosition → Prop}
    (hdecides : Decides received unheld) (history : List SwapForPosition) :
    Accounts received history ↔ OrderlyRun unheld history := by
  induction history using List.reverseRecOn with
  | nil =>
    constructor
    · intro _ earlier swap hnext
      have hlength := hnext.length_le
      simp at hlength
    · intro _ earlier hearlier
      obtain rfl := List.prefix_nil.mp hearlier
      refine ⟨⟨le_refl _, sound_empty.cost_eq, rfl, sub_zero 0⟩, fun swap _ hnext => ?_⟩
      have hlength := hnext.length_le
      simp at hlength
  | append_singleton history swap ih =>
    rw [accounts_append, orderlyRun_append, ih]
    constructor
    · rintro ⟨hbefore, hrest⟩
      have hbalance := (ih.mpr hbefore history (List.prefix_refl _)).1.balance
      exact ⟨hbefore, (orderly_iff hdecides hbefore.sound hbalance).mp hrest⟩
    · rintro ⟨hbefore, hlast⟩
      have hbalance := (ih.mpr hbefore history (List.prefix_refl _)).1.balance
      exact ⟨hbefore, (orderly_iff hdecides hbefore.sound hbalance).mpr hlast⟩

/-- The rows of a table that starts empty: each is the position after the trader's own
history and is rebuilt by a replay, and the history keeps its accounts exactly if it is
orderly, whether a sale from no position counts as received or not. -/
theorem positions_conserved_iff (traders : String → Option TraderRow)
    (swaps : List SwapForPosition) (sender : String) (pair : ℕ) :
    (swaps.foldl Tables.updatePositionOnSwap ⟨fun _ _ => none, traders⟩).positions sender pair =
        (if historyOf sender pair swaps = [] then none
          else some (after (historyOf sender pair swaps))) ∧
      ((swaps.foldl Tables.updatePositionOnSwap
        ⟨fun _ _ => none, traders⟩).rebuildAllPositionsFromSwaps swaps).positions sender pair =
          (swaps.foldl Tables.updatePositionOnSwap
            ⟨fun _ _ => none, traders⟩).positions sender pair ∧
      (Accounts fullReturn (historyOf sender pair swaps) ↔
        OrderlyRun (fun _ => True) (historyOf sender pair swaps)) ∧
      (Accounts heldReturn (historyOf sender pair swaps) ↔
        OrderlyRun (fun swap => swap.returnAmount = 0) (historyOf sender pair swaps)) := by
  obtain ⟨hlive, hrebuilt⟩ := positions_of_history ⟨fun _ _ => none, traders⟩ sender pair
    swaps rfl
  exact ⟨hlive, hrebuilt, accounts_iff_orderly decides_full _,
    accounts_iff_orderly decides_held _⟩

section Samples

def sampleBuy : SwapForPosition :=
  ⟨1, 10, "trader", 10, 100, 50, none, none, by norm_num, by norm_num⟩

def sampleOversell : SwapForPosition :=
  ⟨1, 10, "trader", 20, 100, 300, none, none, by norm_num, by norm_num⟩

/-- Fifty bought for a hundred, a hundred sold for three hundred: the profit is charged twice
the cost. -/
theorem oversold_parts_ways :
    after [sampleBuy, sampleOversell] = ⟨0, 0, 0, 100, 2⟩ ∧
      netReceived fullReturn [sampleBuy, sampleOversell] = 200 ∧
      netReceived heldReturn [sampleBuy, sampleOversell] = 50 ∧
      ¬ Accounts fullReturn [sampleBuy, sampleOversell] ∧
      ¬ Accounts heldReturn [sampleBuy, sampleOversell] := by
  have hafter : after [sampleBuy, sampleOversell] = ⟨0, 0, 0, 100, 2⟩ := by decide +kernel
  have hfull : netReceived fullReturn [sampleBuy, sampleOversell] = 200 := by decide +kernel
  have hheld : netReceived heldReturn [sampleBuy, sampleOversell] = 50 := by decide +kernel
  refine ⟨hafter, hfull, hheld, fun h => ?_, fun h => ?_⟩
  · have hbalance := (h _ (List.prefix_refl _)).1.balance
    rw [hafter, hfull] at hbalance
    norm_num at hbalance
  · have hbalance := (h _ (List.prefix_refl _)).1.balance
    rw [hafter, hheld] at hbalance
    norm_num at hbalance

end Samples

end Histories

end Cl8yDex.TraderPositions
