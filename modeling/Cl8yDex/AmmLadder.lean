import Cl8yDex.HybridListing
import Cl8yDex.ListingMerge
import Cl8yDex.PoolFacts
import Mathlib.Algebra.Order.Field.Basic
import Mathlib.Algebra.Order.AbsoluteValue.Basic
import Mathlib.Order.Bounds.Basic
import Mathlib.Tactic.FieldSimp
import Mathlib.Tactic.Linarith
import Mathlib.Tactic.Positivity

/-!
# The ladder and the pool

The levels are compared with what the pair answers. They agree as long as the saturated product of
the reserves rounds as the exact one does.
-/

namespace Cl8yDex.Listing

open Outcome

section Arithmetic

variable {n d g fee : ℕ}

theorem ceilDiv_eq (hd : 0 < d) (hn : n ≤ u128Max) : ceilDiv n d = n ⌈/⌉ d := by
  have hle : n / d * d ≤ u128Max := (Nat.div_mul_le_self n d).trans hn
  rw [← ceilDivU256_eq hd]
  simp only [ceilDiv, ceilDivU256, saturatingMul, min_eq_left hle]

theorem swapFeeAmount_eq (hfee : fee ≤ 10000) : swapFeeAmount g fee = g * fee / 10000 := by
  unfold swapFeeAmount
  by_cases hzero : fee = 0 ∨ g = 0
  · rw [if_pos hzero]
    rcases hzero with rfl | rfl <;> simp
  · have hsplit : g * fee = g % 10000 * fee + g / 10000 * fee * 10000 := by
      conv_lhs => rw [← Nat.div_add_mod g 10000]
      ring
    rw [if_neg hzero, min_eq_left hfee, hsplit, Nat.add_mul_div_right _ _ (by decide),
      Nat.add_comm]

theorem stepBaseAmount_le {r step depth : ℕ} (hpos : 1 ≤ step) (hstep : step ≤ depth)
    (hdepth : depth ≤ u64Max) : 10 * stepBaseAmount r step depth ≤ r := by
  have hd : max depth 1 = depth := max_eq_left (hpos.trans hstep)
  have hexact : saturatingMul depth maxStepDenominator = depth * 100 := by
    have hle : depth * 100 ≤ u128Max :=
      (Nat.mul_le_mul_right 100 hdepth).trans (by decide)
    exact min_eq_left hle
  have hnum : saturatingMul (saturatingMul r step) maxStepNumerator ≤ r * (depth * 10) := by
    calc saturatingMul (saturatingMul r step) maxStepNumerator
        ≤ saturatingMul r step * 10 := min_le_left _ _
      _ ≤ r * step * 10 := Nat.mul_le_mul_right 10 (min_le_left _ _)
      _ ≤ r * depth * 10 := Nat.mul_le_mul_right 10 (Nat.mul_le_mul_left r hstep)
      _ = r * (depth * 10) := by ring
  unfold stepBaseAmount
  dsimp only
  rw [hd, max_eq_left hpos, hexact]
  have hdiv : saturatingMul (saturatingMul r step) maxStepNumerator / (depth * 100) ≤ r / 10 := by
    calc _ ≤ r * (depth * 10) / (depth * 100) := Nat.div_le_div_right hnum
      _ = r * (depth * 10) / (10 * (depth * 10)) := by congr 1; ring
      _ = r / 10 := Nat.mul_div_mul_right r 10 (by omega)
  omega

end Arithmetic

section Accuracy

/-- Quotients of machine integers have ninety correct digits. -/
def BigDecimals.Accurate (big : BigDecimals) : Prop :=
  ∀ n d : ℕ, n ≤ u128Max → d ≤ u128Max → 0 < d →
    |big.quotient n d - (n : ℚ) / d| ≤ (n : ℚ) / d / 10 ^ 90

variable {big : BigDecimals} {n m d e : ℕ}

theorem product_small (hn : n ≤ u128Max) (he : e ≤ 2 * u128Max) : (n : ℚ) * e < 10 ^ 90 := by
  have h : n * e < 10 ^ 90 := (Nat.mul_le_mul hn he).trans_lt (by decide)
  exact_mod_cast h

/-- A quotient that is below another one in cross products is listed below it. -/
theorem BigDecimals.Accurate.quotient_lt (h : big.Accurate) (hn : n ≤ u128Max) (hd : d ≤ u128Max)
    (hdpos : 0 < d) (he : e ≤ 2 * u128Max) (hepos : 0 < e) (hlt : n * e < m * d) :
    big.quotient n d < (m : ℚ) / e := by
  have habs := (abs_le.1 (h n d hn hd hdpos)).2
  have hdq : (0 : ℚ) < d := by exact_mod_cast hdpos
  have heq : (0 : ℚ) < e := by exact_mod_cast hepos
  have hsmall := product_small hn he
  have hcross : (n : ℚ) * e + 1 ≤ m * d := by exact_mod_cast hlt
  calc big.quotient n d ≤ (n : ℚ) / d + (n : ℚ) / d / 10 ^ 90 := by linarith
    _ = ((n : ℚ) * e + n * e / 10 ^ 90) / (d * e) := by field_simp
    _ < ((n : ℚ) * e + 1) / (d * e) := by
        apply div_lt_div_of_pos_right _ (mul_pos hdq heq)
        have hone : (n : ℚ) * e / 10 ^ 90 < 1 := (div_lt_one (by positivity)).2 hsmall
        linarith
    _ ≤ (m : ℚ) * d / (d * e) := div_le_div_of_nonneg_right hcross (mul_pos hdq heq).le
    _ = (m : ℚ) / e := by field_simp

theorem BigDecimals.Accurate.lt_quotient (h : big.Accurate) (hn : n ≤ u128Max) (hd : d ≤ u128Max)
    (hdpos : 0 < d) (he : e ≤ 2 * u128Max) (hepos : 0 < e) (hlt : m * d < n * e) :
    (m : ℚ) / e < big.quotient n d := by
  have habs := (abs_le.1 (h n d hn hd hdpos)).1
  have hdq : (0 : ℚ) < d := by exact_mod_cast hdpos
  have heq : (0 : ℚ) < e := by exact_mod_cast hepos
  have hsmall := product_small hn he
  have hcross : (m : ℚ) * d + 1 ≤ n * e := by exact_mod_cast hlt
  calc (m : ℚ) / e = (m : ℚ) * d / (d * e) := by field_simp
    _ ≤ ((n : ℚ) * e - 1) / (d * e) := by
        apply div_le_div_of_nonneg_right _ (mul_pos hdq heq).le
        linarith
    _ < ((n : ℚ) * e - n * e / 10 ^ 90) / (d * e) := by
        apply div_lt_div_of_pos_right _ (mul_pos hdq heq)
        have hone : (n : ℚ) * e / 10 ^ 90 < 1 := (div_lt_one (by positivity)).2 hsmall
        linarith
    _ = (n : ℚ) / d - (n : ℚ) / d / 10 ^ 90 := by field_simp
    _ ≤ big.quotient n d := by linarith

theorem BigDecimals.Accurate.quotient_inj (h : big.Accurate) (hn : n ≤ u128Max)
    (hm : m ≤ u128Max) (hd : d ≤ u128Max) (hdpos : 0 < d)
    (heq : big.quotient n d = big.quotient m d) : n = m := by
  have hapart : ∀ a b : ℕ, a ≤ u128Max → b ≤ u128Max → a < b →
      big.quotient a d ≠ big.quotient b d := by
    intro a b ha hb hab heq
    have h2d : 2 * d ≤ 2 * u128Max := Nat.mul_le_mul_left 2 hd
    have hbelow : a * (2 * d) < (2 * a + 1) * d := by nlinarith
    have habove : (2 * a + 1) * d < b * (2 * d) := by nlinarith
    have h1 := h.quotient_lt ha hd hdpos h2d (by omega) hbelow
    have h2 := h.lt_quotient hb hd hdpos h2d (by omega) habove
    rw [heq] at h1
    exact absurd h1 (lt_asymm h2)
  rcases Nat.lt_trichotomy n m with hlt | heq' | hgt
  · exact absurd heq (hapart n m hn hm hlt)
  · exact heq'
  · exact absurd heq.symm (hapart m n hm hn hgt)

end Accuracy

section Levels

variable {big : BigDecimals} {r0 r1 k dx fee : ℕ} {level : AmmLevel}

/-- The quote that remains of a bid on a curve with product `k`. -/
def bidNet (k r0 r1 dx fee : ℕ) : ℕ := ConstantProduct.net (r1 - k ⌈/⌉ (r0 + dx)) fee

/-- The quote reserve that an ask on a curve with product `k` leaves. -/
def askReserve (k r0 dx : ℕ) : ℕ := k ⌈/⌉ (r0 - dx)

theorem net_zero {fee : ℕ} : ConstantProduct.net 0 fee = 0 := by simp [ConstantProduct.net]

theorem simulateBidLevel_eq_some (hr0 : 0 < r0) (hk : k ≤ u128Max) (hfee : fee ≤ 10000)
    (hdx : 0 < dx) : simulateBidLevel big r0 r1 k dx fee = some level ↔
      r0 + dx ≤ u128Max ∧ bidNet k r0 r1 dx fee ≠ 0 ∧
        level = ⟨big.quotient (bidNet k r0 r1 dx fee : ℕ) dx, dx⟩ := by
  have hnew : 0 < r0 + dx := by omega
  unfold simulateBidLevel bidNet
  by_cases hadd : r0 + dx ≤ u128Max
  · rw [checkedAdd, if_pos hadd]
    simp only [Option.bind_eq_bind, Option.bind_some, ceilDiv_eq hnew hk]
    by_cases hle : k ⌈/⌉ (r0 + dx) ≤ r1
    · rw [checkedSub, if_pos hle]
      simp only [Option.bind_some]
      generalize r1 - k ⌈/⌉ (r0 + dx) = g
      rw [swapFeeAmount_eq hfee, checkedSub, if_pos (ConstantProduct.fee_le hfee)]
      by_cases hg : g = 0
      · subst hg
        simp [net_zero]
      · have hdx0 : dx ≠ 0 := hdx.ne'
        by_cases hnet : g - g * fee / 10000 = 0
        · simp [hg, hnet, ConstantProduct.net]
        · simp [hg, hnet, ConstantProduct.net, hadd, formatPrice, hdx0, eq_comm]
    · have hzero : r1 - k ⌈/⌉ (r0 + dx) = 0 := by omega
      rw [checkedSub, if_neg hle, hzero]
      simp [net_zero]
  · rw [checkedAdd, if_neg hadd]
    simp [hadd]

theorem simulateAskLevel_eq_some (hk : k ≤ u128Max) (hfee : fee ≤ 10000) (hdx : dx < r0) :
    simulateAskLevel big r0 r1 k dx fee = some level ↔
      r1 < askReserve k r0 dx ∧ ConstantProduct.net dx fee ≠ 0 ∧
        level =
          ⟨big.quotient (askReserve k r0 dx - r1 : ℕ) (ConstantProduct.net dx fee : ℕ), dx⟩ := by
  have hnew : 0 < r0 - dx := by omega
  unfold simulateAskLevel askReserve
  rw [checkedSub, if_pos hdx.le]
  simp only [Option.bind_eq_bind, Option.bind_some, ceilDiv_eq hnew hk, hdx]
  generalize k ⌈/⌉ (r0 - dx) = q
  rw [swapFeeAmount_eq hfee]
  have hbase : checkedSub dx (dx * fee / 10000) = some (ConstantProduct.net dx fee) :=
    checkedSub_eq_some.2 ⟨ConstantProduct.fee_le hfee, rfl⟩
  by_cases hlt : r1 < q
  · have hcost : q - r1 ≠ 0 := by omega
    rw [checkedSub, if_pos hlt.le, hbase]
    by_cases hnet : ConstantProduct.net dx fee = 0
    · simp [hnet]
    · simp [hcost, hnet, hlt, formatPrice, eq_comm]
  · by_cases hle : r1 ≤ q
    · have hcost : q - r1 = 0 := by omega
      rw [checkedSub, if_pos hle]
      simp [hcost, hlt]
    · rw [checkedSub, if_neg hle]
      simp [hlt]

end Levels

section Pair

variable {i o x fee r0 r1 dx : ℕ}

/-- The pair's answer, where its offer and its spread are machine integers. -/
theorem simulatePoolLeg_eq (hi : 0 < i) (ho : 0 < o) (hole : o ≤ u128Max) (hx : 0 < x)
    (hadd : i + x ≤ u128Max) (hfee : fee ≤ 10000) (hideal : x * o / i ≤ u128Max) :
    ∃ leg, simulatePoolLeg i o x fee = .ok leg ∧
      leg.grossOutput = ConstantProduct.output i o x ∧
      leg.returnAmount = ConstantProduct.net (ConstantProduct.output i o x) fee := by
  have hxle : x ≤ u128Max := by omega
  have hile : i ≤ u128Max := by omega
  have hsum : 0 < i + x := by omega
  have hk : i * o ≤ u256Max := (Nat.mul_le_mul hile hole).trans (by decide)
  have hafter : (i * o) ⌈/⌉ (i + x) ≤ o := ConstantProduct.reserveAfter_le hi
  have hgross : ConstantProduct.output i o x ≤ u128Max := (Nat.sub_le _ _).trans hole
  have hcomm : ConstantProduct.output i o x * fee ≤ u256Max :=
    (Nat.mul_le_mul hgross hfee).trans (by decide)
  have hspread : x * o ≤ u256Max := (Nat.mul_le_mul hxle hole).trans (by decide)
  have hcle : ConstantProduct.output i o x * fee / 10000 ≤ ConstantProduct.output i o x :=
    ConstantProduct.fee_le hfee
  have hout : poolOutput i o x "sim new_output_reserve" =
      .ok (i * o, i + x, (i * o) ⌈/⌉ (i + x), ConstantProduct.output i o x) := by
    unfold poolOutput narrowU128
    rw [ensure_pos ⟨hi.ne', ho.ne'⟩, ok_bind, mul256_of_le hk, ok_bind,
      addOrOverflow_eq_ok.2 ⟨hadd, rfl⟩, ok_bind, ceilDivU256_eq hsum,
      if_pos (hafter.trans hole), ok_bind, subOrOverflow_eq_ok.2 ⟨hafter, rfl⟩, ok_bind]
    rfl
  have hfeeOut : poolCommission (ConstantProduct.output i o x) fee =
      .ok (ConstantProduct.output i o x * fee / 10000) := by
    unfold poolCommission
    rw [ensure_pos hfee, ok_bind, mul256_of_le hcomm, ok_bind]
    dsimp only
    rw [ensure_pos (hcle.trans hgross), ok_bind]
    rfl
  have hspreadOut : spotLinearSpreadOverGross x i o (ConstantProduct.output i o x) =
      .ok (x * o / i - ConstantProduct.output i o x) := by
    unfold spotLinearSpreadOverGross
    rw [ensure_pos hi.ne', ok_bind, mul256_of_le hspread, ok_bind]
    dsimp only
    rw [ensure_pos ((Nat.sub_le _ _).trans hideal), ok_bind]
    rfl
  refine ⟨⟨x, ConstantProduct.output i o x,
    ConstantProduct.net (ConstantProduct.output i o x) fee,
    ConstantProduct.output i o x * fee / 10000, x * o / i - ConstantProduct.output i o x⟩, ?_, rfl,
    rfl⟩
  unfold simulatePoolLeg
  rw [if_neg hx.ne', hout, ok_bind]
  dsimp only
  rw [hfeeOut, ok_bind, subOrOverflow_eq_ok.2 ⟨hcle, rfl⟩, ok_bind, hspreadOut, ok_bind]
  rfl

theorem bid_leg (hr0 : 0 < r0) (hr1 : 0 < r1) (hr1le : r1 ≤ u128Max) (hdx : 0 < dx)
    (hstep : 10 * dx ≤ r0) (hadd : r0 + dx ≤ u128Max) (hfee : fee ≤ 10000) :
    ∃ leg, simulatePoolLeg r0 r1 dx fee = .ok leg ∧
      leg.returnAmount = bidNet (r0 * r1) r0 r1 dx fee := by
  have hideal : dx * r1 / r0 ≤ u128Max := by
    have hle : dx * r1 ≤ r0 * r1 := Nat.mul_le_mul_right r1 (by omega)
    exact (Nat.div_le_of_le_mul hle).trans hr1le
  obtain ⟨leg, hleg, _, hnet⟩ := simulatePoolLeg_eq hr0 hr1 hr1le hdx hadd hfee hideal
  exact ⟨leg, hleg, hnet⟩

/-- A step is small, so the quote it costs is at most the quote reserve. -/
theorem ask_cost_le (hr1 : 0 < r1) (hdx : 0 < dx) (hstep : 10 * dx ≤ r0) :
    askReserve (r0 * r1) r0 dx - r1 ≤ r1 := by
  have hleft : 0 < r0 - dx := by omega
  have hle : askReserve (r0 * r1) r0 dx ≤ r1 + r1 := by
    apply (ceilDiv_le_iff_le_mul hleft).2
    have hhalf : r0 ≤ (r0 - dx) * 2 := by omega
    calc r0 * r1 ≤ (r0 - dx) * 2 * r1 := Nat.mul_le_mul_right r1 hhalf
      _ = (r0 - dx) * (r1 + r1) := by ring
  omega

/-- The quote offers that the pair answers with at least `dx` before its commission. -/
def sufficientOffers (r0 r1 dx fee : ℕ) : Set ℕ :=
  {offer | ∃ leg, simulatePoolLeg r1 r0 offer fee = .ok leg ∧ dx ≤ leg.grossOutput}

theorem le_of_sufficient {offer : ℕ} (hdx : 0 < dx) (hlt : dx < r0)
    (h : offer ∈ sufficientOffers r0 r1 dx fee) :
    askReserve (r0 * r1) r0 dx ≤ r1 + offer ∧ r1 + offer ≤ u128Max := by
  obtain ⟨leg, hleg, hge⟩ := h
  have hoffer : offer ≠ 0 := by
    rintro rfl
    rw [simulatePoolLeg, if_pos rfl] at hleg
    cases hleg
    exact absurd hge (not_le.2 hdx)
  have hpriced := simulatePoolLeg_eq_ok hoffer hleg
  have hi := hpriced.reserves.1
  rw [hpriced.gross, ConstantProduct.le_output_iff hi hlt, Nat.mul_comm] at hge
  exact ⟨hge, hpriced.inRange⟩

/-- The rounded-up quotient is the least sufficient offer, when the pair can take it in. -/
theorem ask_cost_isLeast (hr1 : 0 < r1) (hr0le : r0 ≤ u128Max) (hdx : 0 < dx)
    (hstep : 10 * dx ≤ r0) (hfee : fee ≤ 10000) (hcost : r1 < askReserve (r0 * r1) r0 dx)
    (hfits : askReserve (r0 * r1) r0 dx ≤ u128Max) :
    IsLeast (sufficientOffers r0 r1 dx fee) (askReserve (r0 * r1) r0 dx - r1) := by
  have hlt : dx < r0 := by omega
  have hsum : r1 + (askReserve (r0 * r1) r0 dx - r1) = askReserve (r0 * r1) r0 dx := by omega
  constructor
  · have hideal : (askReserve (r0 * r1) r0 dx - r1) * r0 / r1 ≤ u128Max := by
      have hle := Nat.mul_le_mul_right r0 (ask_cost_le hr1 hdx hstep)
      exact (Nat.div_le_of_le_mul hle).trans hr0le
    have hpos : 0 < askReserve (r0 * r1) r0 dx - r1 := by omega
    have hadd : r1 + (askReserve (r0 * r1) r0 dx - r1) ≤ u128Max := by omega
    obtain ⟨leg, hleg, hgross, _⟩ :=
      simulatePoolLeg_eq hr1 (by omega) hr0le hpos hadd hfee hideal
    refine ⟨leg, hleg, ?_⟩
    rw [hgross, ConstantProduct.le_output_iff hr1 hlt, hsum, Nat.mul_comm]
    exact le_rfl
  · intro offer hoffer
    have hle := (le_of_sufficient hdx hlt hoffer).1
    omega

end Pair

section Curve

variable {r0 r1 k m dx fee : ℕ}

theorem askReserve_mono (hlt : dx < r0) (hkm : k ≤ m) :
    askReserve k r0 dx ≤ askReserve m r0 dx := by
  have hleft : 0 < r0 - dx := by omega
  exact (ceilDiv_le_iff_le_mul hleft).2 (hkm.trans ((ceilDiv_le_iff_le_mul hleft).1 le_rfl))

/-- A smaller product quotes a bid no lower. -/
theorem bidNet_anti (hr0 : 0 < r0) (hfee : fee ≤ 10000) (hkm : k ≤ m) :
    bidNet m r0 r1 dx fee ≤ bidNet k r0 r1 dx fee := by
  have hsum : 0 < r0 + dx := by omega
  apply ConstantProduct.net_mono hfee
  have hle : k ⌈/⌉ (r0 + dx) ≤ m ⌈/⌉ (r0 + dx) :=
    (ceilDiv_le_iff_le_mul hsum).2 (hkm.trans ((ceilDiv_le_iff_le_mul hsum).1 le_rfl))
  exact Nat.sub_le_sub_left hle r1

theorem bidNet_le : bidNet k r0 r1 dx fee ≤ r1 := (Nat.sub_le _ _).trans (Nat.sub_le _ _)

theorem net_pos (hfee : fee < 10000) (hdx : 0 < dx) : 0 < ConstantProduct.net dx fee :=
  (ConstantProduct.le_net_iff hfee Nat.one_pos).2 (by simpa using Nat.succ_le_of_lt hdx)

/-- A bid is below the spot price in cross products. -/
theorem bidNet_cross (hr0 : 0 < r0) (hdx : 0 < dx) (hne : bidNet (r0 * r1) r0 r1 dx fee ≠ 0) :
    bidNet (r0 * r1) r0 r1 dx fee * r0 < r1 * dx := by
  have hle : bidNet (r0 * r1) r0 r1 dx fee ≤ ConstantProduct.output r0 r1 dx := Nat.sub_le _ _
  have hadd := ConstantProduct.output_add (o := r1) (x := dx) hr0
  have hprod := ConstantProduct.product_le (o := r1) (x := dx) hr0
  generalize bidNet (r0 * r1) r0 r1 dx fee = n at hne hle ⊢
  generalize ConstantProduct.output r0 r1 dx = g at hle hadd
  generalize ConstantProduct.reserveAfter r0 r1 dx = r at hadd hprod
  have hgpos : 0 < g * dx := Nat.mul_pos (by omega) hdx
  have hg : g * r0 + g * dx ≤ r1 * dx := by
    rw [← hadd] at hprod ⊢
    nlinarith
  have hn : n * r0 ≤ g * r0 := Nat.mul_le_mul_right r0 hle
  omega

/-- An ask is above it. -/
theorem ask_cross (hdx : 0 < dx) (hlt : dx < r0) (hcost : r1 < askReserve (r0 * r1) r0 dx) :
    r1 * dx < (askReserve (r0 * r1) r0 dx - r1) * r0 := by
  have hleft : 0 < r0 - dx := by omega
  have hprod : r0 * r1 ≤ (r0 - dx) * askReserve (r0 * r1) r0 dx :=
    (ceilDiv_le_iff_le_mul hleft).1 le_rfl
  generalize askReserve (r0 * r1) r0 dx = q at hcost hprod ⊢
  obtain ⟨c, rfl⟩ := Nat.exists_eq_add_of_lt hcost
  obtain ⟨l, rfl⟩ := Nat.exists_eq_add_of_lt hlt
  have hl : dx + l + 1 - dx = l + 1 := by omega
  have hc : r1 + c + 1 - r1 = c + 1 := by omega
  rw [hl] at hprod
  rw [hc]
  nlinarith [Nat.mul_pos (Nat.succ_pos c) hdx]

end Curve

section Ladder

/-- A bid is quoted at the pair's net return, which the pool can pay, below the spot price. -/
structure BidAgrees (big : BigDecimals) (r0 r1 fee : ℕ) (level : AmmLevel) : Prop where
  quoted : ∃ leg, simulatePoolLeg r0 r1 level.quantity fee = .ok leg ∧
    level.price = big.quotient leg.returnAmount level.quantity ∧ leg.returnAmount < r1
  price : level.price ≤ (r1 : ℚ) / r0

/-- An ask is quoted at the least sufficient offer for a base amount that the pool can pay. -/
structure AskAgrees (big : BigDecimals) (r0 r1 fee : ℕ) (level : AmmLevel) : Prop where
  quoted : ∃ cost : ℕ, IsLeast (sufficientOffers r0 r1 level.quantity fee) cost ∧
    level.price = big.quotient cost (ConstantProduct.net level.quantity fee : ℕ)
  base : level.quantity < r0
  price : (r1 : ℚ) / r0 ≤ level.price

structure LadderAgrees (big : BigDecimals) (r0 r1 depth fee : ℕ) : Prop where
  bids : ∀ level ∈ (walkLevels big r0 r1 depth fee).bids, BidAgrees big r0 r1 fee level
  asks : ∀ level ∈ (walkLevels big r0 r1 depth fee).asks, AskAgrees big r0 r1 fee level

/-- At no step does it matter to the rounded quotients that the product of the reserves stops at
the greatest machine integer: neither to the net quote of a bid, nor to the reserve after an ask
that still costs something. -/
def RoundsAlike (r0 r1 depth fee : ℕ) : Prop :=
  ∀ step dx, 1 ≤ step → step ≤ depth → dx = stepBaseAmount r0 step depth → 0 < dx →
    (r0 + dx ≤ u128Max →
      bidNet (min (r0 * r1) u128Max) r0 r1 dx fee = bidNet (r0 * r1) r0 r1 dx fee) ∧
    (fee < 10000 → r1 < askReserve (min (r0 * r1) u128Max) r0 dx →
      askReserve (min (r0 * r1) u128Max) r0 dx = askReserve (r0 * r1) r0 dx)

variable {big : BigDecimals} {r0 r1 depth fee : ℕ} {level : AmmLevel}

theorem roundsAlike_of_le (h : r0 * r1 ≤ u128Max) : RoundsAlike r0 r1 depth fee := by
  intro step dx _ _ _ _
  rw [min_eq_left h]
  exact ⟨fun _ => rfl, fun _ _ => rfl⟩

theorem mem_bids (hr0 : 0 < r0) (hr1 : 0 < r1) (hdepth : 1 ≤ depth) :
    level ∈ (walkLevels big r0 r1 depth fee).bids ↔ ∃ step dx, 1 ≤ step ∧ step ≤ depth ∧
      dx = stepBaseAmount r0 step depth ∧ 0 < dx ∧
      simulateBidLevel big r0 r1 (min (r0 * r1) u128Max) dx fee = some level := by
  have hne : ¬(r0 = 0 ∨ r1 = 0) := by omega
  unfold walkLevels
  rw [if_neg hne]
  simp only [max_eq_left hdepth, List.mem_filterMap, List.mem_range'_1, saturatingMul]
  constructor
  · rintro ⟨step, hstep, h⟩
    split_ifs at h with hdx
    exact ⟨step, _, hstep.1, by omega, rfl, Nat.pos_of_ne_zero hdx, h⟩
  · rintro ⟨step, dx, hstep, hle, rfl, hdx, h⟩
    exact ⟨step, ⟨hstep, by omega⟩, by rw [if_neg hdx.ne']; exact h⟩

theorem mem_asks (hr0 : 0 < r0) (hr1 : 0 < r1) (hdepth : 1 ≤ depth) :
    level ∈ (walkLevels big r0 r1 depth fee).asks ↔ ∃ step dx, 1 ≤ step ∧ step ≤ depth ∧
      dx = stepBaseAmount r0 step depth ∧ 0 < dx ∧
      simulateAskLevel big r0 r1 (min (r0 * r1) u128Max) dx fee = some level := by
  have hne : ¬(r0 = 0 ∨ r1 = 0) := by omega
  unfold walkLevels
  rw [if_neg hne]
  simp only [max_eq_left hdepth, List.mem_filterMap, List.mem_range'_1, saturatingMul]
  constructor
  · rintro ⟨step, hstep, h⟩
    split_ifs at h with hdx
    exact ⟨step, _, hstep.1, by omega, rfl, Nat.pos_of_ne_zero hdx, h⟩
  · rintro ⟨step, dx, hstep, hle, rfl, hdx, h⟩
    exact ⟨step, ⟨hstep, by omega⟩, by rw [if_neg hdx.ne']; exact h⟩

variable (hbig : big.Accurate) (hr0 : 0 < r0) (hr1 : 0 < r1) (hr0le : r0 ≤ u128Max)
  (hr1le : r1 ≤ u128Max) (hdepth : 1 ≤ depth) (hdepthle : depth ≤ u64Max) (hfee : fee ≤ 10000)

include hbig hr0 hr1 hr0le hr1le hdepth hdepthle hfee

omit hr0le in
theorem RoundsAlike.bids (h : RoundsAlike r0 r1 depth fee)
    (hlevel : level ∈ (walkLevels big r0 r1 depth fee).bids) : BidAgrees big r0 r1 fee level := by
  obtain ⟨step, dx, hpos, hle, hdxeq, hdx, hsome⟩ := (mem_bids hr0 hr1 hdepth).1 hlevel
  have hstep : 10 * dx ≤ r0 := hdxeq ▸ stepBaseAmount_le hpos hle hdepthle
  obtain ⟨hadd, hne, rfl⟩ :=
    (simulateBidLevel_eq_some hr0 (min_le_right _ _) hfee hdx).1 hsome
  have hsame := (h step dx hpos hle hdxeq hdx).1 hadd
  rw [hsame] at hne ⊢
  obtain ⟨leg, hleg, hnet⟩ := bid_leg hr0 hr1 hr1le hdx hstep hadd hfee
  have hless : bidNet (r0 * r1) r0 r1 dx fee < r1 :=
    lt_of_le_of_lt (Nat.sub_le _ _) (ConstantProduct.output_lt hr0 hr1)
  constructor
  · exact ⟨leg, hleg, by rw [hnet], by rw [hnet]; exact hless⟩
  · apply le_of_lt
    exact hbig.quotient_lt (hless.le.trans hr1le) (by omega) hdx (by omega) hr0
      (bidNet_cross hr0 hdx hne)

theorem RoundsAlike.asks (h : RoundsAlike r0 r1 depth fee)
    (hlevel : level ∈ (walkLevels big r0 r1 depth fee).asks) : AskAgrees big r0 r1 fee level := by
  obtain ⟨step, dx, hpos, hle, hdxeq, hdx, hsome⟩ := (mem_asks hr0 hr1 hdepth).1 hlevel
  have hstep : 10 * dx ≤ r0 := hdxeq ▸ stepBaseAmount_le hpos hle hdepthle
  have hlt : dx < r0 := by omega
  obtain ⟨hcost, hne, rfl⟩ := (simulateAskLevel_eq_some (min_le_right _ _) hfee hlt).1 hsome
  have hfeelt : fee < 10000 := by
    apply lt_of_le_of_ne hfee
    rintro rfl
    exact hne (by simp [ConstantProduct.net])
  have hsame := (h step dx hpos hle hdxeq hdx).2 hfeelt hcost
  have hfits : askReserve (r0 * r1) r0 dx ≤ u128Max := by
    rw [← hsame]
    have hleft : 0 < r0 - dx := by omega
    exact (ceilDiv_le_iff_le_mul hleft).2
      ((min_le_right _ _).trans (Nat.le_mul_of_pos_left _ hleft))
  rw [hsame] at hcost ⊢
  have hnetle : ConstantProduct.net dx fee ≤ dx := Nat.sub_le _ _
  constructor
  · exact ⟨_, ask_cost_isLeast hr1 hr0le hdx hstep hfee hcost hfits, rfl⟩
  · exact hlt
  · apply le_of_lt
    apply hbig.lt_quotient ((Nat.sub_le _ _).trans hfits) (by omega) (Nat.pos_of_ne_zero hne)
      (by omega) hr0
    exact (Nat.mul_le_mul_left r1 hnetle).trans_lt (ask_cross hdx hlt hcost)

theorem LadderAgrees.roundsAlike (h : LadderAgrees big r0 r1 depth fee) :
    RoundsAlike r0 r1 depth fee := by
  intro step dx hpos hle hdxeq hdx
  have hstep : 10 * dx ≤ r0 := hdxeq ▸ stepBaseAmount_le hpos hle hdepthle
  have hlt : dx < r0 := by omega
  have hclip : min (r0 * r1) u128Max ≤ r0 * r1 := min_le_left _ _
  constructor
  · intro hadd
    have hanti : bidNet (r0 * r1) r0 r1 dx fee ≤ bidNet (min (r0 * r1) u128Max) r0 r1 dx fee :=
      bidNet_anti hr0 hfee hclip
    by_cases hne : bidNet (min (r0 * r1) u128Max) r0 r1 dx fee = 0
    · omega
    · have hsome : simulateBidLevel big r0 r1 (min (r0 * r1) u128Max) dx fee = some _ :=
        (simulateBidLevel_eq_some hr0 (min_le_right _ _) hfee hdx).2 ⟨hadd, hne, rfl⟩
      obtain ⟨leg, hleg, hprice, _⟩ :=
        (h.bids _ ((mem_bids hr0 hr1 hdepth).2 ⟨step, dx, hpos, hle, hdxeq, hdx, hsome⟩)).quoted
      obtain ⟨leg', hleg', hnet⟩ := bid_leg hr0 hr1 hr1le hdx hstep hadd hfee
      rw [hleg] at hleg'
      cases hleg'
      rw [hnet] at hprice
      exact hbig.quotient_inj (bidNet_le.trans hr1le) (bidNet_le.trans hr1le) (by omega) hdx hprice
  · intro hfeelt hcost
    have hne := net_pos hfeelt hdx
    have hsome : simulateAskLevel big r0 r1 (min (r0 * r1) u128Max) dx fee = some _ :=
      (simulateAskLevel_eq_some (min_le_right _ _) hfee hlt).2 ⟨hcost, hne.ne', rfl⟩
    obtain ⟨cost, hleast, hprice⟩ :=
      (h.asks _ ((mem_asks hr0 hr1 hdepth).2 ⟨step, dx, hpos, hle, hdxeq, hdx, hsome⟩)).quoted
    have hbounds := le_of_sufficient hdx hlt hleast.1
    have hmono := askReserve_mono hlt hclip
    have hnetle : ConstantProduct.net dx fee ≤ dx := Nat.sub_le _ _
    have heq : askReserve (min (r0 * r1) u128Max) r0 dx - r1 = cost :=
      hbig.quotient_inj (by omega) (by omega) (by omega) hne hprice
    omega

/-- The ladder agrees with the pair exactly when clipping the product of the reserves changes no
rounded quotient that is published. -/
theorem ladder_agrees_iff :
    LadderAgrees big r0 r1 depth fee ↔ RoundsAlike r0 r1 depth fee := by
  constructor
  · exact fun h => h.roundsAlike hbig hr0 hr1 hr0le hr1le hdepth hdepthle hfee
  · intro h
    constructor
    · exact fun level => h.bids hbig hr0 hr1 hr1le hdepth hdepthle hfee
    · exact fun level => h.asks hbig hr0 hr1 hr0le hr1le hdepth hdepthle hfee

end Ladder

section Published

/-- A quotient is printed in full. -/
def BigDecimals.Prints (big : BigDecimals) : Prop :=
  ∀ n d : ℕ, big.parse (big.print (big.quotient n d)) = some (big.quotient n d)

variable {big : BigDecimals} {r0 r1 depth fee : ℕ} {level : AmmLevel}

theorem BigDecimals.Prints.read_text (hprints : big.Prints) {n d : ℕ}
    (hprice : level.price = big.quotient n d) (hquantity : level.quantity ≤ u128Max) :
    readLevel big (level.text big) = (some level.price, some level.quantity) := by
  have hparse := hprints n d
  rw [← hprice] at hparse
  unfold readLevel AmmLevel.text
  rw [hparse, parseU128_toString hquantity]

variable (hprints : big.Prints) (hr0 : 0 < r0) (hr1 : 0 < r1) (hr0le : r0 ≤ u128Max)
  (hdepth : 1 ≤ depth) (hdepthle : depth ≤ u64Max) (hfee : fee ≤ 10000)

include hprints hr0 hr1 hr0le hdepth hdepthle hfee

/-- A published level reads as the level of the walk that it was printed from. -/
theorem walkLevels_read (hlevel : level ∈ (walkLevels big r0 r1 depth fee).bids ∨
    level ∈ (walkLevels big r0 r1 depth fee).asks) :
    readLevel big (level.text big) = (some level.price, some level.quantity) := by
  rcases hlevel with hbid | hask
  · obtain ⟨step, dx, hpos, hle, hdxeq, hdx, hsome⟩ := (mem_bids hr0 hr1 hdepth).1 hbid
    have hstep : 10 * dx ≤ r0 := hdxeq ▸ stepBaseAmount_le hpos hle hdepthle
    obtain ⟨-, -, rfl⟩ := (simulateBidLevel_eq_some hr0 (min_le_right _ _) hfee hdx).1 hsome
    exact hprints.read_text rfl (by dsimp only; omega)
  · obtain ⟨step, dx, hpos, hle, hdxeq, hdx, hsome⟩ := (mem_asks hr0 hr1 hdepth).1 hask
    have hstep : 10 * dx ≤ r0 := hdxeq ▸ stepBaseAmount_le hpos hle hdepthle
    obtain ⟨-, -, rfl⟩ :=
      (simulateAskLevel_eq_some (min_le_right _ _) hfee (by omega)).1 hsome
    exact hprints.read_text rfl (by dsimp only; omega)

/-- The published ladder agrees with the pair wherever the walk does. -/
theorem walkAmmBook_agrees (h : LadderAgrees big r0 r1 depth fee) :
    (∀ l ∈ (walkAmmBook big r0 r1 depth fee).bids, ∃ level, BidAgrees big r0 r1 fee level ∧
      readLevel big l = (some level.price, some level.quantity)) ∧
    ∀ l ∈ (walkAmmBook big r0 r1 depth fee).asks, ∃ level, AskAgrees big r0 r1 fee level ∧
      readLevel big l = (some level.price, some level.quantity) := by
  have hread {level : AmmLevel} := @walkLevels_read big r0 r1 depth fee level hprints hr0 hr1 hr0le
    hdepth hdepthle hfee
  constructor
  · intro l hl
    obtain ⟨level, hlevel, rfl⟩ := List.mem_map.1 hl
    exact ⟨level, h.bids level hlevel, hread (.inl hlevel)⟩
  · intro l hl
    obtain ⟨level, hlevel, rfl⟩ := List.mem_map.1 hl
    exact ⟨level, h.asks level hlevel, hread (.inr hlevel)⟩

/-- The hybrid book lists the ladder together with the resting limits, aggregated exactly when the
levels of a side can be summed. -/
theorem hybridLadder_aggregated_iff (bidLimits askLimits : List LimitBookOrderItem) :
    let pool := walkAmmBook big r0 r1 depth fee
    let book := buildHybridBook big pool bidLimits askLimits depth
    let bidLevels := pool.bids ++ restingLevels big bidLimits
    let askLevels := pool.asks ++ restingLevels big askLimits
    (∀ p, depthAt big bidLevels p ≤ u128Max) → (∀ p, depthAt big askLevels p ≤ u128Max) →
      (book.bids.map (readLevel big) =
          aggregated big bidLevels depth (bookPrices big bidLevels true) ↔
        Summable big bidLevels depth (bookPrices big bidLevels true)) ∧
      (book.asks.map (readLevel big) =
          aggregated big askLevels depth (bookPrices big askLevels false) ↔
        Summable big askLevels depth (bookPrices big askLevels false)) := by
  intro pool book bidLevels askLevels hbids hasks
  have hread {level : AmmLevel} := @walkLevels_read big r0 r1 depth fee level hprints hr0 hr1 hr0le
    hdepth hdepthle hfee
  refine buildHybridBook_aggregated_iff hdepth ?_ hbids hasks
  refine List.forall_mem_append.2 ⟨fun l hl => ?_, fun l hl => ?_⟩
  · obtain ⟨level, hlevel, rfl⟩ := List.mem_map.1 hl
    exact ⟨level.price, level.quantity, hread (.inl hlevel)⟩
  · obtain ⟨level, hlevel, rfl⟩ := List.mem_map.1 hl
    exact ⟨level.price, level.quantity, hread (.inr hlevel)⟩

end Published

section Samples

theorem plainDecimals_accurate : plainDecimals.Accurate := by
  intro n d _ _ _
  have hzero : plainDecimals.quotient n d - (n : ℚ) / d = 0 := sub_self _
  rw [hzero, abs_zero]
  positivity

/-- One level a side, at 909.09 and at 1111.12. -/
theorem ladder_agrees_iff_sample :
    walkLevels plainDecimals 1000 1000000 1 0 =
        ⟨[⟨90909 / 100, 100⟩], [⟨111112 / 100, 100⟩]⟩ ∧
      LadderAgrees plainDecimals 1000 1000000 1 0 := by
  constructor
  · decide +kernel
  · exact (ladder_agrees_iff plainDecimals_accurate (by decide) (by decide) (by decide) (by decide)
      (by decide) (by decide) (by decide)).2 (roundsAlike_of_le (by decide))

/-- A million tokens of eighteen decimals on either side are bid at ten times their price. -/
theorem ladder_disagrees : plainDecimals.Accurate ∧
    ¬LadderAgrees plainDecimals (10 ^ 24) (10 ^ 24) 1 0 := by
  refine ⟨plainDecimals_accurate, fun h => ?_⟩
  have hbook : ∃ level ∈ (walkLevels plainDecimals (10 ^ 24) (10 ^ 24) 1 0).bids,
      (9 : ℚ) < level.price := by decide +kernel
  obtain ⟨level, hlevel, hprice⟩ := hbook
  have hle := (h.bids level hlevel).price
  have hspot : ((10 ^ 24 : ℕ) : ℚ) / (10 ^ 24 : ℕ) = 1 := by norm_num
  rw [hspot] at hle
  linarith

end Samples

end Cl8yDex.Listing
