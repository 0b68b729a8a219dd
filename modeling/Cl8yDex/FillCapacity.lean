import Cl8yDex.MatchFacts
import Cl8yDex.Reciprocal

/-!
# How much of an order a fill takes

The fill arithmetic in closed form. A bid is offered no more token0 than its remainder buys through
the truncated reciprocal, and an ask no more than the taker's budget buys. Either way the cost fits
at once and the loop that lowers a fill never runs.
-/

namespace Cl8yDex

open Outcome Reciprocal

variable {price : Decimal} {order : OrderTerms} {w : WalkParams} {left n limit : ℕ}

/-- The token0 that an amount of token1 buys at `price`. -/
def Decimal.buys (price : Decimal) (amount : ℕ) : ℕ :=
  goods Decimal.fractional price.atomics amount

/-- The token1 that an amount of token0 costs at `price`. -/
def Decimal.costs (price : Decimal) (amount : ℕ) : ℕ :=
  cost Decimal.fractional price.atomics amount

theorem Decimal.buys_mono {a b : ℕ} (h : a ≤ b) : price.buys a ≤ price.buys b := goods_mono h

theorem Decimal.costs_mono {a b : ℕ} (h : a ≤ b) : price.costs a ≤ price.costs b := cost_mono h

theorem Decimal.costs_le {a : ℕ} (h : n ≤ price.buys a) : price.costs n ≤ a :=
  cost_le_of_le_goods Decimal.fractional_pos h

theorem checkedMulFloor_eq (hfits : price.costs n ≤ u128Max) :
    Decimal.checkedMulFloor n price = some (price.costs n) :=
  Decimal.checkedMulFloor_eq_some.2 ⟨hfits, rfl⟩

theorem tryPriceInverse_eq (hp : price.isZero = false) :
    tryPriceInverse price = some ⟨inverse Decimal.fractional price.atomics⟩ := by
  have hne : price.atomics ≠ 0 := by simpa [Decimal.isZero] using hp
  apply Decimal.checkedFromRatio_eq_some.2
  refine ⟨hne, (Nat.div_le_self _ _).trans ?_, rfl⟩
  decide

theorem token0Capacity_eq_some (hp : price.isZero = false) {a cap : ℕ} :
    token0Capacity a price = some cap ↔ price.buys a ≤ u128Max ∧ cap = price.buys a := by
  unfold token0Capacity
  rw [tryPriceInverse_eq hp, Option.bind_eq_bind, Option.bind_some]
  exact Decimal.checkedMulFloor_eq_some

theorem token0Capacity_eq_none (hp : price.isZero = false) {a : ℕ} :
    token0Capacity a price = none ↔ u128Max < price.buys a := by
  constructor
  · intro hnone
    by_contra hle
    rw [(token0Capacity_eq_some hp).2 ⟨not_lt.1 hle, rfl⟩] at hnone
    cases hnone
  · intro hlt
    cases hcap : token0Capacity a price with
    | none => rfl
    | some cap => exact absurd ((token0Capacity_eq_some hp).1 hcap).1 (not_le.2 hlt)

/-- An amount whose cost fits is taken as it is. -/
theorem pricedFill_eq (hlimit : price.costs n ≤ limit) (hfits : price.costs n ≤ u128Max) :
    pricedFill price limit n =
      if price.costs n = 0 then none else some (n, price.costs n) := by
  unfold pricedFill
  cases n with
  | zero =>
      have hzero : price.costs 0 = 0 := cost_zero
      rw [if_pos rfl, if_pos hzero]
  | succ n =>
      have hadjust : adjustFill price limit (n + 1) (price.costs (n + 1)) =
          some (n + 1, price.costs (n + 1)) := by
        unfold adjustFill
        rw [if_neg (not_lt.2 hlimit)]
      rw [if_neg (Nat.succ_ne_zero n), checkedMulFloor_eq hfits]
      simp only [Option.bind_eq_bind, Option.bind_some, hadjust, Nat.succ_ne_zero, false_or]

theorem bidFill_eq (hp : order.price.isZero = false)
    (hcap : order.price.buys order.remaining ≤ u128Max)
    (hfits : order.price.costs (order.price.buys order.remaining) ≤ u128Max) :
    bidFill left order = .ok
      (if order.price.costs (min left (order.price.buys order.remaining)) = 0 then none
      else some (min left (order.price.buys order.remaining),
        order.price.costs (min left (order.price.buys order.remaining)))) := by
  have hle := min_le_right left (order.price.buys order.remaining)
  unfold bidFill
  rw [ensure_pos (by simp [hp]), ok_bind, (token0Capacity_eq_some hp).2 ⟨hcap, rfl⟩,
    Option.bind_some, pricedFill_eq (Decimal.costs_le hle) ((Decimal.costs_mono hle).trans hfits)]
  rfl

theorem askFill_eq (hp : order.price.isZero = false) (hbuys : order.price.buys left ≤ u128Max)
    (hleft : left ≤ u128Max) :
    askFill left order = .ok
      (if order.price.costs (min order.remaining (order.price.buys left)) = 0 then none
      else some (order.price.costs (min order.remaining (order.price.buys left)),
        min order.remaining (order.price.buys left))) := by
  have hle := min_le_right order.remaining (order.price.buys left)
  have hcost := Decimal.costs_le hle
  unfold askFill
  rw [if_neg (by simp [hp]), (token0Capacity_eq_some hp).2 ⟨hbuys, rfl⟩]
  simp only [Option.bind_eq_bind, Option.bind_some, pricedFill_eq hcost (hcost.trans hleft)]
  split_ifs <;> rfl

/-- A budget too large for the reciprocal skips the ask. -/
theorem askFill_overflow (hp : order.price.isZero = false)
    (hbuys : u128Max < order.price.buys left) : askFill left order = .ok none := by
  unfold askFill
  rw [if_neg (by simp [hp]), (token0Capacity_eq_none hp).2 hbuys]
  rfl

/-- What the fillability test of a resting order says. -/
theorem isLimitOrderFillable_iff {side : LimitOrderSide} {remaining : ℕ} :
    isLimitOrderFillable side remaining price = true ↔
      remaining ≠ 0 ∧ price.isZero = false ∧ inverse Decimal.fractional price.atomics ≠ 0 ∧
        match side with
        | .ask => Decimal.fractional ≤ remaining * price.atomics
        | .bid => price.buys remaining ≤ u128Max ∧
            price.costs (price.buys remaining) ≤ u128Max ∧
            price.costs (price.buys remaining) ≠ 0 := by
  unfold isLimitOrderFillable
  by_cases hzero : remaining = 0 ∨ price.isZero = true
  · rw [if_pos hzero]
    constructor
    · intro h
      cases h
    · rintro ⟨h1, h2, -⟩
      rcases hzero with h | h
      · exact absurd h h1
      · rw [h2] at h
        cases h
  · obtain ⟨hrem, hp⟩ := not_or.1 hzero
    have hp : price.isZero = false := by simpa using hp
    have hinv : Decimal.one.checkedDiv price =
        some ⟨inverse Decimal.fractional price.atomics⟩ := tryPriceInverse_eq hp
    rw [if_neg hzero, hinv]
    simp only [hrem, hp, ne_eq, not_false_eq_true, true_and]
    by_cases hi : inverse Decimal.fractional price.atomics = 0
    · simp [Decimal.isZero, hi]
    · cases side with
      | ask =>
          simp only [Decimal.isZero, hi, decide_false, Bool.false_eq_true, if_false,
            not_false_eq_true, true_and]
          exact decide_eq_true_iff
      | bid =>
          simp only [Decimal.isZero, hi, decide_false, Bool.false_eq_true, if_false,
            not_false_eq_true, true_and]
          by_cases hbuys : price.buys remaining ≤ u128Max
          · have hcap : Decimal.checkedMulFloor remaining
                ⟨inverse Decimal.fractional price.atomics⟩ = some (price.buys remaining) :=
              Decimal.checkedMulFloor_eq_some.2 ⟨hbuys, rfl⟩
            simp only [hcap, hbuys, true_and]
            by_cases hcost : price.costs (price.buys remaining) ≤ u128Max
            · have hle : price.costs (price.buys remaining) ≤ remaining := Decimal.costs_le le_rfl
              simp only [checkedMulFloor_eq hcost, hcost, true_and, decide_eq_true_eq]
              constructor
              · exact fun h => h.2.1
              · intro hne
                refine ⟨fun hz => hne ?_, hne, hle⟩
                rw [hz]
                exact cost_zero
            · have hnone : Decimal.checkedMulFloor (price.buys remaining) price = none := by
                cases hc : Decimal.checkedMulFloor (price.buys remaining) price with
                | none => rfl
                | some c => exact absurd (Decimal.checkedMulFloor_eq_some.1 hc).1 hcost
              simp [hnone, hcost]
          · have hnone : Decimal.checkedMulFloor remaining
                ⟨inverse Decimal.fractional price.atomics⟩ = none := by
              cases hc : Decimal.checkedMulFloor remaining
                  ⟨inverse Decimal.fractional price.atomics⟩ with
              | none => rfl
              | some c => exact absurd (Decimal.checkedMulFloor_eq_some.1 hc).1 hbuys
            simp [hnone, hbuys]

end Cl8yDex

/-!
## The work of pricing a fill

The loop that lowers a fill with the number of its iterations, and the price products that a plan
computes. The cost of an offered amount fits at once, whatever the amounts are.
-/

namespace Cl8yDex

open Outcome Reciprocal

/-- The loop that lowers a fill, with its number of iterations. -/
def adjustFillCounted (price : Decimal) (limit : ℕ) : ℕ → ℕ → Option (ℕ × ℕ) × ℕ
  | 0, cost => (some (0, cost), 0)
  | fill + 1, cost =>
      if limit < cost then
        if fill = 0 then (some (0, cost), 1)
        else match Decimal.checkedMulFloor fill price with
          | none => (none, 1)
          | some adjusted =>
            let rest := adjustFillCounted price limit fill adjusted
            (rest.1, rest.2 + 1)
      else (some (fill + 1, cost), 0)

/-- The amount whose cost is bounded: the maker's remainder or the taker's budget. -/
def fillLimit (left : ℕ) (order : OrderTerms) : LimitOrderSide → ℕ
  | .bid => order.remaining
  | .ask => left

/-- The other bound of a fill, in token0. -/
def fillOther (left : ℕ) (order : OrderTerms) : LimitOrderSide → ℕ
  | .bid => left
  | .ask => order.remaining

/-- The decimal operations of a plan: the reciprocal, what it buys, the cost of the fill, and one
for each iteration of the loop. -/
def planWork (side : LimitOrderSide) (left : ℕ) (order : OrderTerms) : ℕ :=
  match token0Capacity (fillLimit left order side) order.price with
  | none => 2
  | some cap =>
    let fill := min (fillOther left order side) cap
    if fill = 0 then 2
    else match Decimal.checkedMulFloor fill order.price with
      | none => 3
      | some cost => 3 + (adjustFillCounted order.price (fillLimit left order side) fill cost).2

variable {price : Decimal} {order : OrderTerms} {left limit fill cost : ℕ}

/-- Counting changes nothing. -/
theorem adjustFillCounted_fst :
    (adjustFillCounted price limit fill cost).1 = adjustFill price limit fill cost := by
  induction fill generalizing cost with
  | zero => rfl
  | succ fill ih =>
    unfold adjustFillCounted adjustFill
    by_cases hlt : limit < cost
    · rw [if_pos hlt, if_pos hlt]
      by_cases hzero : fill = 0
      · rw [if_pos hzero, if_pos hzero]
      · rw [if_neg hzero, if_neg hzero]
        cases hmul : Decimal.checkedMulFloor fill price with
        | none => rfl
        | some adjusted => exact ih
    · rw [if_neg hlt, if_neg hlt]

theorem adjustFillCounted_of_le (h : cost ≤ limit) :
    adjustFillCounted price limit fill cost = (some (fill, cost), 0) := by
  cases fill with
  | zero => rfl
  | succ fill =>
    unfold adjustFillCounted
    rw [if_neg (not_lt.2 h)]

/-- No more than the reciprocal buys has a cost that fits at once. -/
theorem cost_fits (hlimit : limit ≤ u128Max) (hfill : fill ≤ price.buys limit) :
    Decimal.checkedMulFloor fill price = some (price.costs fill) ∧ price.costs fill ≤ limit := by
  have hcost := Decimal.costs_le hfill
  exact ⟨checkedMulFloor_eq (hcost.trans hlimit), hcost⟩

theorem fillLimit_le {side : LimitOrderSide} (hleft : left ≤ u128Max)
    (hremaining : order.remaining ≤ u128Max) : fillLimit left order side ≤ u128Max := by
  cases side with
  | bid => exact hremaining
  | ask => exact hleft

theorem planWork_le {side : LimitOrderSide} (hp : order.price.isZero = false)
    (hleft : left ≤ u128Max) (hremaining : order.remaining ≤ u128Max) :
    planWork side left order ≤ 3 := by
  have hlimit : fillLimit left order side ≤ u128Max := fillLimit_le hleft hremaining
  unfold planWork
  cases hcap : token0Capacity (fillLimit left order side) order.price with
  | none => exact Nat.le_succ 2
  | some cap =>
    obtain ⟨-, rfl⟩ := (token0Capacity_eq_some hp).1 hcap
    obtain ⟨hmul, hfits⟩ := cost_fits hlimit (min_le_right (fillOther left order side)
      (order.price.buys (fillLimit left order side)))
    dsimp only
    rw [hmul]
    dsimp only
    rw [adjustFillCounted_of_le hfits]
    split
    · exact Nat.le_succ 2
    · exact Nat.le_refl 3

/-- For every positive price and all amounts of 128 bits the cost of the fill, at the truncated
reciprocal, is at most what bounds it: the loop has no iteration, nothing in it overflows, the
subtractions after it succeed, and a plan takes at most three decimal operations. -/
theorem fill_adjust_never_runs (side : LimitOrderSide) (left : ℕ) (order : OrderTerms)
    (hp : order.price.isZero = false) (hleft : left ≤ u128Max)
    (hremaining : order.remaining ≤ u128Max) :
    (∃ inv, tryPriceInverse order.price = some inv ∧
      inv.atomics = Decimal.fractional * Decimal.fractional / order.price.atomics ∧
      fillLimit left order side * inv.atomics / Decimal.fractional * order.price.atomics /
        Decimal.fractional ≤ fillLimit left order side ∧
      ∀ cap, Decimal.checkedMulFloor (fillLimit left order side) inv = some cap →
        let fill := min (fillOther left order side) cap
        ∃ cost, Decimal.checkedMulFloor fill order.price = some cost ∧
          cost ≤ fillLimit left order side ∧
          adjustFillCounted order.price (fillLimit left order side) fill cost =
            (some (fill, cost), 0) ∧
          adjustFill order.price (fillLimit left order side) fill cost = some (fill, cost)) ∧
    (∀ offer taken, planFill side left order = .ok (some (offer, taken)) →
      subOrOverflow left offer = .ok (left - offer) ∧
        subOrOverflow order.remaining taken = .ok (order.remaining - taken)) ∧
    planWork side left order ≤ 3 := by
  have hlimit : fillLimit left order side ≤ u128Max := fillLimit_le hleft hremaining
  refine ⟨?_, ?_, planWork_le hp hleft hremaining⟩
  · refine ⟨_, tryPriceInverse_eq hp, rfl, cost_goods_le Decimal.fractional_pos, ?_⟩
    intro cap hcap
    obtain ⟨-, rfl⟩ := Decimal.checkedMulFloor_eq_some.1 hcap
    obtain ⟨hmul, hfits⟩ := cost_fits hlimit (min_le_right (fillOther left order side)
      (order.price.buys (fillLimit left order side)))
    refine ⟨_, hmul, hfits, adjustFillCounted_of_le hfits, ?_⟩
    rw [← adjustFillCounted_fst, adjustFillCounted_of_le hfits]
  · intro offer taken hplan
    cases side with
    | bid =>
      obtain ⟨hoffer, htaken, -⟩ := bidFill_spec hplan
      exact ⟨subOrOverflow_eq_ok.2 ⟨hoffer, rfl⟩, subOrOverflow_eq_ok.2 ⟨htaken, rfl⟩⟩
    | ask =>
      obtain ⟨hoffer, htaken, -⟩ := askFill_spec hplan
      exact ⟨subOrOverflow_eq_ok.2 ⟨hoffer, rfl⟩, subOrOverflow_eq_ok.2 ⟨htaken, rfl⟩⟩

/-- A taker's 7 token1 against an ask of 5 token0 at the price of three halves. -/
theorem fill_adjust_never_runs_sample :
    let order : OrderTerms := ⟨9, ⟨3 * 10 ^ 18 / 2⟩, 5, .ask, none⟩
    planWork .ask 7 order ≤ 3 ∧ ∃ inv, tryPriceInverse order.price = some inv ∧
      ∀ cap, Decimal.checkedMulFloor 7 inv = some cap →
        ∃ cost, Decimal.checkedMulFloor (min 5 cap) order.price = some cost ∧
          adjustFillCounted order.price 7 (min 5 cap) cost = (some (min 5 cap, cost), 0) := by
  intro order
  obtain ⟨⟨inv, hinv, -, -, hfill⟩, -, hwork⟩ :=
    fill_adjust_never_runs .ask 7 order (by decide) (by decide) (by decide)
  refine ⟨hwork, inv, hinv, ?_⟩
  intro cap hcap
  obtain ⟨cost, hmul, -, hcounted, -⟩ := hfill cap hcap
  exact ⟨cost, hmul, hcounted⟩

end Cl8yDex
