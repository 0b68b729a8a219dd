import Cl8yDex.FillCapacity
import Cl8yDex.MatchAccounts

/-!
# Price-time priority of a match

A walk takes the orders as they are queued and looks at each one once. An order that it leaves in
the book with something to give was filled as far as the truncated reciprocal of its price allows at
that moment, or was passed over because a product or a rate could not be formed.
-/

namespace Cl8yDex

open Outcome DoublyLinked

/-- A walk may fill the order: its own side, not expired, its owner not blacklisted, fillable. -/
structure WalkParams.Eligible (w : WalkParams) (o : OrderTerms) : Prop where
  side : o.side = w.side
  live : isTimeExpired o.expiresAt w.now = false
  allowed : makerOwnerIsTradeBlacklisted w.gate o.owner = .ok false
  fillable : isLimitOrderFillable o.side o.remaining o.price = true

/-- What the fill arithmetic and the greedy test make of an eligible order. -/
def WalkParams.verdict (w : WalkParams) (o : OrderTerms) : Option (ℕ × ℕ) → Visit
  | none => .skip
  | some (offer, taken) => w.admitFill o.price offer taken

section Verdicts

variable {w : WalkParams} {o : OrderTerms} {left offer taken : ℕ} {v : Visit}

theorem visitOrder_eligible (h : w.Eligible o) (hleft : left ≠ 0) :
    visitOrder w left o = (planFill w.side left o).map (w.verdict o) := by
  unfold visitOrder
  rw [if_neg (not_not.2 h.side), if_neg (by simp [h.live]), h.allowed, ok_bind]
  simp only [Bool.false_eq_true, if_false, h.fillable, not_true, hleft]
  cases planFill w.side left o with
  | error e => rfl
  | ok plan =>
      cases plan with
      | none => rfl
      | some p => rfl

/-- Only an eligible order, met with something to spend, is filled. -/
theorem eligible_of_fill (h : visitOrder w left o = .ok (.fill offer taken)) :
    w.Eligible o ∧ left ≠ 0 := by
  unfold visitOrder at h
  by_cases hside : o.side = w.side
  · rw [if_neg (not_not.2 hside)] at h
    by_cases hexp : isTimeExpired o.expiresAt w.now = true
    · rw [if_pos hexp] at h
      cases h
    · rw [if_neg hexp] at h
      obtain ⟨black, hblack, h⟩ := bind_eq_ok.1 h
      cases black with
      | true => cases h
      | false =>
          simp only [Bool.false_eq_true, if_false] at h
          by_cases hfill : isLimitOrderFillable o.side o.remaining o.price = true
          · rw [if_neg (not_not.2 hfill)] at h
            by_cases hleft : left = 0
            · rw [if_pos hleft] at h
              cases h
            · exact ⟨⟨hside, by simpa using hexp, hblack, hfill⟩, hleft⟩
          · rw [if_pos hfill] at h
            cases h
  · rw [if_pos hside] at h
    cases h

theorem admitFill_eq_fill {price : Decimal} {a b : ℕ}
    (h : w.admitFill price a b = .fill offer taken) : a = offer ∧ b = taken := by
  unfold WalkParams.admitFill at h
  cases hpool : w.greedyPool with
  | none =>
      rw [hpool] at h
      cases h
      exact ⟨rfl, rfl⟩
  | some pool =>
      simp only [hpool] at h
      cases hbeats : beatsResidualPool w.side price w.takerBps pool with
      | yes =>
          rw [hbeats] at h
          cases h
          exact ⟨rfl, rfl⟩
      | no =>
          rw [hbeats] at h
          cases h
      | skip =>
          rw [hbeats] at h
          cases h

theorem compareRate_eq_skip {maker : Option Decimal} {pool : GreedyPoolRef} :
    compareRate maker pool = .skip ↔ maker = none ∨ poolSpotNet pool = none := by
  unfold compareRate
  cases maker with
  | none => simp
  | some m =>
      cases poolSpotNet pool with
      | none => simp
      | some spot =>
          simp only [reduceCtorEq, or_self, iff_false]
          split_ifs <;> exact nofun

theorem feeKeep_le (bps : ℕ) : (feeKeep bps).atomics ≤ Decimal.fractional := by
  apply Nat.div_le_of_le_mul
  exact Nat.mul_le_mul_right _ (Nat.sub_le _ _)

/-- A rate of at most `10^36` atomics stays representable after the fee. -/
theorem checkedMul_feeKeep {rate : Decimal}
    (h : rate.atomics ≤ Decimal.fractional * Decimal.fractional) (bps : ℕ) :
    ∃ net, rate.checkedMul (feeKeep bps) = some net := by
  have hle : rate.atomics * (feeKeep bps).atomics / Decimal.fractional ≤ rate.atomics := by
    apply Nat.div_le_of_le_mul
    rw [Nat.mul_comm Decimal.fractional]
    exact Nat.mul_le_mul_left _ (feeKeep_le bps)
  exact ⟨⟨_⟩, Decimal.checkedMul_eq_some.2 ⟨(hle.trans h).trans (by decide), rfl⟩⟩

theorem bidMakerNet_eq {price : Decimal} (hp : price.isZero = false) (bps : ℕ) :
    bidMakerNet price bps = price.checkedMul (feeKeep bps) := by
  unfold bidMakerNet
  rw [hp]
  exact if_neg Bool.false_ne_true

theorem askMakerNet_eq {price : Decimal} (hp : price.isZero = false) (bps : ℕ) :
    askMakerNet price bps = Decimal.checkedMul
      ⟨Reciprocal.inverse Decimal.fractional price.atomics⟩ (feeKeep bps) := by
  unfold askMakerNet
  rw [hp, if_neg Bool.false_ne_true, tryPriceInverse_eq hp, Option.bind_eq_bind, Option.bind_some]

/-- The rate of a fillable order can always be formed, so only the pool's can be missing. -/
theorem beats_eq_skip {side s : LimitOrderSide} {price : Decimal} {remaining bps : ℕ}
    {pool : GreedyPoolRef} (h : isLimitOrderFillable s remaining price = true) :
    beatsResidualPool side price bps pool = .skip ↔ poolSpotNet pool = none := by
  obtain ⟨-, hp, hinv, -⟩ := isLimitOrderFillable_iff.1 h
  cases side with
  | bid =>
      obtain ⟨net, hnet⟩ := checkedMul_feeKeep (Reciprocal.le_of_inverse_ne_zero hinv) bps
      have hrate : bidMakerNet price bps = some net := (bidMakerNet_eq hp bps).trans hnet
      change compareRate (bidMakerNet price bps) pool = .skip ↔ _
      rw [compareRate_eq_skip, hrate]
      simp
  | ask =>
      let rate : Decimal := ⟨Reciprocal.inverse Decimal.fractional price.atomics⟩
      have hle : rate.atomics ≤ Decimal.fractional ^ 2 := Reciprocal.inverse_le
      obtain ⟨net, hnet⟩ := checkedMul_feeKeep hle bps
      have hrate : askMakerNet price bps = some net := (askMakerNet_eq hp bps).trans hnet
      change compareRate (askMakerNet price bps) pool = .skip ↔ _
      rw [compareRate_eq_skip, hrate]
      simp

/-- In a greedy walk a fill beats the pool, whose rate is then known. -/
theorem poolSpotNet_of_fill (h : visitOrder w left o = .ok (.fill offer taken))
    {pool : GreedyPoolRef} (hpool : w.greedyPool = some pool) : poolSpotNet pool ≠ none := by
  obtain ⟨helig, hleft⟩ := eligible_of_fill h
  rw [visitOrder_eligible helig hleft] at h
  cases hplan : planFill w.side left o with
  | error e =>
      rw [hplan] at h
      cases h
  | ok plan =>
      rw [hplan] at h
      have h := Except.ok.inj h
      cases plan with
      | none => cases h
      | some p =>
          intro hnone
          change w.admitFill o.price p.1 p.2 = _ at h
          simp only [WalkParams.admitFill, hpool, (beats_eq_skip helig.fillable).2 hnone] at h
          cases h

theorem planFill_of_fill (h : visitOrder w left o = .ok (.fill offer taken)) :
    planFill w.side left o = .ok (some (offer, taken)) := by
  obtain ⟨helig, hleft⟩ := eligible_of_fill h
  rw [visitOrder_eligible helig hleft] at h
  cases hplan : planFill w.side left o with
  | error e =>
      rw [hplan] at h
      cases h
  | ok plan =>
      rw [hplan] at h
      have h := Except.ok.inj h
      cases plan with
      | none => cases h
      | some p =>
          obtain ⟨h1, h2⟩ := admitFill_eq_fill (a := p.1) (b := p.2) h
          rw [← h1, ← h2]

/-- An eligible order is set aside without a plan for a fill or without a comparable rate. -/
theorem plan_of_setsAside (helig : w.Eligible o) (hleft : left ≠ 0)
    (h : visitOrder w left o = .ok v) (haside : v.SetsAside) :
    planFill w.side left o = .ok none ∨ ∃ pool, w.greedyPool = some pool ∧
      beatsResidualPool w.side o.price w.takerBps pool = .skip := by
  rw [visitOrder_eligible helig hleft] at h
  cases hplan : planFill w.side left o with
  | error e =>
      rw [hplan] at h
      cases h
  | ok plan =>
      rw [hplan] at h
      have h := Except.ok.inj h
      cases plan with
      | none => exact .inl rfl
      | some p =>
          right
          change w.admitFill o.price p.1 p.2 = v at h
          unfold WalkParams.admitFill at h
          cases hpool : w.greedyPool with
          | none =>
              rw [hpool] at h
              subst h
              exact False.elim haside
          | some pool =>
              simp only [hpool] at h
              refine ⟨pool, rfl, ?_⟩
              cases hbeats : beatsResidualPool w.side o.price w.takerBps pool with
              | skip => rfl
              | no =>
                  rw [hbeats] at h
                  subst h
                  exact False.elim haside
              | yes =>
                  rw [hbeats] at h
                  subst h
                  exact False.elim haside

/-- The parts of the fillability test that the fill arithmetic needs. -/
theorem WalkParams.Eligible.capacity (h : w.Eligible o) : o.price.isZero = false ∧
    (w.side = .bid → o.price.buys o.remaining ≤ u128Max ∧
      o.price.costs (o.price.buys o.remaining) ≤ u128Max ∧
      o.price.costs (o.price.buys o.remaining) ≠ 0) := by
  obtain ⟨-, hp, -, hside⟩ := isLimitOrderFillable_iff.1 h.fillable
  refine ⟨hp, fun hbid => ?_⟩
  rw [h.side, hbid] at hside
  exact hside

/-- An order that could not be filled at one budget cannot be filled at a smaller one, unless the
product with the reciprocal overflowed. -/
theorem planFill_none_mono (h : w.Eligible o) {left' : ℕ} (hle : left' ≤ left)
    (hleft : left ≤ u128Max) (hnone : planFill w.side left o = .ok none) :
    planFill w.side left' o = .ok none ∨
      w.side = .ask ∧ token0Capacity left o.price = none := by
  obtain ⟨hp, hbid⟩ := h.capacity
  cases hside : w.side with
  | bid =>
      obtain ⟨hcap, hfits, -⟩ := hbid hside
      rw [hside] at hnone
      simp only [planFill, bidFill_eq hp hcap hfits] at hnone ⊢
      have hmono : o.price.costs (min left' (o.price.buys o.remaining)) ≤
          o.price.costs (min left (o.price.buys o.remaining)) :=
        Decimal.costs_mono (min_le_min_right _ hle)
      split_ifs at hnone with hzero
      · rw [hzero, Nat.le_zero] at hmono
        rw [if_pos hmono]
        exact .inl rfl
      · cases hnone
  | ask =>
      rw [hside] at hnone
      by_cases hbuys : o.price.buys left ≤ u128Max
      · have hbuys' : o.price.buys left' ≤ o.price.buys left := Decimal.buys_mono hle
        simp only [planFill, askFill_eq hp hbuys hleft] at hnone
        simp only [planFill, askFill_eq hp (hbuys'.trans hbuys) (hle.trans hleft)]
        have hmono : o.price.costs (min o.remaining (o.price.buys left')) ≤
            o.price.costs (min o.remaining (o.price.buys left)) :=
          Decimal.costs_mono (min_le_min_left _ hbuys')
        split_ifs at hnone with hzero
        · rw [hzero, Nat.le_zero] at hmono
          rw [if_pos hmono]
          exact .inl rfl
        · cases hnone
      · exact .inr ⟨rfl, (token0Capacity_eq_none hp).2 (not_le.1 hbuys)⟩

/-- A fill takes the whole budget or the bid's capacity; an ask gives all it has or all that the
budget buys. -/
theorem fill_is_maximal (hleft : left ≤ u128Max)
    (h : visitOrder w left o = .ok (.fill offer taken)) :
    w.side = .bid ∧ (offer = left ∨ token0Capacity o.remaining o.price = some offer) ∨
      w.side = .ask ∧ (taken = o.remaining ∨ token0Capacity left o.price = some taken) := by
  obtain ⟨helig, hpos⟩ := eligible_of_fill h
  have hplan := planFill_of_fill h
  obtain ⟨hp, hbid⟩ := helig.capacity
  cases hside : w.side with
  | bid =>
      obtain ⟨hcap, hfits, -⟩ := hbid hside
      rw [hside] at hplan
      simp only [planFill, bidFill_eq hp hcap hfits] at hplan
      refine .inl ⟨rfl, ?_⟩
      split_ifs at hplan with hzero
      · cases hplan
      · cases hplan
        rcases min_choice left (o.price.buys o.remaining) with hmin | hmin
        · exact .inl hmin
        · rw [hmin]
          exact .inr ((token0Capacity_eq_some hp).2 ⟨hcap, rfl⟩)
  | ask =>
      rw [hside] at hplan
      refine .inr ⟨rfl, ?_⟩
      by_cases hbuys : o.price.buys left ≤ u128Max
      · simp only [planFill, askFill_eq hp hbuys hleft] at hplan
        split_ifs at hplan with hzero
        · cases hplan
        · cases hplan
          rcases min_choice o.remaining (o.price.buys left) with hmin | hmin
          · exact .inl hmin
          · rw [hmin]
            exact .inr ((token0Capacity_eq_some hp).2 ⟨hbuys, rfl⟩)
      · simp only [planFill, askFill_overflow hp (not_le.1 hbuys)] at hplan
        cases hplan

end Verdicts

end Cl8yDex
