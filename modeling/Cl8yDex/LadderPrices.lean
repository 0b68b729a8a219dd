import Cl8yDex.PlacementRules
import Mathlib.Algebra.BigOperators.Group.List.Basic
import Mathlib.Data.List.Range

/-!
# The prices and amounts of a ladder

The rungs step from the start price by a truncated share of the span and end exactly at the end
price. The truncated steps never reach the end price before the last rung, so every rung lies in the
band of the two ends.
-/

namespace Cl8yDex

open Outcome

variable {a b n i j : ℕ} {price start stop : Decimal} {decimals0 decimals1 : ℕ}

theorem mapM_eq_ok_map {ε α β : Type} {f : α → Except ε β} {g : α → β} {l : List α}
    (h : ∀ x ∈ l, f x = .ok (g x)) : l.mapM f = .ok (l.map g) := by
  induction l with
  | nil => rfl
  | cons x l ih =>
      rw [List.mapM_cons, h x (List.mem_cons_self ..), ok_bind,
        ih fun y hy => h y (List.mem_cons_of_mem _ hy), ok_bind]
      rfl

/-- The step of a ladder from `a` to `b` in `n` rungs, in atomics. -/
def ladderStep (a b n : ℕ) : ℕ := (if b < a then a - b else b - a) / (n - 1)

/-- The price of a rung, in atomics. -/
def rungAtomics (a b n i : ℕ) : ℕ :=
  if i = n - 1 then b
  else if b < a then a - ladderStep a b n * i
  else a + ladderStep a b n * i

theorem ladderStep_mul_le (hi : i ≤ n - 1) :
    ladderStep a b n * i ≤ if b < a then a - b else b - a :=
  (Nat.mul_le_mul_left _ hi).trans (Nat.div_mul_le_self _ _)

/-- Before the last rung a truncated step stays strictly short of a positive span. -/
theorem ladderStep_mul_lt (hi : i < n - 1) (hab : a ≠ b) :
    ladderStep a b n * i < if b < a then a - b else b - a := by
  have hspan : 0 < if b < a then a - b else b - a := by
    split_ifs <;> omega
  rcases Nat.eq_zero_or_pos (ladderStep a b n) with hzero | hpos
  · rw [hzero, Nat.zero_mul]
    exact hspan
  · exact (Nat.mul_lt_mul_of_pos_left hi hpos).trans_le (ladderStep_mul_le le_rfl)

theorem rungAtomics_zero (hn : 2 ≤ n) : rungAtomics a b n 0 = a := by
  unfold rungAtomics
  rw [if_neg (by omega), Nat.mul_zero, Nat.sub_zero, Nat.add_zero, ite_self]

theorem rungAtomics_last : rungAtomics a b n (n - 1) = b := if_pos rfl

theorem rungAtomics_mono (hab : a ≤ b) (hij : i ≤ j) (hj : j ≤ n - 1) :
    rungAtomics a b n i ≤ rungAtomics a b n j := by
  have hstep := ladderStep_mul_le (a := a) (b := b) (hij.trans hj)
  have hmul := Nat.mul_le_mul_left (ladderStep a b n) hij
  rw [if_neg (not_lt.2 hab)] at hstep
  unfold rungAtomics
  rw [if_neg (not_lt.2 hab), if_neg (not_lt.2 hab)]
  split_ifs <;> omega

theorem rungAtomics_anti (hba : b ≤ a) (hij : i ≤ j) (hj : j ≤ n - 1) :
    rungAtomics a b n j ≤ rungAtomics a b n i := by
  rcases hba.lt_or_eq with hlt | rfl
  · have hstep := ladderStep_mul_le (a := a) (b := b) (hij.trans hj)
    have hmul := Nat.mul_le_mul_left (ladderStep a b n) hij
    rw [if_pos hlt] at hstep
    unfold rungAtomics
    rw [if_pos hlt, if_pos hlt]
    split_ifs <;> omega
  · have hzero : ladderStep b b n = 0 := by
      unfold ladderStep
      rw [ite_self, Nat.sub_self, Nat.zero_div]
    unfold rungAtomics
    rw [hzero, Nat.zero_mul, Nat.zero_mul]
    split_ifs <;> omega

theorem rungAtomics_ne_last (hab : a ≠ b) (hi : i < n - 1) : rungAtomics a b n i ≠ b := by
  have hlt := ladderStep_mul_lt hi hab
  unfold rungAtomics
  rw [if_neg hi.ne]
  split_ifs at hlt ⊢ <;> omega

def rungPrice (start stop : Decimal) (n i : ℕ) : Decimal :=
  ⟨rungAtomics start.atomics stop.atomics n i⟩

theorem Decimal.checkedDiv_mul_fractional (hn : n ≠ 0) (ha : a ≤ u128Max) :
    (Decimal.mk a).checkedDiv ⟨n * Decimal.fractional⟩ = some ⟨a / n⟩ := by
  have hne : n * Decimal.fractional ≠ 0 := Nat.mul_ne_zero hn Decimal.fractional_pos.ne'
  have hdiv : a * Decimal.fractional / (n * Decimal.fractional) = a / n :=
    Nat.mul_div_mul_right _ _ Decimal.fractional_pos
  exact Decimal.checkedFromRatio_eq_some.2
    ⟨hne, hdiv.le.trans ((Nat.div_le_self a n).trans ha), hdiv.symm⟩

theorem Decimal.checkedMul_mul_fractional (h : a * n ≤ u128Max) :
    (Decimal.mk a).checkedMul ⟨n * Decimal.fractional⟩ = some ⟨a * n⟩ := by
  have hmul : a * (n * Decimal.fractional) / Decimal.fractional = a * n := by
    rw [← Nat.mul_assoc, Nat.mul_div_cancel _ Decimal.fractional_pos]
  exact Decimal.checkedMul_eq_some.2 ⟨hmul.le.trans h, hmul.symm⟩

theorem ladderPrice_eq (hstart : start.atomics ≤ u128Max) (hstop : stop.atomics ≤ u128Max)
    (hn : 2 ≤ n) (hi : i < n) :
    ladderPrice start stop ⟨ladderStep start.atomics stop.atomics n⟩ n i =
      .ok (rungPrice start stop n i) := by
  unfold ladderPrice rungPrice
  by_cases hzero : i = 0
  · rw [if_pos hzero, hzero, rungAtomics_zero hn]
  rw [if_neg hzero]
  by_cases hlast : i = n - 1
  · rw [if_pos hlast, hlast, rungAtomics_last]
  have hle := ladderStep_mul_le (a := start.atomics) (b := stop.atomics) (n := n) (i := i)
    (by omega)
  have hfits : ladderStep start.atomics stop.atomics n * i ≤ u128Max := by
    split_ifs at hle <;> omega
  rw [if_neg hlast, Decimal.checkedMul_mul_fractional hfits, orThrow_some, ok_bind]
  unfold rungAtomics
  rw [if_neg hlast]
  by_cases hdescending : stop < start
  · have hlt : stop.atomics < start.atomics := hdescending
    rw [if_pos hlt] at hle
    have hsub : start.checkedSub ⟨ladderStep start.atomics stop.atomics n * i⟩ =
        some ⟨start.atomics - ladderStep start.atomics stop.atomics n * i⟩ := by
      unfold Decimal.checkedSub
      rw [checkedSub_eq_some.2 ⟨hle.trans (Nat.sub_le _ _), rfl⟩]
      rfl
    rw [if_pos hdescending, if_pos hlt, hsub, orThrow_some]
  · have hge : ¬ stop.atomics < start.atomics := hdescending
    rw [if_neg hge] at hle
    have hsum : start.atomics + ladderStep start.atomics stop.atomics n * i ≤ u128Max := by omega
    have hadd : start.checkedAdd ⟨ladderStep start.atomics stop.atomics n * i⟩ =
        some ⟨start.atomics + ladderStep start.atomics stop.atomics n * i⟩ := by
      unfold Decimal.checkedAdd
      rw [checkedAdd_eq_some.2 ⟨hsum, rfl⟩]
      rfl
    rw [if_neg hdescending, if_neg hge, hadd, orThrow_some]

/-- The price computation of a ladder does not fail. -/
theorem ladderPrices_eq (hstart : start.atomics ≤ u128Max) (hstop : stop.atomics ≤ u128Max)
    (hn : 2 ≤ n) :
    ladderPrices start stop n = .ok ((List.range n).map (rungPrice start stop n)) := by
  have hspan : (if stop < start then start.checkedSub stop else stop.checkedSub start) =
      some ⟨if stop.atomics < start.atomics then start.atomics - stop.atomics
        else stop.atomics - start.atomics⟩ := by
    by_cases hdescending : stop < start
    · have hlt : stop.atomics < start.atomics := hdescending
      unfold Decimal.checkedSub
      rw [if_pos hdescending, if_pos hlt, checkedSub_eq_some.2 ⟨hlt.le, rfl⟩]
      rfl
    · have hge : ¬ stop.atomics < start.atomics := hdescending
      unfold Decimal.checkedSub
      rw [if_neg hdescending, if_neg hge, checkedSub_eq_some.2 ⟨not_lt.1 hge, rfl⟩]
      rfl
  have hfits : (if stop.atomics < start.atomics then start.atomics - stop.atomics
      else stop.atomics - start.atomics) ≤ u128Max := by
    split_ifs <;> omega
  have hone : n - 1 ≠ 0 := by omega
  unfold ladderPrices
  rw [if_neg (by omega), hspan, orThrow_some, ok_bind, Decimal.checkedDiv_mul_fractional hone hfits,
    orThrow_some, ok_bind]
  apply mapM_eq_ok_map
  intro i hi
  exact ladderPrice_eq hstart hstop hn (List.mem_range.1 hi)

section Gate

/-- The price gate on the human scale. -/
def InBand (human : Decimal) : Prop :=
  ¬ human.isZero ∧ ¬ human < minLimitPrice ∧ ¬ maxLimitPrice < human

theorem validateLimitOrderPrice_eq_ok :
    validateLimitOrderPrice price decimals0 decimals1 = .ok () ↔
      ¬ price.isZero ∧ ∃ human, humanScaleLimitPrice price decimals0 decimals1 = .ok human ∧
        InBand human := by
  unfold validateLimitOrderPrice
  constructor
  · intro h
    obtain ⟨_, hpos, h⟩ := bind_eq_ok.1 h
    obtain ⟨human, hhuman, h⟩ := bind_eq_ok.1 h
    obtain ⟨_, hzero, h⟩ := bind_eq_ok.1 h
    obtain ⟨_, hmin, hmax⟩ := bind_eq_ok.1 h
    exact ⟨ensure_eq_ok.1 hpos, human, hhuman, ensure_eq_ok.1 hzero, ensure_eq_ok.1 hmin,
      ensure_eq_ok.1 hmax⟩
  · rintro ⟨hpos, human, hhuman, hzero, hmin, hmax⟩
    rw [ensure_pos hpos, ok_bind, hhuman, ok_bind, ensure_pos hzero, ok_bind, ensure_pos hmin,
      ok_bind]
    exact ensure_pos hmax

/-- The human scale keeps the order, so a price between two scaled prices can be scaled. -/
theorem humanScale_between {low high humanLow humanHigh : Decimal}
    (hlow : humanScaleLimitPrice low decimals0 decimals1 = .ok humanLow)
    (hhigh : humanScaleLimitPrice high decimals0 decimals1 = .ok humanHigh)
    (h1 : low ≤ price) (h2 : price ≤ high) :
    ∃ human, humanScaleLimitPrice price decimals0 decimals1 = .ok human ∧ humanLow ≤ human ∧
      human ≤ humanHigh := by
  have h1' : low.atomics ≤ price.atomics := h1
  have h2' : price.atomics ≤ high.atomics := h2
  unfold humanScaleLimitPrice at *
  split_ifs at * with hcap heq hlt
  · cases hlow
    cases hhigh
    exact ⟨price, rfl, h1, h2⟩
  · obtain ⟨-, hvalLow⟩ := Decimal.checkedMul_eq_some.1 (orThrow_eq_ok.1 hlow)
    obtain ⟨hfits, hvalHigh⟩ := Decimal.checkedMul_eq_some.1 (orThrow_eq_ok.1 hhigh)
    have hle := Nat.div_le_div_right (c := Decimal.fractional)
      (Nat.mul_le_mul_right (10 ^ (decimals0 - decimals1) * Decimal.fractional) h2')
    have hge := Nat.div_le_div_right (c := Decimal.fractional)
      (Nat.mul_le_mul_right (10 ^ (decimals0 - decimals1) * Decimal.fractional) h1')
    refine ⟨⟨_⟩, orThrow_eq_ok.2 (Decimal.checkedMul_eq_some.2 ⟨hle.trans hfits, rfl⟩), ?_, ?_⟩
    · exact hvalLow.le.trans hge
    · exact hle.trans hvalHigh.ge
  · obtain ⟨hne, -, hvalLow⟩ := Decimal.checkedFromRatio_eq_some.1 (orThrow_eq_ok.1 hlow)
    obtain ⟨-, hfits, hvalHigh⟩ := Decimal.checkedFromRatio_eq_some.1 (orThrow_eq_ok.1 hhigh)
    have hle := Nat.div_le_div_right (c := 10 ^ (decimals1 - decimals0) * Decimal.fractional)
      (Nat.mul_le_mul_right Decimal.fractional h2')
    have hge := Nat.div_le_div_right (c := 10 ^ (decimals1 - decimals0) * Decimal.fractional)
      (Nat.mul_le_mul_right Decimal.fractional h1')
    refine ⟨⟨_⟩, orThrow_eq_ok.2
      (Decimal.checkedFromRatio_eq_some.2 ⟨hne, hle.trans hfits, rfl⟩), ?_, ?_⟩
    · exact hvalLow.le.trans hge
    · exact hle.trans hvalHigh.ge

theorem validate_between {low high : Decimal}
    (hlow : validateLimitOrderPrice low decimals0 decimals1 = .ok ())
    (hhigh : validateLimitOrderPrice high decimals0 decimals1 = .ok ()) (h1 : low ≤ price)
    (h2 : price ≤ high) : validateLimitOrderPrice price decimals0 decimals1 = .ok () := by
  obtain ⟨hpos, humanLow, hscaleLow, hzero, hmin, -⟩ := validateLimitOrderPrice_eq_ok.1 hlow
  obtain ⟨-, humanHigh, hscaleHigh, -, -, hmax⟩ := validateLimitOrderPrice_eq_ok.1 hhigh
  obtain ⟨human, hscale, hge, hle⟩ := humanScale_between hscaleLow hscaleHigh h1 h2
  have hpos' : ∀ {d e : Decimal}, ¬ d.isZero → d ≤ e → ¬ e.isZero := by
    intro d e hd hde he
    have hezero : e.atomics = 0 := of_decide_eq_true he
    have hdzero : d.atomics = 0 := Nat.le_zero.1 (hezero ▸ (hde : d.atomics ≤ e.atomics))
    exact hd (decide_eq_true hdzero)
  refine validateLimitOrderPrice_eq_ok.2 ⟨hpos' hpos h1, human, hscale, hpos' hzero hge, ?_, ?_⟩
  · exact fun hlt => hmin (lt_of_le_of_lt hge hlt)
  · exact fun hlt => hmax (lt_of_lt_of_le hlt hle)

end Gate

section Amounts

variable {total : ℕ}

theorem ladderAmountsEqual_length : (ladderAmountsEqual total n).length = n := by
  unfold ladderAmountsEqual
  rw [List.length_map, List.length_range]

theorem ladderAmountsEqual_succ :
    ladderAmountsEqual total (n + 1) =
      List.replicate n (total / (n + 1)) ++ [total / (n + 1) + total % (n + 1)] := by
  unfold ladderAmountsEqual
  rw [List.range_succ, List.map_append, List.map_singleton, Nat.add_sub_cancel, if_pos rfl]
  congr 1
  apply List.ext_getElem
  · rw [List.length_map, List.length_range, List.length_replicate]
  · intro i h1 _
    rw [List.length_map, List.length_range] at h1
    rw [List.getElem_map, List.getElem_range, List.getElem_replicate, if_neg h1.ne]

/-- The shares and the remainder of the last rung make up the total. -/
theorem ladderAmountsEqual_sum (hn : n ≠ 0) : (ladderAmountsEqual total n).sum = total := by
  obtain ⟨m, rfl⟩ := Nat.exists_eq_succ_of_ne_zero hn
  have hdiv := Nat.div_add_mod total (m + 1)
  rw [Nat.succ_eq_add_one, ladderAmountsEqual_succ, List.sum_append, List.sum_replicate_nat,
    List.sum_singleton]
  rw [Nat.add_mul, Nat.one_mul] at hdiv
  omega

end Amounts

end Cl8yDex
