import Cl8yDex.OracleRing

/-!
# Reading the observation ring

The binary search finds the observation in force at a target, as long as every ring position it
computes fits sixteen bits. When the last position does not, the search aborts for the targets
between the two newest observations.
-/

namespace Cl8yDex

open Outcome RingBuffer

namespace Oracle

variable {o : Oracle} {l : List Observation} {target lo hi k : ℕ} {latest : Observation}

/-- Every ring position fits the sixteen bits it is computed in. -/
def Addressable (o : Oracle) : Prop :=
  oldestSlot o.state + (o.state.cardinalityInitialized - 1) ≤ u16Max

theorem ringIdx_eq (s : OracleState) {oldest : ℕ} (h : oldest + k ≤ u16Max) :
    ringIdx s oldest k = .ok ((oldest + k) % s.cardinality) := by
  simp only [ringIdx, addU16, if_pos h]
  rfl

theorem ringIdx_abort (s : OracleState) {oldest : ℕ} (h : u16Max < oldest + k) :
    ringIdx s oldest k = .error (.abort .ringIndex) := by
  simp only [ringIdx, addU16, if_neg (not_le.2 h)]
  rfl

theorem Retains.load (h : o.Retains l) (hk : k < l.length) :
    o.load ((oldestSlot o.state + k) % o.state.cardinality) = .ok l[k] := by
  rw [Oracle.load, h.holds.get hk]
  rfl

/-- The offset of the last observation that is not newer than the target. -/
structure Brackets (l : List Observation) (target k : ℕ) : Prop where
  lt : k < l.length
  before : l[k].timestamp ≤ target
  after : ∀ j (hj : j < l.length), k < j → target < l[j].timestamp

theorem search_spec (h : o.Retains l) (hfit : o.Addressable) (hlo : lo ≤ hi)
    (hhi : hi < l.length) (hbefore : l[lo].timestamp ≤ target)
    (hafter : ∀ j (hj : j < l.length), hi < j → target < l[j].timestamp) :
    ∃ k, o.search target (oldestSlot o.state) lo hi = .ok k ∧ Brackets l target k := by
  rw [Addressable, ← h.length] at hfit
  induction hd : hi - lo using Nat.strong_induction_on generalizing lo hi with
  | _ d ih =>
      rw [Oracle.search]
      by_cases hlt : lo < hi
      · rw [if_pos hlt]
        set mid := lo + (hi - lo + 1) / 2 with hmid
        have hmhi : mid ≤ hi := by omega
        have hlom : lo < mid := by omega
        have hml : mid < l.length := by omega
        simp only [ringIdx_eq o.state (show oldestSlot o.state + mid ≤ u16Max by omega), ok_bind,
          h.load hml]
        by_cases ht : l[mid].timestamp ≤ target
        · rw [if_pos ht]
          exact ih (hi - mid) (by omega) hmhi hhi ht hafter rfl
        · rw [if_neg ht]
          refine ih (mid - 1 - lo) (by omega) (by omega) (by omega) hbefore (fun j hj hjm => ?_) rfl
          have hsorted := List.pairwise_iff_getElem.1 h.sorted
          rcases (show mid = j ∨ mid < j by omega) with rfl | hmj
          · exact not_le.1 ht
          · exact (not_le.1 ht).trans (hsorted mid j hml hj hmj).1
      · rw [if_neg hlt]
        exact ⟨lo, rfl, by omega, hbefore, fun j hj hlj => hafter j hj (by omega)⟩

variable (target) in
/-- With a position out of range, a target between the two newest observations aborts. -/
theorem search_abort (h : o.Retains l) (hfit : ¬o.Addressable) (hlo : lo + 1 < l.length)
    (hbefore : ∀ j (hj : j < l.length), j + 1 < l.length → l[j].timestamp ≤ target) :
    o.search target (oldestSlot o.state) lo (l.length - 1) = .error (.abort .ringIndex) := by
  rw [Addressable, ← h.length] at hfit
  induction hd : l.length - lo using Nat.strong_induction_on generalizing lo with
  | _ d ih =>
      rw [Oracle.search, if_pos (by omega)]
      set mid := lo + (l.length - 1 - lo + 1) / 2 with hmid
      by_cases hover : u16Max < oldestSlot o.state + mid
      · simp only [ringIdx_abort o.state hover]
        rfl
      · have hml : mid + 1 < l.length := by omega
        simp only [ringIdx_eq o.state (not_lt.1 hover), ok_bind,
          h.load (show mid < l.length by omega), if_pos (hbefore mid (by omega) hml)]
        exact ih (l.length - mid) (by omega) hml rfl

/-- The answer for one horizon when both observations are found. -/
def blend (before after : Observation) (target : ℕ) : ℕ × ℕ :=
  let dt := target - before.timestamp
  let span := after.timestamp - before.timestamp
  (before.priceACumulative + (after.priceACumulative - before.priceACumulative) * dt / span,
    before.priceBCumulative + (after.priceBCumulative - before.priceBCumulative) * dt / span)

theorem interpolateOne_eq {label : String} {c d dt span : ℕ} (hcd : c ≤ d) (hspan : 0 < span)
    (hdt : dt ≤ span) (hd : d ≤ u256Max) :
    interpolateOne label c d dt span = .ok (c + (d - c) * dt / span) := by
  have hle : (d - c) * dt / span ≤ d - c := by
    refine Nat.div_le_of_le_mul ?_
    rw [Nat.mul_comm span]
    exact Nat.mul_le_mul_left _ hdt
  have h1 : (d - c) * dt / span ≤ u256Max := by omega
  have h2 : c + (d - c) * dt / span ≤ u256Max := by omega
  simp only [interpolateOne, if_pos hcd, checkedMultiplyRatio256, if_neg hspan.ne', if_pos h1,
    checkedAdd256, if_pos h2, orThrow, ok_bind]

theorem interpolate_eq {before after : Observation} (hpre : before.Precedes after)
    (hlo : before.timestamp ≤ target) (hhi : target ≤ after.timestamp)
    (hbound : after.priceACumulative ≤ u256Max ∧ after.priceBCumulative ≤ u256Max) :
    interpolate before after target = .ok (blend before after target) := by
  obtain ⟨hts, ha, hb⟩ := hpre
  have hspan : 0 < after.timestamp - before.timestamp := by omega
  have hdt : target - before.timestamp ≤ after.timestamp - before.timestamp := by omega
  simp only [interpolate, ensure, if_pos hspan.ne', ok_bind,
    interpolateOne_eq ha hspan hdt hbound.1, interpolateOne_eq hb hspan hdt hbound.2]
  rfl

/-- The answer for a target older than the newest observation. -/
theorem observeWindow_eq (latest : Observation) (h : o.Retains l) (hfit : o.Addressable)
    (hne : l ≠ [])
    (blockTime secondsAgo : ℕ) (hold : (l.head hne).timestamp ≤ target)
    (hnew : target < (l.getLast hne).timestamp) (hmax : (l.getLast hne).timestamp ≤ u64Max) :
    ∃ k, ∃ hk : k + 1 < l.length, l[k].timestamp ≤ target ∧ target < l[k + 1].timestamp ∧
      o.observeWindow blockTime secondsAgo target latest = .ok (blend l[k] l[k + 1] target) := by
  have hpos : 0 < l.length := List.length_pos_of_ne_nil hne
  have hhead : l.head hne = l[0] := List.head_eq_getElem hne
  have hlast : l.getLast hne = l[l.length - 1] := List.getLast_eq_getElem hne
  have hlen2 : 2 ≤ l.length := by
    by_contra hlt
    have h1 : l.length - 1 = 0 := by omega
    simp only [hlast, h1] at hnew
    rw [hhead] at hold
    omega
  obtain ⟨k, hsearch, hlt, hbefore, hafter⟩ := search_spec h hfit (Nat.zero_le (l.length - 1))
    (by omega) (show l[0].timestamp ≤ target from hhead ▸ hold) (fun j hj hjn => by omega)
  have hk : k + 1 < l.length := by
    by_contra hend
    have hkl : k = l.length - 1 := by omega
    subst hkl
    rw [hlast] at hnew
    omega
  have hnext := hafter (k + 1) hk (Nat.lt_succ_self k)
  refine ⟨k, hk, hbefore, hnext, ?_⟩
  have hfit' := hfit
  rw [Addressable, ← h.length] at hfit'
  have hsorted := List.pairwise_iff_getElem.1 h.sorted
  have hbound : l[k + 1].priceACumulative ≤ u256Max ∧ l[k + 1].priceBCumulative ≤ u256Max := by
    have hb := h.bounded _ (List.getElem_mem hk)
    have hts : l[k + 1].timestamp ≤ u64Max := by
      rcases (show k + 1 = l.length - 1 ∨ k + 1 < l.length - 1 by omega) with he | hlt'
      · simp only [he]
        rwa [← hlast]
      · have := (hsorted (k + 1) (l.length - 1) hk (by omega) hlt').1
        rw [← hlast] at this
        omega
    exact ⟨cumulative_fits hb.1 hts, cumulative_fits hb.2 hts⟩
  have hload₀ := h.load hpos
  rw [Nat.add_zero, Nat.mod_eq_of_lt (oldestSlot_lt h)] at hload₀
  simp only [observeWindow, ← h.length, ensure, if_pos hlen2, ok_bind, oldestIdx_eq h, hload₀,
    if_pos (hhead ▸ hold), hsearch,
    ringIdx_eq o.state (show oldestSlot o.state + k ≤ u16Max by omega), h.load hlt]
  by_cases hexact : l[k].timestamp = target
  · rw [if_pos hexact]
    subst hexact
    simp only [blend, Nat.sub_self, Nat.mul_zero, Nat.zero_div, Nat.add_zero]
    rfl
  · have haddr : addU16 (oldestSlot o.state) k = .ok (oldestSlot o.state + k) := by
      unfold addU16
      rw [if_pos (by omega)]
    rw [if_neg hexact, haddr, ok_bind,
      ringIdx_eq o.state (show oldestSlot o.state + k + 1 ≤ u16Max by omega), ok_bind,
      Nat.add_assoc]
    simp only [loadBefore, if_pos hk, h.load hk, ok_bind]
    exact interpolate_eq (hsorted k (k + 1) hlt hk (Nat.lt_succ_self k)) hbefore hnext.le hbound

/-- With a position out of range the window between the two newest observations is lost. -/
theorem observeWindow_abort (h : o.Retains l) (hfit : ¬o.Addressable) (hlen : 2 ≤ l.length)
    (blockTime secondsAgo : ℕ) :
    o.observeWindow blockTime secondsAgo l[l.length - 2].timestamp latest =
      .error (.abort .ringIndex) := by
  have hsorted := List.pairwise_iff_getElem.1 h.sorted
  have hbefore : ∀ j (hj : j < l.length), j + 1 < l.length →
      l[j].timestamp ≤ l[l.length - 2].timestamp := by
    intro j hj hj1
    rcases (show j = l.length - 2 ∨ j < l.length - 2 by omega) with rfl | hlt
    · exact le_rfl
    · exact (hsorted j (l.length - 2) hj (by omega) hlt).1.le
  have hload₀ := h.load (show 0 < l.length by omega)
  rw [Nat.add_zero, Nat.mod_eq_of_lt (oldestSlot_lt h)] at hload₀
  have habort := search_abort l[l.length - 2].timestamp h hfit
    (show 0 + 1 < l.length by omega) hbefore
  simp only [observeWindow, ← h.length, ensure, if_pos hlen, ok_bind, oldestIdx_eq h, hload₀,
    if_pos (hbefore 0 (by omega) (by omega)), habort]
  rfl

end Oracle

end Cl8yDex
