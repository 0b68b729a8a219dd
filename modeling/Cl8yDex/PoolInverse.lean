import Cl8yDex.HybridReverse
import Cl8yDex.PoolFacts
import Mathlib.Order.Bounds.Basic

/-!
# The pool inverse is exact

The closed form answers with the least input whose net output meets the target, and with an error
exactly when no representable input does.
-/

namespace Cl8yDex

open Outcome

variable {i o x fee t n m : ℕ}

theorem divOrAbort_eq (hm : m ≠ 0) : divOrAbort n m = .ok (n / m) := by
  unfold divOrAbort checkedDiv
  rw [if_neg hm]
  rfl

theorem ceilDivOrAbort_eq (hm : 0 < m) : ceilDivOrAbort n m = .ok (n ⌈/⌉ m) := by
  unfold ceilDivOrAbort
  rw [divOrAbort_eq hm.ne', ok_bind, ceilDivU256_eq hm]
  rfl

theorem subOrAbort_eq (h : m ≤ n) : subOrAbort n m = .ok (n - m) := by
  unfold subOrAbort checkedSub
  rw [if_pos h]
  rfl

theorem subOrOverflow_of_le (h : m ≤ n) : subOrOverflow n m = .ok (n - m) :=
  subOrOverflow_eq_ok.2 ⟨h, rfl⟩

theorem add256OrAbort_eq (h : n + m ≤ u256Max) : add256OrAbort n m = .ok (n + m) := by
  unfold add256OrAbort checkedAdd256
  rw [if_pos h]
  rfl

theorem narrowStd_eq {ctx : String} (h : n ≤ u128Max) : narrowStd n ctx = .ok n := if_pos h

theorem poolCommission_eq (hn : n ≤ u128Max) (hfee : fee ≤ 10000) :
    poolCommission n fee = .ok (n * fee / 10000) := by
  have hscaled : n * fee ≤ u256Max := (Nat.mul_le_mul hn hfee).trans (by decide)
  have hle : n * fee / 10000 ≤ u128Max := (ConstantProduct.fee_le hfee).trans hn
  unfold poolCommission
  rw [ensure_pos hfee, ok_bind, mul256_of_le hscaled, ok_bind]
  dsimp only
  rw [ensure_pos hle]
  rfl

theorem poolCommission_error (hfee : 10000 < fee) :
    poolCommission n fee = .error (stdErr "pool fee exceeds 100%") := by
  unfold poolCommission ensure
  rw [if_neg (not_le.2 hfee)]
  rfl

/-- The net output of a pool leg, or why there is none. -/
theorem poolNetOutputForInput_eq (hi : i ≤ u128Max) (ho : o ≤ u128Max) :
    poolNetOutputForInput x i o fee =
      if x = 0 then .ok 0
      else if i = 0 ∨ o = 0 then .error (stdErr "pool reserves empty")
      else if u128Max < i + x then .error .overflow
      else if 10000 < fee then .error (stdErr "pool fee exceeds 100%")
      else .ok (ConstantProduct.net (ConstantProduct.output i o x) fee) := by
  unfold poolNetOutputForInput
  by_cases hx : x = 0
  · rw [if_pos hx, if_pos hx]
  rw [if_neg hx, if_neg hx]
  by_cases hempty : i = 0 ∨ o = 0
  · have hnot : ¬ (i ≠ 0 ∧ o ≠ 0) := by tauto
    unfold ensure
    rw [if_pos hempty, if_neg hnot]
    rfl
  have hboth : i ≠ 0 ∧ o ≠ 0 := by tauto
  have hipos := Nat.pos_of_ne_zero hboth.1
  have hk : i * o ≤ u256Max := (Nat.mul_le_mul hi ho).trans (by decide)
  rw [if_neg hempty, ensure_pos hboth, ok_bind, mul256_of_le hk, ok_bind]
  by_cases hover : u128Max < i + x
  · have hadd : addOrOverflow i x = .error .overflow := by
      unfold addOrOverflow
      rw [checkedAdd_eq_none.2 hover]
      rfl
    rw [if_pos hover, hadd]
    rfl
  have hadd : addOrOverflow i x = .ok (i + x) := addOrOverflow_eq_ok.2 ⟨not_lt.1 hover, rfl⟩
  have hafter : (i * o) ⌈/⌉ (i + x) ≤ o := ConstantProduct.reserveAfter_le hipos
  have hgross : ConstantProduct.output i o x ≤ u128Max := (Nat.sub_le _ _).trans ho
  rw [if_neg hover, hadd, ok_bind, ceilDivOrAbort_eq (Nat.add_pos_left hipos x), ok_bind,
    narrowStd_eq (hafter.trans ho), ok_bind, subOrOverflow_of_le hafter, ok_bind]
  change (poolCommission (ConstantProduct.output i o x) fee >>= _) = _
  by_cases hfee : 10000 < fee
  · rw [if_pos hfee, poolCommission_error hfee]
    rfl
  · rw [if_neg hfee, poolCommission_eq hgross (not_lt.1 hfee), ok_bind]
    exact subOrOverflow_of_le (ConstantProduct.fee_le (not_lt.1 hfee))

/-- The gross output that the net target asks for. -/
def grossFor (fee t : ℕ) : ℕ := (t - 1) * 10000 / (10000 - fee) + 1

theorem grossForNet_eq (ht : 0 < t) (htmax : t ≤ u128Max) (hfee : fee < 10000) :
    grossForNet fee t = .ok (grossFor fee t) := by
  have hscaled : (t - 1) * 10000 ≤ u128Max * 10000 :=
    Nat.mul_le_mul_right _ ((Nat.sub_le t 1).trans htmax)
  have hquot : (t - 1) * 10000 / (10000 - fee) ≤ u128Max * 10000 :=
    (Nat.div_le_self _ _).trans hscaled
  have hkept : 10000 - fee ≠ 0 := by omega
  unfold grossForNet
  rw [subOrOverflow_of_le ht, ok_bind, mul256_of_le (hscaled.trans (by decide)), ok_bind,
    subOrAbort_eq hfee.le, ok_bind, divOrAbort_eq hkept, ok_bind]
  exact add256OrAbort_eq ((Nat.add_le_add_right hquot 1).trans (by decide))

/-- The closed form, or why the target cannot be met. -/
theorem minPoolInputForNetOutput_eq (hi : i ≤ u128Max) (ho : o ≤ u128Max) (ht : t ≤ u128Max) :
    minPoolInputForNetOutput i o fee t =
      if t = 0 then .ok 0
      else if i = 0 ∨ o = 0 then .error (stdErr "pool reserves empty")
      else if 10000 ≤ fee then
        .error (stdErr "pool cannot satisfy net output target: fee >= 100%")
      else if o ≤ grossFor fee t then .error (stdErr "pool cannot satisfy net output target")
      else if u128Max < (i * o) ⌈/⌉ (o - grossFor fee t) then
        .error (stdErr "256-bit result exceeds u128 (pool offer overflow)")
      else .ok ((i * o) ⌈/⌉ (o - grossFor fee t) - i) := by
  unfold minPoolInputForNetOutput
  by_cases hzero : t = 0
  · rw [if_pos hzero, if_pos hzero]
  rw [if_neg hzero, if_neg hzero]
  by_cases hempty : i = 0 ∨ o = 0
  · have hnot : ¬ (i ≠ 0 ∧ o ≠ 0) := by tauto
    unfold ensure
    rw [if_pos hempty, if_neg hnot]
    rfl
  have hboth : i ≠ 0 ∧ o ≠ 0 := by tauto
  rw [if_neg hempty, ensure_pos hboth, ok_bind]
  by_cases hfee : 10000 ≤ fee
  · unfold ensure
    rw [if_pos hfee, if_neg (not_lt.2 hfee)]
    rfl
  rw [if_neg hfee, ensure_pos (not_le.1 hfee), ok_bind,
    grossForNet_eq (Nat.pos_of_ne_zero hzero) ht (not_le.1 hfee), ok_bind]
  by_cases hgross : o ≤ grossFor fee t
  · unfold ensure
    rw [if_pos hgross, if_neg (not_lt.2 hgross)]
    rfl
  have hk : i * o ≤ u256Max := (Nat.mul_le_mul hi ho).trans (by decide)
  have hlt := not_le.1 hgross
  rw [if_neg hgross, ensure_pos hlt, ok_bind, mul256_of_le hk, ok_bind, subOrOverflow_of_le hlt.le,
    ok_bind, ceilDivOrAbort_eq (Nat.sub_pos_of_lt hlt), ok_bind]
  by_cases hover : u128Max < (i * o) ⌈/⌉ (o - grossFor fee t)
  · unfold narrowStd
    rw [if_pos hover, if_neg (not_le.2 hover)]
    rfl
  have hreserve : i ≤ (i * o) ⌈/⌉ (o - grossFor fee t) := by
    have hprod : i * o ≤ (o - grossFor fee t) * ((i * o) ⌈/⌉ (o - grossFor fee t)) :=
      (ceilDiv_le_iff_le_mul (Nat.sub_pos_of_lt hlt)).1 le_rfl
    have hle : o * i ≤ o * ((i * o) ⌈/⌉ (o - grossFor fee t)) := by
      rw [Nat.mul_comm o i]
      exact hprod.trans (Nat.mul_le_mul_right _ (Nat.sub_le _ _))
    exact Nat.le_of_mul_le_mul_left hle (Nat.pos_of_ne_zero hboth.2)
  rw [if_neg hover, narrowStd_eq (not_lt.1 hover), ok_bind, subOrOverflow_of_le hreserve]

/-- The inputs that the new reserve has room for and whose net output meets the target. -/
def feasibleOffers (i o fee t : ℕ) : Set ℕ :=
  {y | i + y ≤ u128Max ∧ ∃ n, poolNetOutputForInput y i o fee = .ok n ∧ t ≤ n}

theorem poolNet_eq_net (hi : i ≤ u128Max) (ho : o ≤ u128Max) (hipos : 0 < i)
    (h : poolNetOutputForInput x i o fee = .ok n) :
    n = ConstantProduct.net (ConstantProduct.output i o x) fee := by
  rw [poolNetOutputForInput_eq hi ho] at h
  split_ifs at h with hx
  · cases h
    rw [hx, ConstantProduct.output_zero hipos]
    exact (Nat.zero_sub _).symm
  · cases h
    rfl

theorem mem_feasibleOffers (hi : i ≤ u128Max) (ho : o ≤ u128Max) (ht : 0 < t) :
    x ∈ feasibleOffers i o fee t ↔ (0 < i ∧ 0 < o) ∧ fee < 10000 ∧ grossFor fee t < o ∧
      i + x ≤ u128Max ∧ (i * o) ⌈/⌉ (o - grossFor fee t) ≤ i + x := by
  constructor
  · rintro ⟨hle, n, hn, htn⟩
    have hval := hn
    rw [poolNetOutputForInput_eq hi ho] at hval
    split_ifs at hval with hx hempty hover hfee
    · cases hval
      omega
    obtain ⟨hi0, ho0⟩ := not_or.1 hempty
    have hipos := Nat.pos_of_ne_zero hi0
    have hopos := Nat.pos_of_ne_zero ho0
    cases hval
    have hlt : fee < 10000 := by
      rcases (not_lt.1 hfee).lt_or_eq with hlt | rfl
      · exact hlt
      · unfold ConstantProduct.net at htn
        rw [Nat.mul_div_cancel _ (by decide), Nat.sub_self] at htn
        omega
    have hgross := (ConstantProduct.le_net_iff hlt ht).1 htn
    have hgo : grossFor fee t < o := hgross.trans_lt (ConstantProduct.output_lt hipos hopos)
    exact ⟨⟨hipos, hopos⟩, hlt, hgo, hle, (ConstantProduct.le_output_iff hipos hgo).1 hgross⟩
  · rintro ⟨⟨hipos, hopos⟩, hfee, hgo, hle, hreserve⟩
    have hgross := (ConstantProduct.le_output_iff hipos hgo).2 hreserve
    have hnet := (ConstantProduct.le_net_iff hfee ht).2 hgross
    refine ⟨hle, _, ?_, hnet⟩
    have hx : x ≠ 0 := by
      rintro rfl
      rw [ConstantProduct.output_zero hipos] at hgross
      exact absurd hgross (Nat.not_succ_le_zero _)
    rw [poolNetOutputForInput_eq hi ho, if_neg hx, if_neg (not_or.2 ⟨hipos.ne', hopos.ne'⟩),
      if_neg (not_lt.2 hle), if_neg (not_lt.2 hfee.le)]

theorem minPoolInput_isLeast (hi : i ≤ u128Max) (ho : o ≤ u128Max) (ht : t ≤ u128Max)
    (h : minPoolInputForNetOutput i o fee t = .ok x) : IsLeast (feasibleOffers i o fee t) x := by
  rw [minPoolInputForNetOutput_eq hi ho ht] at h
  split_ifs at h with hzero hempty hfee hgross hover
  · cases h
    exact ⟨⟨hi, 0, rfl, hzero.le⟩, fun y _ => Nat.zero_le y⟩
  cases h
  obtain ⟨hi0, ho0⟩ := not_or.1 hempty
  have hmem (y : ℕ) : y ∈ feasibleOffers i o fee t ↔ (0 < i ∧ 0 < o) ∧ fee < 10000 ∧
      grossFor fee t < o ∧ i + y ≤ u128Max ∧ (i * o) ⌈/⌉ (o - grossFor fee t) ≤ i + y :=
    mem_feasibleOffers hi ho (Nat.pos_of_ne_zero hzero)
  constructor
  · rw [hmem]
    refine ⟨⟨Nat.pos_of_ne_zero hi0, Nat.pos_of_ne_zero ho0⟩, not_le.1 hfee, not_le.1 hgross,
      ?_, ?_⟩
    · omega
    · omega
  · intro y hy
    have hreserve := ((hmem y).1 hy).2.2.2.2
    omega

theorem minPoolInput_of_feasible (hi : i ≤ u128Max) (ho : o ≤ u128Max) (ht : t ≤ u128Max)
    (h : x ∈ feasibleOffers i o fee t) : ∃ y, minPoolInputForNetOutput i o fee t = .ok y := by
  rw [minPoolInputForNetOutput_eq hi ho ht]
  by_cases hzero : t = 0
  · rw [if_pos hzero]
    exact ⟨0, rfl⟩
  obtain ⟨⟨hipos, hopos⟩, hfee, hgross, hle, hreserve⟩ :=
    (mem_feasibleOffers hi ho (Nat.pos_of_ne_zero hzero)).1 h
  rw [if_neg hzero, if_neg (not_or.2 ⟨hipos.ne', hopos.ne'⟩), if_neg (not_le.2 hfee),
    if_neg (not_le.2 hgross), if_neg (not_lt.2 (hreserve.trans hle))]
  exact ⟨_, rfl⟩

theorem minPoolInput_eq_ok_iff (hi : i ≤ u128Max) (ho : o ≤ u128Max) (ht : t ≤ u128Max) :
    minPoolInputForNetOutput i o fee t = .ok x ↔ IsLeast (feasibleOffers i o fee t) x := by
  constructor
  · exact minPoolInput_isLeast hi ho ht
  · intro hleast
    obtain ⟨y, hy⟩ := minPoolInput_of_feasible hi ho ht hleast.1
    rw [hy, (minPoolInput_isLeast hi ho ht hy).unique hleast]

theorem poolNet_no_abort (hi : i ≤ u128Max) (ho : o ≤ u128Max) (site : AbortSite) :
    poolNetOutputForInput x i o fee ≠ .error (.abort site) := by
  rw [poolNetOutputForInput_eq hi ho]
  split_ifs <;> exact nofun

theorem minPoolInput_no_abort (hi : i ≤ u128Max) (ho : o ≤ u128Max) (ht : t ≤ u128Max)
    (site : AbortSite) : minPoolInputForNetOutput i o fee t ≠ .error (.abort site) := by
  rw [minPoolInputForNetOutput_eq hi ho ht]
  split_ifs <;> exact nofun

theorem poolNet_mono {y : ℕ} (hi : i ≤ u128Max) (ho : o ≤ u128Max) (hxy : x ≤ y)
    (hx : poolNetOutputForInput x i o fee = .ok n) (hy : poolNetOutputForInput y i o fee = .ok m) :
    n ≤ m := by
  have hval := hy
  rw [poolNetOutputForInput_eq hi ho] at hval
  split_ifs at hval with hzero hempty hover hfee
  · have hx0 : x = 0 := Nat.le_zero.1 (hzero ▸ hxy)
    rw [hx0] at hx
    cases hx
    exact Nat.zero_le m
  · obtain ⟨hi0, -⟩ := not_or.1 hempty
    have hipos := Nat.pos_of_ne_zero hi0
    rw [poolNet_eq_net hi ho hipos hx, poolNet_eq_net hi ho hipos hy]
    exact ConstantProduct.net_mono (not_lt.1 hfee) (ConstantProduct.output_mono hipos hxy)

end Cl8yDex
