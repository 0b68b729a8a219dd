import Cl8yDex.BackwardChain
import Cl8yDex.PoolInverse
import Cl8yDex.RouteTaxInverse

/-!
# The stages of a pool-only hop

A hop funds its sell from a gross budget, trades against the pool and pays the buy tax out of the
output. Each stage is a rising partial function of machine integers, and what the router derives
backwards is the least input of the stage that reaches the target.
-/

namespace Cl8yDex.Router

open Outcome FirstReaching

def funded (bps x : ℕ) : Option ℕ :=
  if x ≤ u128Max then (sellFromGross x bps).toOption.map RouteTaxPreviewResponse.economic else none

def pooled (i o fee x : ℕ) : Option ℕ := (poolNetOutputForInput x i o fee).toOption

def bought (bps x : ℕ) : Option ℕ :=
  if x ≤ u128Max then (buyFromGross x bps).toOption.map RouteTaxPreviewResponse.net else none

variable {bps fee i o x y t w : ℕ}

section Funded

theorem sellFromGross_error (h : 10000 < bps) :
    sellFromGross x bps = .error (.generic "route tax bps exceeds 10000") := by
  unfold sellFromGross ensure
  rw [if_neg (not_le.2 h)]
  rfl

theorem funded_eq_some (hbps : bps ≤ 10000) :
    funded bps x = some y ↔ x ≤ u128Max ∧ IsGreatest {s | charged s bps ≤ x} y := by
  unfold funded
  by_cases hx : x ≤ u128Max
  · obtain ⟨s, hs, hgreatest⟩ := sellFromGross_eq hx hbps
    rw [if_pos hx, hs]
    change some s = some y ↔ _
    constructor
    · intro h
      cases h
      exact ⟨hx, hgreatest⟩
    · intro h
      rw [hgreatest.unique h.2]
  · simp [hx]

theorem funded_eq_none (hbps : 10000 < bps) : funded bps x = none := by
  unfold funded
  rw [sellFromGross_error hbps]
  simp [Except.toOption]

theorem funded_rising : Rising (funded bps) := by
  intro x y b hxy hb
  rcases le_or_gt bps 10000 with hbps | hbps
  · obtain ⟨hy, hgreatest⟩ := (funded_eq_some hbps).1 hb
    obtain ⟨s, -, hs⟩ := sellFromGross_eq (hxy.trans hy) hbps
    have hsx : charged s bps ≤ x := hs.1
    exact ⟨s, hgreatest.2 (hsx.trans hxy), (funded_eq_some hbps).2 ⟨hxy.trans hy, hs⟩⟩
  · rw [funded_eq_none hbps] at hb
    cases hb

theorem funded_within (h : funded bps x = some y) : x ≤ u128Max ∧ y ≤ x := by
  rcases le_or_gt bps 10000 with hbps | hbps
  · obtain ⟨hx, hgreatest⟩ := (funded_eq_some hbps).1 h
    exact ⟨hx, le_charged.trans hgreatest.1⟩
  · rw [funded_eq_none hbps] at h
    cases h

theorem mem_reaching_funded (hbps : bps ≤ 10000) :
    x ∈ reaching (funded bps) t ↔ x ≤ u128Max ∧ charged t bps ≤ x := by
  constructor
  · rintro ⟨s, hs, hts⟩
    obtain ⟨hx, hgreatest⟩ := (funded_eq_some hbps).1 hs
    have hsx : charged s bps ≤ x := hgreatest.1
    exact ⟨hx, (charged_mono hts).trans hsx⟩
  · rintro ⟨hx, hle⟩
    obtain ⟨s, -, hs⟩ := sellFromGross_eq hx hbps
    exact ⟨s, (funded_eq_some hbps).2 ⟨hx, hs⟩, hs.2 hle⟩

/-- The direct product is the least budget that funds the sale. -/
theorem reverseSellAmount_meets {p : RouteTaxPreviewResponse} (hp : p.tax = bps)
    (hbps : bps ≤ 10000) (ht : t ≤ u128Max) :
    Meets (reverseSellAmount t p) (fun w => IsLeast (reaching (funded bps) t) w)
      (fun _ => reaching (funded bps) t = ∅) := by
  rw [reverseSellAmount_eq ht hp hbps]
  unfold tryAdd checkedAdd
  change Meets (orThrow (if charged t bps ≤ u128Max then some (charged t bps) else none)
    StdError.overflow) _ _
  by_cases hle : charged t bps ≤ u128Max
  · rw [if_pos hle]
    constructor
    · exact (mem_reaching_funded hbps).2 ⟨hle, le_rfl⟩
    · exact fun x hx => ((mem_reaching_funded hbps).1 hx).2
  · rw [if_neg hle]
    apply Set.eq_empty_of_forall_notMem
    intro x hx
    obtain ⟨hx, hcharged⟩ := (mem_reaching_funded hbps).1 hx
    exact hle (hcharged.trans hx)

theorem reaching_exempt (ht : t ≤ u128Max) : IsLeast (reaching (funded 0) t) t := by
  have hcharged : charged t 0 = t := by simp [charged]
  constructor
  · rw [mem_reaching_funded (Nat.zero_le _), hcharged]
    exact ⟨ht, le_rfl⟩
  · intro x hx
    have hle := ((mem_reaching_funded (Nat.zero_le _)).1 hx).2
    rwa [hcharged] at hle

end Funded

section Pooled

variable (hi : i ≤ u128Max) (ho : o ≤ u128Max)
include hi ho

theorem pooled_rising : Rising (pooled i o fee) := by
  intro x y b hxy hb
  have hy := toOption_eq_some.1 hb
  suffices hx : ∃ a, poolNetOutputForInput x i o fee = .ok a by
    obtain ⟨a, ha⟩ := hx
    exact ⟨a, poolNet_mono hi ho hxy ha hy, toOption_eq_some.2 ha⟩
  rw [poolNetOutputForInput_eq hi ho] at hy ⊢
  by_cases hx0 : x = 0
  · exact ⟨0, if_pos hx0⟩
  have hy0 : y ≠ 0 := by omega
  rw [if_neg hy0] at hy
  rw [if_neg hx0]
  split_ifs at hy with hempty hover hfee
  have hroom : ¬u128Max < i + x := by omega
  rw [if_neg hempty, if_neg hroom, if_neg hfee]
  exact ⟨_, rfl⟩

theorem pooled_within (h : pooled i o fee x = some y) : x ≤ u128Max ∧ y ≤ u128Max := by
  have hx := toOption_eq_some.1 h
  rw [poolNetOutputForInput_eq hi ho] at hx
  split_ifs at hx with hzero hempty hover hfee
  · cases hx
    exact ⟨hzero ▸ Nat.zero_le _, Nat.zero_le _⟩
  · cases hx
    constructor
    · omega
    · exact ((Nat.sub_le _ _).trans (Nat.sub_le _ _)).trans ho

theorem reaching_pooled (ht : 0 < t) : reaching (pooled i o fee) t = feasibleOffers i o fee t := by
  ext x
  constructor
  · rintro ⟨n, hn, htn⟩
    have hx := toOption_eq_some.1 hn
    refine ⟨?_, n, hx, htn⟩
    rw [poolNetOutputForInput_eq hi ho] at hx
    split_ifs at hx with hzero hempty hover hfee
    · cases hx
      omega
    · exact not_lt.1 hover
  · rintro ⟨-, n, hn, htn⟩
    exact ⟨n, toOption_eq_some.2 hn, htn⟩

end Pooled

section Bought

theorem bought_eq (hbps : bps ≤ 10000) :
    bought bps x = if x ≤ u128Max then some (ConstantProduct.net x bps) else none := by
  unfold bought
  by_cases hx : x ≤ u128Max
  · rw [if_pos hx, if_pos hx, buyFromGross_eq hx hbps]
    rfl
  · rw [if_neg hx, if_neg hx]

theorem bought_eq_some (hbps : bps ≤ 10000) :
    bought bps x = some y ↔ x ≤ u128Max ∧ y = ConstantProduct.net x bps := by
  rw [bought_eq hbps]
  split_ifs with hx <;> simp [hx, eq_comm]

theorem bought_rising (hbps : bps ≤ 10000) : Rising (bought bps) := by
  intro x y b hxy hb
  obtain ⟨hy, rfl⟩ := (bought_eq_some hbps).1 hb
  exact ⟨_, ConstantProduct.net_mono hbps hxy, (bought_eq_some hbps).2 ⟨hxy.trans hy, rfl⟩⟩

theorem bought_within (hbps : bps ≤ 10000) (h : bought bps x = some y) :
    x ≤ u128Max ∧ y ≤ x := by
  obtain ⟨hx, rfl⟩ := (bought_eq_some hbps).1 h
  exact ⟨hx, Nat.sub_le _ _⟩

theorem reverseBuyAmount_meets {p : RouteTaxPreviewResponse} (hp : p.tax = bps)
    (hbps : bps < 10000) (ht : 0 < t) :
    Meets (reverseBuyAmount t p) (fun w => IsLeast (reaching (bought bps) t) w)
      (fun _ => reaching (bought bps) t = ∅) := by
  have hmem (x : ℕ) : x ∈ reaching (bought bps) t ↔
      x ≤ u128Max ∧ t ≤ ConstantProduct.net x bps := by
    constructor
    · rintro ⟨y, hy, hty⟩
      obtain ⟨hx, rfl⟩ := (bought_eq_some hbps.le).1 hy
      exact ⟨hx, hty⟩
    · rintro ⟨hx, hty⟩
      exact ⟨_, (bought_eq_some hbps.le).2 ⟨hx, rfl⟩, hty⟩
  apply (reverseBuyAmount_isLeast hp hbps ht).mono
  · rintro g ⟨hg, hleast⟩
    constructor
    · exact (hmem g).2 ⟨hg, hleast.1⟩
    · exact fun x hx => hleast.2 ((hmem x).1 hx).2
  · intro _ hnone
    apply Set.eq_empty_of_forall_notMem
    intro x hx
    obtain ⟨hx, htx⟩ := (hmem x).1 hx
    exact absurd (hnone x hx) (not_lt.2 htx)

end Bought

section Hop

/-- What the pool and the two tokens of a hop charge. -/
structure HopTerms where
  inputReserve : ℕ
  outputReserve : ℕ
  feeBps : ℕ
  sellBps : ℕ
  buyBps : ℕ

structure HopTerms.Admitted (c : HopTerms) : Prop where
  inputReserve : c.inputReserve ≤ u128Max
  outputReserve : c.outputReserve ≤ u128Max
  buyBps : c.buyBps < 10000

variable (c : HopTerms)

def HopTerms.pool : ℕ → Option ℕ := pooled c.inputReserve c.outputReserve c.feeBps

/-- From the funded sale to the output that is left of the buy tax. -/
def HopTerms.trade : ℕ → Option ℕ := andThen c.pool (bought c.buyBps)

def HopTerms.stage : ℕ → Option ℕ := andThen (funded c.sellBps) c.trade

variable {c}

theorem HopTerms.Admitted.trade_rising (h : c.Admitted) : Rising c.trade :=
  (pooled_rising h.inputReserve h.outputReserve).andThen (bought_rising h.buyBps.le)

theorem HopTerms.Admitted.stage_rising (h : c.Admitted) : Rising c.stage :=
  funded_rising.andThen h.trade_rising

theorem HopTerms.Admitted.stage_within (h : c.Admitted) (hx : c.stage x = some y) :
    x ≤ u128Max ∧ y ≤ u128Max := by
  obtain ⟨e, he, htrade⟩ := andThen_eq_some.1 hx
  obtain ⟨r, hr, hy⟩ := andThen_eq_some.1 htrade
  obtain ⟨hr, hyr⟩ := bought_within h.buyBps.le hy
  exact ⟨(funded_within he).1, hyr.trans hr⟩

theorem pos_of_reaching_bought (hbps : bps ≤ 10000) (ht : 0 < t)
    (h : w ∈ reaching (bought bps) t) : 0 < w := by
  apply pos_of_reaches _ ht h
  intro y hy
  exact Nat.le_zero.1 (bought_within hbps hy).2

theorem pos_of_reaching_pooled (ht : 0 < t) (h : w ∈ reaching (pooled i o fee) t) : 0 < w := by
  apply pos_of_reaches _ ht h
  intro y hy
  exact (Except.ok.inj (toOption_eq_some.1 hy)).symm

theorem pos_of_reaching_funded (ht : 0 < t) (h : w ∈ reaching (funded bps) t) : 0 < w := by
  apply pos_of_reaches _ ht h
  intro y hy
  exact Nat.le_zero.1 (funded_within hy).2

end Hop

end Cl8yDex.Router
