import Cl8yDex.RouteTax
import Cl8yDex.ConstantProduct
import Mathlib.Order.Bounds.Basic
import Mathlib.Tactic.Linarith

/-!
# The inverses of the route taxes

The binary search answers with the greatest funded amount, the direct product inverts it without a
residue, and the ceiling quotient is the least gross output. The rate comes from a probe.
-/

namespace Cl8yDex.Router

open Outcome

/-- An amount with the tax on top of it. -/
def charged (economic bps : ℕ) : ℕ := economic + economic * bps / 10000

section Charged

variable {s t bps : ℕ}

theorem le_charged : s ≤ charged s bps := Nat.le_add_right _ _

theorem charged_mono (h : s ≤ t) : charged s bps ≤ charged t bps := by
  unfold charged
  have htax : s * bps / 10000 ≤ t * bps / 10000 :=
    Nat.div_le_div_right (Nat.mul_le_mul_right bps h)
  omega

theorem charged_lt (h : s < t) : charged s bps < charged t bps := by
  have htax : s * bps / 10000 ≤ t * bps / 10000 :=
    Nat.div_le_div_right (Nat.mul_le_mul_right bps h.le)
  unfold charged
  omega

theorem charged_le_iff : charged s bps ≤ charged t bps ↔ s ≤ t := by
  constructor
  · intro h
    by_contra hlt
    exact absurd (charged_lt (not_le.1 hlt)) (not_lt.2 h)
  · exact charged_mono

theorem charged_zero : charged 0 bps = 0 := by simp [charged]

theorem charged_tenThousand : charged 10000 bps = 10000 + bps := by
  unfold charged
  rw [Nat.mul_div_cancel_left bps (by decide)]

end Charged

theorem multiplyRatio_of_le {a num : ℕ} (ha : a ≤ u128Max) (hnum : num ≤ 10000) :
    multiplyRatio a num 10000 = .ok (a * num / 10000) := by
  have hle : a * num / 10000 ≤ u128Max := (ConstantProduct.fee_le hnum).trans ha
  unfold multiplyRatio checkedMultiplyRatio
  rw [if_neg (by decide), if_pos hle]
  rfl

theorem plus_eq {a b : ℕ} (h : a + b ≤ u128Max) : plus a b = .ok (a + b) := by
  unfold plus checkedAdd
  rw [if_pos h]
  rfl

theorem minus_eq {a b : ℕ} (h : b ≤ a) : minus a b = .ok (a - b) := by
  unfold minus checkedSub
  rw [if_pos h]
  rfl

theorem trySub_eq {a b : ℕ} (h : b ≤ a) : trySub a b = .ok (a - b) := by
  unfold trySub checkedSub
  rw [if_pos h]
  rfl

theorem tryAdd_eq_ok {a b c : ℕ} : tryAdd a b = .ok c ↔ a + b ≤ u128Max ∧ c = a + b := by
  unfold tryAdd
  rw [orThrow_eq_ok, checkedAdd_eq_some]

section Search

variable {gross bps lo hi steps : ℕ}

theorem middle_eq (hle : lo ≤ hi) (hhi : hi ≤ u128Max) :
    middle lo hi = .ok (lo + (hi - lo + 1) / 2) := by
  unfold middle
  rw [minus_eq hle, ok_bind, plus_eq (by omega), ok_bind, plus_eq (by omega)]
  congr 1
  omega

/-- The bracket holds the greatest amount, and each turn at least halves it. -/
theorem sellSearch_spec (hgross : gross ≤ u128Max) (hbps : bps ≤ 10000) (hle : lo ≤ hi)
    (hhi : hi ≤ gross) (hwidth : hi - lo < 2 ^ steps) (hlo : charged lo bps ≤ gross)
    (hup : ∀ s, charged s bps ≤ gross → s ≤ hi) :
    ∃ s, sellSearch gross bps (steps + 1) lo hi = .ok s ∧
      IsGreatest {s | charged s bps ≤ gross} s := by
  induction steps generalizing lo hi with
  | zero =>
      have heq : lo = hi := by omega
      subst heq
      refine ⟨lo, ?_, hlo, fun s hs => hup s hs⟩
      unfold sellSearch
      rw [if_neg (lt_irrefl lo)]
  | succ steps ih =>
      have hpow : 2 ^ (steps + 1) = 2 * 2 ^ steps := by ring
      unfold sellSearch
      by_cases hlt : lo < hi
      · have hmid : lo + (hi - lo + 1) / 2 ≤ gross := by omega
        rw [if_pos hlt, middle_eq hle (hhi.trans hgross), ok_bind,
          multiplyRatio_of_le (hmid.trans hgross) hbps, ok_bind, trySub_eq hmid, ok_bind]
        generalize hm : lo + (hi - lo + 1) / 2 = mid at hmid ⊢
        by_cases htax : mid * bps / 10000 ≤ gross - mid
        · have hfits : charged mid bps ≤ gross := by
            unfold charged
            omega
          rw [if_pos htax]
          apply ih
          · omega
          · exact hhi
          · omega
          · exact hfits
          · exact hup
        · have hover : gross < charged mid bps := by
            unfold charged
            omega
          rw [if_neg htax, minus_eq (by omega), ok_bind]
          apply ih
          · omega
          · omega
          · omega
          · exact hlo
          · intro s hs
            have hsmid : s < mid := by
              by_contra hge
              exact absurd (hs.trans_lt hover) (not_lt.2 (charged_mono (not_lt.1 hge)))
            omega
      · have heq : lo = hi := by omega
        subst heq
        rw [if_neg hlt]
        exact ⟨lo, rfl, hlo, fun s hs => hup s hs⟩

theorem sellFromGross_eq (hgross : gross ≤ u128Max) (hbps : bps ≤ 10000) :
    ∃ s, sellFromGross gross bps = .ok ⟨fundingVersion, gross, s, s * bps / 10000, s⟩ ∧
      IsGreatest {s | charged s bps ≤ gross} s := by
  have hwidth : gross - 0 < 2 ^ 128 := lt_of_le_of_lt hgross (by decide)
  have hlo : charged 0 bps ≤ gross := by
    rw [charged_zero]
    exact Nat.zero_le gross
  obtain ⟨s, hs, hgreatest⟩ := sellSearch_spec hgross hbps (Nat.zero_le gross) le_rfl hwidth hlo
    (fun s hs => le_charged.trans hs)
  have hle : s ≤ u128Max := (le_charged.trans hgreatest.1).trans hgross
  refine ⟨s, ?_, hgreatest⟩
  unfold sellFromGross
  rw [ensure_pos hbps, ok_bind]
  change (sellSearch gross bps (128 + 1) 0 gross >>= _) = _
  rw [hs, ok_bind, multiplyRatio_of_le hle hbps, ok_bind]
  rfl

/-- The budget of an amount with its tax funds this amount. -/
theorem sellFromGross_charged {economic : ℕ} (hfits : charged economic bps ≤ u128Max)
    (hbps : bps ≤ 10000) : sellFromGross (charged economic bps) bps =
      .ok ⟨fundingVersion, charged economic bps, economic, economic * bps / 10000, economic⟩ := by
  obtain ⟨s, hs, hgreatest⟩ := sellFromGross_eq hfits hbps
  have heq : s = economic :=
    hgreatest.unique ⟨le_refl (charged economic bps), fun t ht => charged_le_iff.1 ht⟩
  rw [hs, heq]

theorem buyFromGross_eq (hgross : gross ≤ u128Max) (hbps : bps ≤ 10000) :
    buyFromGross gross bps =
      .ok ⟨fundingVersion, gross, gross, gross * bps / 10000, ConstantProduct.net gross bps⟩ := by
  unfold buyFromGross
  rw [ensure_pos hbps, ok_bind, multiplyRatio_of_le hgross hbps, ok_bind,
    trySub_eq (ConstantProduct.fee_le hbps)]
  rfl

end Search

section Probe

variable {bps : ℕ}

/-- A budget of ten thousand units and their tax shows the rate. -/
theorem sellFromGross_probe (hbps : bps ≤ 10000) : sellFromGross (10000 + bps) bps =
    .ok ⟨fundingVersion, 10000 + bps, 10000, bps, 10000⟩ := by
  have hfits : charged 10000 bps ≤ u128Max := by
    rw [charged_tenThousand]
    exact (Nat.add_le_add_left hbps 10000).trans (by decide)
  have h := sellFromGross_charged hfits hbps
  rwa [charged_tenThousand, Nat.mul_div_cancel_left bps (by decide)] at h

theorem sellFromGross_exempt {gross : ℕ} (hgross : gross ≤ u128Max) :
    sellFromGross gross 0 = .ok ⟨fundingVersion, gross, gross, 0, gross⟩ := by
  have hcharged : charged gross 0 = gross := by simp [charged]
  have hfits : charged gross 0 ≤ u128Max := by rwa [hcharged]
  have h := sellFromGross_charged hfits (Nat.zero_le _)
  rwa [hcharged, Nat.mul_zero, Nat.zero_div] at h

theorem buyFromGross_probe (hbps : bps ≤ 10000) :
    buyFromGross 10000 bps = .ok ⟨fundingVersion, 10000, 10000, bps, 10000 - bps⟩ := by
  rw [buyFromGross_eq (by decide) hbps]
  unfold ConstantProduct.net
  rw [Nat.mul_div_cancel_left bps (by decide)]

end Probe

section Reverse

variable {p : RouteTaxPreviewResponse} {economic net bps gross : ℕ}

theorem reverseSellAmount_eq (hE : economic ≤ u128Max) (hp : p.tax = bps) (hbps : bps ≤ 10000) :
    reverseSellAmount economic p = tryAdd economic (economic * bps / 10000) := by
  unfold reverseSellAmount
  rw [hp, multiplyRatio_of_le hE hbps, ok_bind]

theorem reverseSellAmount_eq_ok (hE : economic ≤ u128Max) (hp : p.tax = bps) (hbps : bps ≤ 10000) :
    reverseSellAmount economic p = .ok gross ↔
      charged economic bps ≤ u128Max ∧ gross = charged economic bps := by
  rw [reverseSellAmount_eq hE hp hbps, tryAdd_eq_ok]
  rfl

/-- The quotient is the least gross output, and it is refused only when it is no machine integer. -/
theorem reverseBuyAmount_eq (hp : p.tax = bps) (hbps : bps < 10000) (hnet : 0 < net) :
    Meets (reverseBuyAmount net p)
      (fun g => g ≤ u128Max ∧ g = (net - 1) * 10000 / (10000 - bps) + 1)
      (fun _ => u128Max < (net - 1) * 10000 / (10000 - bps) + 1) := by
  have hdenom : 10000 - bps ≠ 0 := by omega
  unfold reverseBuyAmount
  rw [hp, trySub_eq hbps.le, ok_bind, ensure_pos hdenom, ok_bind, trySub_eq hnet, ok_bind]
  unfold checkedMultiplyRatio
  rw [if_neg hdenom]
  by_cases hq : (net - 1) * 10000 / (10000 - bps) ≤ u128Max
  · rw [if_pos hq]
    change Meets (tryAdd _ 1) _ _
    unfold tryAdd checkedAdd
    by_cases hsum : (net - 1) * 10000 / (10000 - bps) + 1 ≤ u128Max
    · rw [if_pos hsum]
      exact ⟨hsum, rfl⟩
    · rw [if_neg hsum]
      exact not_le.1 hsum
  · rw [if_neg hq]
    exact (not_le.1 hq).trans (Nat.lt_succ_self _)

theorem reverseBuyAmount_isLeast (hp : p.tax = bps) (hbps : bps < 10000) (hnet : 0 < net) :
    Meets (reverseBuyAmount net p)
      (fun g => g ≤ u128Max ∧ IsLeast {g | net ≤ ConstantProduct.net g bps} g)
      (fun _ => ∀ g ≤ u128Max, ConstantProduct.net g bps < net) := by
  apply (reverseBuyAmount_eq hp hbps hnet).mono
  · rintro g ⟨hle, rfl⟩
    exact ⟨hle, (ConstantProduct.le_net_iff hbps hnet).2 le_rfl,
      fun g hg => (ConstantProduct.le_net_iff hbps hnet).1 hg⟩
  · intro _ hover g hg
    by_contra hmeets
    have hge := (ConstantProduct.le_net_iff hbps hnet).1 (not_lt.1 hmeets)
    omega

end Reverse

/-- The rate a token applies to one trader. -/
def effectiveRate (exempt : Bool) (bps : ℕ) : ℕ := if exempt then 0 else bps

theorem effectiveRate_le {exempt : Bool} {bps m : ℕ} (h : bps ≤ m) :
    effectiveRate exempt bps ≤ m := by
  cases exempt
  · exact h
  · exact Nat.zero_le m

/-- The probe of a budget of `10000 + bps` shows the trader's own rate. -/
theorem sellFromGross_probeRate (exempt : Bool) {bps : ℕ} (hbps : bps ≤ 10000) :
    ∃ p, sellFromGross (10000 + bps) (effectiveRate exempt bps) = .ok p ∧
      p.tax = effectiveRate exempt bps := by
  cases exempt
  · exact ⟨_, sellFromGross_probe hbps, rfl⟩
  · exact ⟨_, sellFromGross_exempt ((Nat.add_le_add_left hbps 10000).trans (by decide)), rfl⟩

/-- Each inverse of a floored route tax is exact over all machine integers. -/
theorem route_tax_inverses_exact {bps : ℕ} (hbps : bps ≤ 10000) :
    (∀ gross ≤ u128Max, ∃ p, sellFromGross gross bps = .ok p ∧ p.gross = gross ∧
      p.net = p.economic ∧ p.tax = p.economic * bps / 10000 ∧
      IsGreatest {s | s + s * bps / 10000 ≤ gross} p.economic) ∧
    (∀ exempt probeGross economic gross probe, economic ≤ u128Max →
      probeGross = 10000 + bps ∨ exempt = true ∧ probeGross = 10000 →
      sellFromGross probeGross (effectiveRate exempt bps) = .ok probe →
      reverseSellAmount economic probe = .ok gross →
      ∃ p, sellFromGross gross (effectiveRate exempt bps) = .ok p ∧
        p.economic = economic ∧ p.economic + p.tax = gross) ∧
    (bps < 10000 → ∀ net probe, 0 < net → buyFromGross 10000 bps = .ok probe →
      Meets (reverseBuyAmount net probe)
        (fun gross => IsLeast {g | net ≤ g - g * bps / 10000} gross)
        (fun _ => ∀ g ≤ u128Max, ¬ net ≤ g - g * bps / 10000)) := by
  refine ⟨?_, ?_, ?_⟩
  · intro gross hgross
    obtain ⟨s, hs, hgreatest⟩ := sellFromGross_eq hgross hbps
    exact ⟨_, hs, rfl, rfl, rfl, hgreatest⟩
  · intro exempt probeGross economic gross probe hE hgross hprobe hrev
    have htax : probe.tax = effectiveRate exempt bps := by
      rcases hgross with rfl | ⟨rfl, rfl⟩
      · obtain ⟨q, hq, htax⟩ := sellFromGross_probeRate exempt hbps
        rw [hprobe] at hq
        cases hq
        exact htax
      · have hq := hprobe.symm.trans (sellFromGross_exempt (by decide))
        cases hq
        rfl
    have hrate : effectiveRate exempt bps ≤ 10000 := effectiveRate_le hbps
    obtain ⟨hfits, rfl⟩ := (reverseSellAmount_eq_ok hE htax hrate).1 hrev
    exact ⟨_, sellFromGross_charged hfits hrate, rfl, rfl⟩
  · intro hlt net probe hnet hprobe
    have hq := hprobe.symm.trans (buyFromGross_probe hbps)
    cases hq
    apply (reverseBuyAmount_isLeast rfl hlt hnet).mono
    · exact fun g hg => hg.2
    · exact fun _ hnone g hg => not_le.2 (hnone g hg)

/-- The largest budget at the highest rate, and a rate of thirty basis points at a floor. -/
theorem route_tax_inverses_exact_sample :
    (∃ p, sellFromGross u128Max 10000 = .ok p ∧
      IsGreatest {s | s + s * 10000 / 10000 ≤ u128Max} p.economic) ∧
    (∃ p, sellFromGross 1003 30 = .ok p ∧ p.economic = 1000 ∧ p.economic + p.tax = 1003) ∧
    IsLeast {g | 998 ≤ g - g * 30 / 10000} 1001 := by
  refine ⟨?_, ?_, ?_⟩
  · obtain ⟨p, hp, _, _, _, h⟩ := (route_tax_inverses_exact (le_refl 10000)).1 u128Max le_rfl
    exact ⟨p, hp, h⟩
  · have hbps : 30 ≤ 10000 := by decide
    exact (route_tax_inverses_exact hbps).2.1 false 10030 1000 1003
      ⟨fundingVersion, 10030, 10000, 30, 10000⟩ (by decide) (.inl rfl) (by decide +kernel)
      (by decide +kernel)
  · have hbps : 30 ≤ 10000 := by decide
    have h := (route_tax_inverses_exact hbps).2.2 (by decide) 998
      ⟨fundingVersion, 10000, 10000, 30, 9970⟩ (by decide) (by decide +kernel)
    exact h.success (by decide +kernel)

end Cl8yDex.Router
