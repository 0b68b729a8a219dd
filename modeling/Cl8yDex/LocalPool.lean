import Cl8yDex.AmmLadder
import Cl8yDex.BackwardChain
import Cl8yDex.LocalHooks
import Cl8yDex.RouteTaxInverse

/-!
# Pools and taxes of a local leg

The forward price of a leg in closed form: the curve and its commission, the offer that a gross
amount can sell, and what a purchase leaves. The pool offers and the purchases that are derived
backwards bound every one that would do.
-/

namespace Cl8yDex.LocalQuote

open Outcome Listing FirstReaching Router

section Pool

variable {wide : WideDivision} {i o x fee : ℕ}

theorem ceilDivWide_eq (hi : 0 < i) (ho : o ≤ u128Max) (hadd : i + x ≤ u128Max) :
    ceilDivWide wide i o (i + x) = .ok (ConstantProduct.reserveAfter i o x) := by
  have hn : 0 < i + x := by omega
  have hle : i * o + (i + x) - 1 ≤ u256Max := by
    have hk : i * o ≤ u128Max * u128Max := Nat.mul_le_mul (by omega) ho
    have hroom : u128Max * u128Max + u128Max ≤ u256Max := by decide
    omega
  have hceil : wide.truncated (i * o + (i + x) - 1) (i + x) =
      ConstantProduct.reserveAfter i o x := by
    rw [wide.truncated_eq _ _ hn hadd hle, ConstantProduct.reserveAfter,
      Nat.ceilDiv_eq_add_pred_div]
  unfold ceilDivWide
  rw [ensure_pos hn.ne', ok_bind]
  dsimp only
  rw [hceil, ensure_pos ((ConstantProduct.reserveAfter_le hi).trans ho), ok_bind]
  rfl

theorem newOutputReserve_eq (hi : 0 < i) (ho : o ≤ u128Max) (hadd : i + x ≤ u128Max) :
    newOutputReserve wide i o (i + x) = .ok (ConstantProduct.reserveAfter i o x) := by
  unfold newOutputReserve checkedMul
  by_cases hk : i * o ≤ u128Max
  · rw [if_pos hk]
    dsimp only
    rw [ceilDiv_eq (by omega) hk]
    rfl
  · rw [if_neg hk]
    exact ceilDivWide_eq hi ho hadd

theorem simulatePoolLeg_eq (hi : 0 < i) (hile : i ≤ u128Max) (hopos : 0 < o) (ho : o ≤ u128Max) :
    simulatePoolLeg wide i o x 0 =
      if i + x ≤ u128Max then .ok (ConstantProduct.output i o x) else .error .invalidNumeric := by
  unfold simulatePoolLeg
  by_cases hz : x = 0
  · rw [if_pos hz, hz, Nat.add_zero, if_pos hile, ConstantProduct.output_zero hi]
  · rw [if_neg hz, ensure_pos ⟨hi.ne', hopos.ne'⟩, ok_bind]
    by_cases hadd : i + x ≤ u128Max
    · have hsum : i + x ≠ 0 := by omega
      rw [checkedAdd, if_pos hadd, orThrow_some, ok_bind, ensure_pos hsum, ok_bind,
        newOutputReserve_eq hi ho hadd, ok_bind]
      dsimp only
      rw [ensure_pos (Nat.sub_le _ _), ok_bind, if_pos hadd]
      simp [swapFeeAmount, ConstantProduct.output]
      rfl
    · rw [checkedAdd, if_neg hadd, if_neg hadd]
      rfl

end Pool

section Original

variable {wide : WideDivision} {leg : PoolLeg} {e n : ℕ}

theorem PoolLeg.reserves_le (leg : PoolLeg) :
    leg.reserveIn ≤ u128Max ∧ leg.reserveOut ≤ u128Max := by
  have h := leg.oriented
  unfold HopMirror.reserves at h
  have h0 := leg.mirror.reserve0_le
  have h1 := leg.mirror.reserve1_le
  split_ifs at h
  · obtain ⟨hin, hout⟩ := Prod.mk.inj (Option.some.inj h)
    omega
  · obtain ⟨hin, hout⟩ := Prod.mk.inj (Option.some.inj h)
    omega

/-- Both reserves hold something. -/
def PoolLeg.Funded (leg : PoolLeg) : Prop := 0 < leg.reserveIn ∧ 0 < leg.reserveOut

/-- The pair can be quoted and the offer's arithmetic fits. -/
def PoolLeg.Priced (leg : PoolLeg) (e : ℕ) : Prop :=
  leg.mirror.feeBps ≤ 10000 ∧
    (leg.mirror.freshness = .fresh ∨ leg.mirror.freshness = .emptyPool) ∧
    leg.reserveIn + e ≤ u128Max ∧ e * leg.reserveOut / leg.reserveIn ≤ u128Max

theorem idealOutput_eq (i o : ℕ) : idealOutput i o e =
    if e * o / i ≤ u128Max then .ok (e * o / i) else .error .invalidNumeric := by
  unfold idealOutput
  by_cases hz : e = 0
  · rw [if_pos hz, hz, Nat.zero_mul, Nat.zero_div, if_pos (Nat.zero_le _)]
  · rw [if_neg hz]
    by_cases hle : e * o / i ≤ u128Max
    · rw [ensure_pos hle, if_pos hle]
      rfl
    · rw [if_neg hle, ensure, if_neg hle]
      rfl

/-- The pool output before the hooks: the curve's, less the commission. -/
theorem original_eq_some (hf : leg.Funded) : leg.original wide e = some n ↔
    leg.Priced e ∧ n = ConstantProduct.net
      (ConstantProduct.output leg.reserveIn leg.reserveOut e) leg.mirror.feeBps := by
  obtain ⟨hile, hole⟩ := leg.reserves_le
  have hquote : leg.original wide e = some n ↔
      ∃ q, quoteLocalLeg wide leg.mirror leg.offer e = .ok q ∧ q.returnAmount = n := by
    rw [PoolLeg.original, Option.map_eq_some_iff]
    constructor
    · rintro ⟨q, hq, hn⟩
      exact ⟨q, toOption_eq_some.1 hq, hn⟩
    · rintro ⟨q, hq, hn⟩
      exact ⟨q, toOption_eq_some.2 hq, hn⟩
  rw [hquote]
  unfold quoteLocalLeg
  rw [leg.oriented]
  constructor
  · rintro ⟨q, hq, rfl⟩
    obtain ⟨_, hok, hq⟩ := bind_eq_ok.1 hq
    rw [ensure_eq_ok] at hok
    rw [orThrow_some, ok_bind, simulatePoolLeg_eq hf.1 hile hf.2 hole] at hq
    obtain ⟨gross, hgross, hq⟩ := bind_eq_ok.1 hq
    split_ifs at hgross with hadd
    · cases hgross
      obtain ⟨poolNet, hnet, hq⟩ := bind_eq_ok.1 hq
      obtain ⟨ideal, hideal, hq⟩ := bind_eq_ok.1 hq
      rw [idealOutput_eq] at hideal
      split_ifs at hideal with hfits
      · cases hideal
        cases hq
        rw [orThrow_eq_ok, checkedSub_eq_some, swapFeeAmount_eq hok.1] at hnet
        exact ⟨⟨hok.1, hok.2, hadd, hfits⟩, hnet.2⟩
  · rintro ⟨⟨hfee, hfresh, hadd, hfits⟩, rfl⟩
    have hfee' : checkedSub (ConstantProduct.output leg.reserveIn leg.reserveOut e)
        (swapFeeAmount (ConstantProduct.output leg.reserveIn leg.reserveOut e)
          leg.mirror.feeBps) =
        some (ConstantProduct.net (ConstantProduct.output leg.reserveIn leg.reserveOut e)
          leg.mirror.feeBps) := by
      rw [checkedSub_eq_some, swapFeeAmount_eq hfee]
      exact ⟨ConstantProduct.fee_le hfee, rfl⟩
    rw [ensure_pos ⟨hfee, hfresh⟩, ok_bind, orThrow_some, ok_bind,
      simulatePoolLeg_eq hf.1 hile hf.2 hole, if_pos hadd, ok_bind]
    dsimp only
    rw [hfee', orThrow_some, ok_bind, idealOutput_eq, if_pos hfits, ok_bind]
    exact ⟨_, rfl, rfl⟩

theorem Priced.of_le {d : ℕ} (h : leg.Priced e) (hle : d ≤ e) : leg.Priced d := by
  obtain ⟨hfee, hfresh, hadd, hfits⟩ := h
  refine ⟨hfee, hfresh, by omega, le_trans ?_ hfits⟩
  exact Nat.div_le_div_right (Nat.mul_le_mul_right _ hle)

theorem original_rising (hf : leg.Funded) : Rising (leg.original wide) := by
  intro x y b hxy hy
  obtain ⟨hpriced, rfl⟩ := (original_eq_some hf).1 hy
  refine ⟨_, ?_, (original_eq_some hf).2 ⟨Priced.of_le hpriced hxy, rfl⟩⟩
  exact ConstantProduct.net_mono hpriced.1 (ConstantProduct.output_mono hf.1 hxy)

theorem original_le (hf : leg.Funded) (h : leg.original wide e = some n) : n ≤ u128Max := by
  obtain ⟨-, rfl⟩ := (original_eq_some hf).1 h
  exact (Nat.sub_le _ _).trans ((Nat.sub_le _ _).trans leg.reserves_le.2)

/-- The offer that is derived for an output is the least whose curve gives it. -/
theorem inversePoolOffer_eq_some {i o fee wanted : ℕ}
    (h : inversePoolOffer i o fee wanted = some e) :
    fee < 10000 ∧ ∀ x, wanted ≤ ConstantProduct.net (ConstantProduct.output i o x) fee ↔ e ≤ x := by
  obtain ⟨_, hguard, h⟩ := Option.bind_eq_some_iff.1 h
  obtain ⟨_, -, h⟩ := Option.bind_eq_some_iff.1 h
  obtain ⟨d, hd, h⟩ := Option.bind_eq_some_iff.1 h
  obtain ⟨_, hdpos, h⟩ := Option.bind_eq_some_iff.1 h
  obtain ⟨_, -, h⟩ := Option.bind_eq_some_iff.1 h
  rw [Option.guard_eq_some'] at hguard hdpos
  rw [checkedSub_eq_some] at hd
  obtain ⟨hgle, rfl⟩ := hd
  cases h
  have hi : 0 < i := by omega
  have hfee : fee < 10000 := by omega
  have hwanted : 0 < wanted := by omega
  refine ⟨hfee, fun x => ?_⟩
  rw [ConstantProduct.le_net_iff hfee hwanted]
  generalize (wanted - 1) * 10000 / (10000 - fee) + 1 = gross at hgle hdpos ⊢
  have hlt : gross < o := by omega
  have hd : 0 < o - gross := by omega
  have hsplit : i * o = (o - gross) * i + i * gross := by
    rw [Nat.mul_comm (o - gross) i, ← Nat.mul_add]
    congr 1
    omega
  rw [ConstantProduct.le_output_iff hi hlt, ceilDiv_le_iff_le_mul hd,
    ← Nat.ceilDiv_eq_add_pred_div, ceilDiv_le_iff_le_mul hd, Nat.mul_add, hsplit]
  omega

end Original

section Tax

variable {bps amount gross lo hi steps target : ℕ}

theorem taxAmount_eq (hbps : bps ≤ 10000) : taxAmount amount bps = amount * bps / 10000 := by
  rw [← hookAmount_eq, taxAmount, hookAmount, min_eq_left hbps]

/-- The bracket keeps the greatest sale that the gross amount pays for. -/
theorem sellSearch_isGreatest (hgross : gross ≤ u128Max) (hbps : bps ≤ 10000) (hle : lo ≤ hi)
    (hwidth : hi - lo < 2 ^ steps) (hlo : charged lo bps ≤ gross)
    (hup : ∀ s, charged s bps ≤ gross → s ≤ hi) :
    IsGreatest {s | charged s bps ≤ gross} (sellSearch gross bps (steps + 1) lo hi) := by
  induction steps generalizing lo hi with
  | zero =>
      have heq : lo = hi := by
        rw [Nat.pow_zero] at hwidth
        omega
      rw [sellSearch, if_neg (by omega)]
      exact ⟨hlo, fun s hs => heq ▸ hup s hs⟩
  | succ steps ih =>
      rw [sellSearch]
      by_cases hlt : lo < hi
      · rw [if_pos hlt]
        dsimp only
        rw [Nat.pow_succ] at hwidth
        generalize hmid : lo + (hi - lo) / 2 + (hi - lo) % 2 = mid
        have htest : (∃ total ∈ checkedAdd mid (taxAmount mid bps), total ≤ gross) ↔
            charged mid bps ≤ gross := by
          rw [taxAmount_eq hbps]
          constructor
          · rintro ⟨total, htotal, hpaid⟩
            obtain ⟨-, rfl⟩ := checkedAdd_eq_some.1 htotal
            exact hpaid
          · intro hpaid
            exact ⟨_, checkedAdd_eq_some.2 ⟨hpaid.trans hgross, rfl⟩, hpaid⟩
        by_cases hpaid : charged mid bps ≤ gross
        · rw [if_pos (htest.2 hpaid)]
          exact ih (by omega) (by omega) hpaid hup
        · rw [if_neg (fun h => hpaid (htest.1 h))]
          apply ih (by omega) (by omega) hlo
          intro s hs
          by_contra hge
          have hmono : charged mid bps ≤ charged s bps := charged_mono (by omega)
          exact hpaid (hmono.trans hs)
      · rw [if_neg hlt]
        have heq : lo = hi := by omega
        exact ⟨hlo, fun s hs => heq ▸ hup s hs⟩

theorem sell_eq (hgross : gross ≤ u128Max) (hbps : bps ≤ 10000) :
    ∃ s tax left, sell gross bps = some (s, tax, left) ∧
      IsGreatest {s | charged s bps ≤ gross} s := by
  unfold sell
  rw [if_neg (not_lt.2 hbps)]
  by_cases hz : bps = 0
  · rw [if_pos hz]
    refine ⟨gross, 0, 0, rfl, ?_, ?_⟩
    · simp [hz, charged]
    · intro s hs
      simpa [hz, charged] using hs
  · rw [if_neg hz]
    have hwidth : gross - 0 < 2 ^ 128 := lt_of_le_of_lt hgross (by decide)
    have hgreatest : IsGreatest {s | charged s bps ≤ gross} (sellEconomic gross bps) := by
      apply sellSearch_isGreatest hgross hbps (Nat.zero_le _) hwidth
      · rw [charged_zero]
        exact Nat.zero_le _
      · exact fun s hs => (le_charged.trans hs)
    have hpaid : sellEconomic gross bps + taxAmount (sellEconomic gross bps) bps ≤ gross := by
      rw [taxAmount_eq hbps]
      exact hgreatest.1
    refine ⟨_, taxAmount (sellEconomic gross bps) bps,
      gross - (sellEconomic gross bps + taxAmount (sellEconomic gross bps) bps), ?_, hgreatest⟩
    dsimp only
    rw [checkedAdd, if_pos (hpaid.trans hgross), Option.bind_eq_bind, Option.bind_some, checkedSub,
      if_pos hpaid]
    rfl

theorem buy_eq_some {b : ℕ × ℕ} (h : buy amount bps = some b) :
    bps ≤ 10000 ∧ b.1 = ConstantProduct.net amount bps := by
  unfold buy at h
  split_ifs at h with hbps
  obtain ⟨net, hnet, h⟩ := Option.bind_eq_some_iff.1 h
  rw [checkedSub_eq_some, taxAmount_eq (not_lt.1 hbps)] at hnet
  cases h
  exact ⟨not_lt.1 hbps, hnet.2⟩

/-- The search never moves past a purchase that would do. -/
theorem buySearch_bound (hbps : bps ≤ 10000) {w a : ℕ}
    (h : buySearch target bps steps lo hi = some w) (hlo : lo ≤ a)
    (ha : target ≤ ConstantProduct.net a bps) : w ≤ a := by
  induction steps generalizing lo hi with
  | zero => cases h
  | succ steps ih =>
      unfold buySearch at h
      split_ifs at h with hlt
      · obtain ⟨b, hb, h⟩ := Option.bind_eq_some_iff.1 h
        have hnet := (buy_eq_some hb).2
        split_ifs at h with hreach
        · exact ih h hlo
        · apply ih h
          by_contra hle
          have hmono := ConstantProduct.net_mono hbps
            (show a ≤ lo + (hi - lo) / 2 by omega)
          omega
      · cases h
        exact hlo

/-- What is derived for a purchase bounds every one that delivers the target. -/
theorem inverseBuy_bound {w : ℕ} {b : ℕ × ℕ} (h : inverseBuy target bps = some w)
    (hb : buy amount bps = some b) (hreach : target ≤ b.1) : w ≤ amount := by
  obtain ⟨hbps, hnet⟩ := buy_eq_some hb
  rw [hnet] at hreach
  unfold inverseBuy at h
  by_cases hz : bps = 0
  · rw [if_pos hz] at h
    cases h
    exact hreach.trans (Nat.sub_le _ _)
  · rw [if_neg hz, if_neg (not_lt.2 hbps)] at h
    obtain ⟨most, -, h⟩ := Option.bind_eq_some_iff.1 h
    obtain ⟨_, -, h⟩ := Option.bind_eq_some_iff.1 h
    exact buySearch_bound hbps h (hreach.trans (Nat.sub_le _ _)) hreach

end Tax

end Cl8yDex.LocalQuote
