import Cl8yDex.OracleObserve
import Mathlib.Algebra.BigOperators.Intervals
import Mathlib.Logic.Relation

/-!
# What the oracle measures

A timeline records, for every second, the reserves in force at the end of its block. The stored
cumulatives are the sums of the floored spot prices along it, and `Observe` answers the same sum at
any target in the window, whatever the block it is asked in.
-/

namespace Cl8yDex

open Outcome RingBuffer Finset

/-- A spot price in atomics, rounded down. -/
def spotAtomics (num den : ℕ) : ℕ := num * Decimal.fractional / den

/-- Both spot prices fit a `Decimal` whenever both reserves are positive. -/
def SpotRepresentable (r : ℕ × ℕ) : Prop := r.1 ≠ 0 → r.2 ≠ 0 → spotPrices r.1 r.2 ≠ none

/-- The sums of the two spot prices over the seconds from `t₀` up to `t`. -/
def integral (path : ℕ → ℕ × ℕ) (t₀ t : ℕ) : ℕ × ℕ :=
  (∑ u ∈ Ico t₀ t, spotAtomics (path u).2 (path u).1,
    ∑ u ∈ Ico t₀ t, spotAtomics (path u).1 (path u).2)

structure Timeline where
  clock : ℕ
  oracle : Oracle
  reserves : ℕ × ℕ
  path : ℕ → ℕ × ℕ
  firstObservation : Option ℕ

namespace Timeline

def start (cardinality : ℕ) : Timeline where
  clock := 0
  oracle := ⟨⟨cardinality, 0, 0⟩, fun _ => none⟩
  reserves := (0, 0)
  path _ := (0, 0)
  firstObservation := none

/-- The timeline after a change of the reserves at the current clock. -/
def after (s : Timeline) (oracle : Oracle) (reserves : ℕ × ℕ) : Timeline where
  clock := s.clock
  oracle := oracle
  reserves := reserves
  path u := if u < s.clock then s.path u else reserves
  firstObservation :=
    if s.firstObservation = none ∧ oracle.state.cardinalityInitialized ≠ 0 then some s.clock
    else s.firstObservation

/-- Time passes, or the reserves change: after an update, and without emptying a pool that holds
both assets. -/
inductive Advances : Timeline → Timeline → Prop
  | tick {s : Timeline} (clock : ℕ) (ht : s.clock ≤ clock) : Advances s { s with clock := clock }
  | record {s : Timeline} (oracle : Oracle) (reserves : ℕ × ℕ)
      (hu : s.oracle.update s.clock s.reserves.1 s.reserves.2 = .ok oracle)
      (hspot : SpotRepresentable reserves)
      (hpos : s.reserves.1 ≠ 0 ∧ s.reserves.2 ≠ 0 → reserves.1 ≠ 0 ∧ reserves.2 ≠ 0) :
      Advances s (s.after oracle reserves)

/-- The later timelines, without a change of the ring's size. -/
abbrev Leads : Timeline → Timeline → Prop := Relation.ReflTransGen Advances

end Timeline

section Integral

variable {path path' : ℕ → ℕ × ℕ} {t₀ t t' : ℕ} {r : ℕ × ℕ}

theorem integral_congr (h : ∀ u, t₀ ≤ u → u < t → path' u = path u) :
    integral path' t₀ t = integral path t₀ t := by
  have hfst : ∀ u ∈ Ico t₀ t, spotAtomics (path' u).2 (path' u).1 =
      spotAtomics (path u).2 (path u).1 := fun u hu => by
    rw [h u (mem_Ico.1 hu).1 (mem_Ico.1 hu).2]
  have hsnd : ∀ u ∈ Ico t₀ t, spotAtomics (path' u).1 (path' u).2 =
      spotAtomics (path u).1 (path u).2 := fun u hu => by
    rw [h u (mem_Ico.1 hu).1 (mem_Ico.1 hu).2]
  exact Prod.ext (sum_congr rfl hfst) (sum_congr rfl hsnd)

/-- Over a stretch of constant reserves the integral grows linearly. -/
theorem integral_add (h₀ : t₀ ≤ t) (ht : t ≤ t') (h : ∀ u, t ≤ u → u < t' → path u = r) :
    integral path t₀ t' =
      ((integral path t₀ t).1 + spotAtomics r.2 r.1 * (t' - t),
        (integral path t₀ t).2 + spotAtomics r.1 r.2 * (t' - t)) := by
  have hconst : ∀ f : ℕ × ℕ → ℕ, ∑ u ∈ Ico t t', f (path u) = f r * (t' - t) := by
    intro f
    rw [sum_const_nat fun u hu => congrArg f (h u (mem_Ico.1 hu).1 (mem_Ico.1 hu).2),
      Nat.card_Ico, Nat.mul_comm]
  have hsplit : ∀ f : ℕ × ℕ → ℕ, ∑ u ∈ Ico t₀ t', f (path u) =
      ∑ u ∈ Ico t₀ t, f (path u) + f r * (t' - t) := by
    intro f
    rw [← hconst f, sum_Ico_consecutive _ h₀ ht]
  exact Prod.ext (hsplit fun r => spotAtomics r.2 r.1) (hsplit fun r => spotAtomics r.1 r.2)

theorem spotPrices_eq {a b : ℕ} {p : Decimal × Decimal} (h : Cl8yDex.spotPrices a b = some p) :
    p.1.atomics = spotAtomics b a ∧ p.2.atomics = spotAtomics a b := by
  obtain ⟨pa, ha, h⟩ := Option.bind_eq_some_iff.1 h
  obtain ⟨pb, hb, h⟩ := Option.bind_eq_some_iff.1 h
  cases h
  exact ⟨(Decimal.checkedFromRatio_eq_some.1 ha).2.2, (Decimal.checkedFromRatio_eq_some.1 hb).2.2⟩

end Integral

namespace Timeline

open Oracle

variable {cardinality : ℕ} {s : Timeline} {l : List Observation} {t₀ t : ℕ}

/-- An observation carries the integral from the first one to its own second. -/
def Carries (path : ℕ → ℕ × ℕ) (t₀ : ℕ) (x : Observation) : Prop :=
  t₀ ≤ x.timestamp ∧ (x.priceACumulative, x.priceBCumulative) = integral path t₀ x.timestamp

/-- The reserves do not change between two neighbours of the ring. -/
def Constant (path : ℕ → ℕ × ℕ) (x y : Observation) : Prop :=
  ∃ r, ∀ u, x.timestamp ≤ u → u < y.timestamp → path u = r

/-- The ring against the timeline, once there is an observation. -/
structure Recorded (s : Timeline) (l : List Observation) (t₀ : ℕ) (last : Observation) :
    Prop where
  first : s.firstObservation = some t₀
  newest : l.getLast? = some last
  carries : ∀ x ∈ l, Carries s.path t₀ x
  constant : l.IsChain (Constant s.path)
  last_le : last.timestamp ≤ s.clock
  live : ∀ u, last.timestamp ≤ u → s.path u = s.reserves
  pos : s.reserves.1 ≠ 0 ∧ s.reserves.2 ≠ 0

/-- What every timeline keeps. -/
structure Invariant (cardinality : ℕ) (s : Timeline) (l : List Observation) : Prop where
  retains : s.oracle.Retains l
  cardinality : s.oracle.state.cardinality = cardinality
  spot : SpotRepresentable s.reserves
  recorded : l = [] ∧ s.firstObservation = none ∨ ∃ t₀ last, s.Recorded l t₀ last

theorem Carries.after {path : ℕ → ℕ × ℕ} {x : Observation} {r : ℕ × ℕ} (h : Carries path t₀ x)
    (hx : x.timestamp ≤ t) : Carries (fun u => if u < t then path u else r) t₀ x := by
  refine ⟨h.1, h.2.trans ?_⟩
  exact integral_congr fun u _ hu => (if_pos (lt_of_lt_of_le hu hx)).symm

theorem Constant.after {path : ℕ → ℕ × ℕ} {x y : Observation} {r : ℕ × ℕ}
    (h : Constant path x y) (hy : y.timestamp ≤ t) :
    Constant (fun u => if u < t then path u else r) x y := by
  obtain ⟨r', hr'⟩ := h
  refine ⟨r', fun u hx hu => ?_⟩
  change (if u < t then path u else r) = r'
  rw [if_pos (lt_of_lt_of_le hu hy), hr' u hx hu]

theorem Recorded.of_idle {last : Observation} {r : ℕ × ℕ} (h : s.Recorded l t₀ last)
    (hr : s.oracle.Retains l) (hclock : s.clock ≤ last.timestamp)
    (hpos : r.1 ≠ 0 ∧ r.2 ≠ 0) : (s.after s.oracle r).Recorded l t₀ last := by
  have hold : ∀ x ∈ l, x.timestamp ≤ s.clock := fun x hx =>
    (hr.timestamp_le h.newest hx).trans h.last_le
  refine ⟨?_, h.newest, fun x hx => (h.carries x hx).after (hold x hx), ?_, h.last_le,
    fun u hu => if_neg (not_lt.2 (hclock.trans hu)), hpos⟩
  · change (if _ then _ else _) = _
    rw [if_neg (by rw [h.first]; simp), h.first]
  · exact h.constant.imp_of_mem_imp fun x y _ hy hxy => hxy.after (hold y hy)

/-- The invariant over a change of the reserves. -/
theorem Invariant.record (h : s.Invariant cardinality l) {oracle : Oracle} {r : ℕ × ℕ}
    (hu : s.oracle.update s.clock s.reserves.1 s.reserves.2 = .ok oracle)
    (hspot : SpotRepresentable r)
    (hpos : s.reserves.1 ≠ 0 ∧ s.reserves.2 ≠ 0 → r.1 ≠ 0 ∧ r.2 ≠ 0) :
    ∃ l', (s.after oracle r).Invariant cardinality l' := by
  rcases (h.retains.update _ _ _).success hu with ⟨rfl, hidle⟩ | ⟨obs, ⟨ha, hb, hf⟩, hw⟩
  · refine ⟨l, h.retains, h.cardinality, hspot, ?_⟩
    rcases h.recorded with ⟨rfl, hnone⟩ | ⟨t₀, last, hrec⟩
    · refine .inl ⟨rfl, ?_⟩
      change (if _ then _ else _) = _
      rw [if_neg (by rw [← h.retains.length]; simp), hnone]
    · refine .inr ⟨t₀, last, hrec.of_idle h.retains ?_ (hpos hrec.pos)⟩
      rcases hidle with hz | hz | ⟨x, hx, ht | hz⟩
      · exact absurd hz hrec.pos.1
      · exact absurd hz hrec.pos.2
      · rw [hrec.newest, Option.mem_def, Option.some.injEq] at hx
        exact hx ▸ ht
      · exact absurd hz (h.spot hrec.pos.1 hrec.pos.2)
  · refine ⟨_, hw.retains, hw.cardinality.trans h.cardinality, hspot, .inr ?_⟩
    have hr := hpos ⟨ha, hb⟩
    have hinit : oracle.state.cardinalityInitialized ≠ 0 := by
      rw [← hw.retains.length]
      exact fun hl => push_ne_nil (List.length_eq_zero_iff.1 hl)
    rcases h.recorded with ⟨rfl, hnone⟩ | ⟨t₀, last, hrec⟩
    · have hobs : obs = ⟨s.clock, 0, 0⟩ := hf
      have hpush : push s.oracle.state.cardinality [] obs = [obs] := by
        unfold push
        split_ifs <;> rfl
      rw [hpush]
      subst hobs
      refine ⟨s.clock, _, ?_, rfl, ?_, .singleton _, le_rfl, fun u hu => if_neg (not_lt.2 hu), hr⟩
      · change (if _ then _ else _) = _
        rw [if_pos ⟨hnone, hinit⟩]
      · intro x hx
        rw [List.mem_singleton.1 hx]
        exact ⟨le_rfl, by simp [integral]⟩
    · simp only [hrec.newest] at hf
      obtain ⟨hlt, prices, hp, hobs⟩ := hf
      have hold : ∀ x ∈ l, x.timestamp ≤ s.clock := fun x hx =>
        (h.retains.timestamp_le hrec.newest hx).trans hrec.last_le
      have hts : obs.timestamp = s.clock := by rw [hobs]
      have hlast := hrec.carries last (List.mem_of_getLast? hrec.newest)
      -- the new cumulatives continue the integral at the reserves that were in force
      have hcarry : Carries s.path t₀ obs := by
        refine ⟨hlast.1.trans (by rw [hts]; exact hlt.le), ?_⟩
        rw [hts, integral_add hlast.1 hlt.le (fun u hu _ => hrec.live u hu), ← hlast.2, hobs,
          (spotPrices_eq hp).1, (spotPrices_eq hp).2]
      have hconst : (push s.oracle.state.cardinality l obs).IsChain (Constant s.path) := by
        refine isChain_push hrec.constant fun x hx => ?_
        rw [hrec.newest, Option.mem_def, Option.some.injEq] at hx
        subst hx
        exact ⟨s.reserves, fun u hu _ => hrec.live u hu⟩
      have hle : ∀ x ∈ push s.oracle.state.cardinality l obs, x.timestamp ≤ s.clock := by
        intro x hx
        rcases mem_push hx with hx | rfl
        · exact hold x hx
        · exact hts.le
      refine ⟨t₀, obs, ?_, getLast?_push, ?_, ?_, hts.le, fun u hu => if_neg ?_, hr⟩
      · change (if _ then _ else _) = _
        rw [if_neg (by rw [hrec.first]; simp), hrec.first]
      · intro x hx
        refine Carries.after ?_ (hle x hx)
        rcases mem_push hx with hx | rfl
        · exact hrec.carries x hx
        · exact hcarry
      · exact hconst.imp_of_mem_imp fun x y _ hy hxy => hxy.after (hle y hy)
      · rw [hts] at hu
        exact not_lt.2 hu

/-- Interpolation between two neighbours is the integral, without a remainder. -/
theorem Carries.blend {path : ℕ → ℕ × ℕ} {x y : Observation} (hx : Carries path t₀ x)
    (hy : Carries path t₀ y) (hc : Constant path x y) (hlo : x.timestamp ≤ t)
    (hhi : t < y.timestamp) : blend x y t = integral path t₀ t := by
  obtain ⟨r, hr⟩ := hc
  have hspan : 0 < y.timestamp - x.timestamp := by omega
  have hall := integral_add hx.1 (hlo.trans hhi.le) hr
  have hpart := integral_add hx.1 hlo fun u hu hut => hr u hu (hut.trans hhi)
  rw [← hx.2] at hall hpart
  rw [← hy.2, Prod.mk.injEq] at hall
  have hscale : ∀ c p d dt span : ℕ, 0 < span → d = c + p * span →
      c + (d - c) * dt / span = c + p * dt := by
    intro c p d dt span hs hd
    rw [hd, Nat.add_sub_cancel_left, Nat.mul_right_comm, Nat.mul_div_cancel _ hs]
  rw [hpart, Oracle.blend]
  exact Prod.ext (hscale _ _ _ _ _ hspan hall.1) (hscale _ _ _ _ _ hspan hall.2)

/-- The oldest retained observation is not newer than the target. -/
def Covers (s : Timeline) (target : ℕ) : Prop :=
  ∃ x ∈ s.oracle.observations (oldestSlot s.oracle.state), x.timestamp ≤ target

theorem Invariant.oldest (h : s.Invariant cardinality l) (hl : 0 < l.length) :
    s.oracle.observations (oldestSlot s.oracle.state) = some l[0] := by
  have h0 := h.retains.holds.get hl
  rwa [Nat.add_zero, Nat.mod_eq_of_lt (oldestSlot_lt h.retains)] at h0

/-- From the newest observation on, a horizon is answered whatever the ring. -/
theorem Invariant.observeLive {last : Observation} (h : s.Invariant cardinality l)
    (hrec : s.Recorded l t₀ last) {blockTime secondsAgo : ℕ} (hclock : s.clock ≤ blockTime)
    (hmax : blockTime ≤ u64Max) (hsa : secondsAgo ≤ blockTime)
    (hnow : secondsAgo = 0 ∨ last.timestamp ≤ blockTime - secondsAgo) :
    s.oracle.observeSingle blockTime secondsAgo last s.reserves.1 s.reserves.2 =
      .ok (integral s.path t₀ (blockTime - secondsAgo)) := by
  set target := blockTime - secondsAgo with htarget
  have hmem := List.mem_of_getLast? hrec.newest
  have hlast := hrec.carries last hmem
  have hle : last.timestamp ≤ target := by
    rcases hnow with rfl | hle
    · exact hrec.last_le.trans hclock
    · exact hle
  simp only [Oracle.observeSingle, if_pos hsa, orThrow, ok_bind]
  rw [← htarget, if_pos hnow]
  have hext := integral_add hlast.1 hle fun u hu _ => hrec.live u hu
  by_cases hsame : target = last.timestamp
  · rw [if_pos (.inl hsame), hsame, ← hlast.2]
    rfl
  · rw [if_neg (by rintro (h1 | h1 | h1) <;> [exact hsame h1; exact hrec.pos.1 h1;
      exact hrec.pos.2 h1])]
    cases hp : spotPrices s.reserves.1 s.reserves.2 with
    | none => exact absurd hp (h.spot hrec.pos.1 hrec.pos.2)
    | some prices =>
        have hspec := extrapolate_spec (target - last.timestamp)
          (h.retains.bounded last hmem) (spotPrices_le hp)
        rw [hext, ← hlast.2, ← (spotPrices_eq hp).1, ← (spotPrices_eq hp).2]
        cases hex : extrapolate last prices (target - last.timestamp) with
        | error e =>
            have := hspec.failure hex
            omega
        | ok c =>
            obtain rfl := hspec.success hex
            exact hex

/-- One horizon of an addressable ring answers the integral. -/
theorem Invariant.observeSingle {last : Observation} (h : s.Invariant cardinality l)
    (hrec : s.Recorded l t₀ last) (hfit : s.oracle.Addressable) {blockTime secondsAgo : ℕ}
    (hclock : s.clock ≤ blockTime) (hmax : blockTime ≤ u64Max) (hsa : secondsAgo ≤ blockTime)
    (hcov : s.Covers (blockTime - secondsAgo)) :
    s.oracle.observeSingle blockTime secondsAgo last s.reserves.1 s.reserves.2 =
      .ok (integral s.path t₀ (blockTime - secondsAgo)) := by
  by_cases hnow : secondsAgo = 0 ∨ last.timestamp ≤ blockTime - secondsAgo
  · exact h.observeLive hrec hclock hmax hsa hnow
  · set target := blockTime - secondsAgo with htarget
    have hmem := List.mem_of_getLast? hrec.newest
    have hlast_max : last.timestamp ≤ u64Max := hrec.last_le.trans (hclock.trans hmax)
    obtain ⟨hago, hlt⟩ := not_or.1 hnow
    simp only [Oracle.observeSingle, if_pos hsa, orThrow, ok_bind]
    rw [← htarget, if_neg hnow]
    have hne : l ≠ [] := List.ne_nil_of_mem hmem
    have hlen : 0 < l.length := List.length_pos_of_ne_nil hne
    have hgl : l.getLast hne = last := by
      have hnew := hrec.newest
      rw [List.getLast?_eq_some_getLast hne] at hnew
      exact Option.some.inj hnew
    obtain ⟨x, hx, hold⟩ := hcov
    rw [h.oldest hlen, Option.mem_def, Option.some.injEq] at hx
    subst hx
    obtain ⟨k, hk, hlo, hhi, hwin⟩ := observeWindow_eq last h.retains hfit hne
      blockTime secondsAgo (show _ ≤ target by rwa [List.head_eq_getElem hne])
      (by rw [hgl]; exact not_le.1 hlt) (by rw [hgl]; exact hlast_max)
    rw [hwin]
    have hconst := List.isChain_iff_getElem.1 hrec.constant k hk
    rw [(hrec.carries _ (List.getElem_mem _)).blend (hrec.carries _ (List.getElem_mem _)) hconst
      hlo hhi]

theorem Invariant.advance {s' : Timeline} (h : s.Invariant cardinality l) (hs : s.Advances s') :
    ∃ l', s'.Invariant cardinality l' := by
  cases hs with
  | tick clock ht =>
      refine ⟨l, h.retains, h.cardinality, h.spot, ?_⟩
      rcases h.recorded with hnone | ⟨t₀, last, hrec⟩
      · exact .inl hnone
      · exact .inr ⟨t₀, last, hrec.first, hrec.newest, hrec.carries, hrec.constant,
          hrec.last_le.trans ht, hrec.live, hrec.pos⟩
  | record oracle r hu hspot hpos => exact h.record hu hspot hpos

/-- Every timeline keeps the invariant. -/
theorem Leads.invariant {s' : Timeline} (h : s.Leads s')
    (hinv : ∃ l, s.Invariant cardinality l) : ∃ l, s'.Invariant cardinality l := by
  induction h with
  | refl => exact hinv
  | tail _ hs ih =>
      obtain ⟨l, hl⟩ := ih
      exact hl.advance hs

theorem invariant_start (hpos : 0 < cardinality) (hcard : cardinality ≤ maxObservationCardinality) :
    (start cardinality).Invariant cardinality [] :=
  ⟨Retains.initial hpos hcard, rfl, fun h => absurd rfl h, .inl ⟨rfl, rfl⟩⟩

/-- A later timeline does not rewrite the seconds that have passed. -/
theorem Leads.past {s' : Timeline} (h : s.Leads s') : s.clock ≤ s'.clock ∧
    (∀ u, u < s.clock → s'.path u = s.path u) ∧
    ∀ t₀ ∈ s.firstObservation, s'.firstObservation = some t₀ := by
  induction h with
  | refl => exact ⟨le_rfl, fun _ _ => rfl, fun _ h => h⟩
  | tail _ hs ih =>
      obtain ⟨hclock, hpath, hfirst⟩ := ih
      cases hs with
      | tick clock ht => exact ⟨hclock.trans ht, hpath, hfirst⟩
      | record oracle r =>
          refine ⟨hclock, fun u hu => (if_pos (lt_of_lt_of_le hu hclock)).trans (hpath u hu),
            fun t₀ ht₀ => ?_⟩
          change (if _ then _ else _) = _
          rw [if_neg (by rw [hfirst t₀ ht₀]; simp), hfirst t₀ ht₀]

/-- `Observe` answers the integral for every target in the window, at every later block time. -/
def Answers (s : Timeline) : Prop :=
  ∀ t₀ ∈ s.firstObservation, ∀ blockTime secondsAgo, s.clock ≤ blockTime → blockTime ≤ u64Max →
    (∀ sa ∈ secondsAgo, sa ≤ blockTime ∧ s.Covers (blockTime - sa)) →
    s.oracle.queryObserve blockTime s.reserves.1 s.reserves.2 secondsAgo =
      .ok (secondsAgo.map fun sa => integral s.path t₀ (blockTime - sa))

theorem mapM_eq_ok {α β : Type} {f : α → Except ContractError β} {g : α → β} {as : List α}
    (h : ∀ a ∈ as, f a = .ok (g a)) : as.mapM f = .ok (as.map g) := by
  induction as with
  | nil => rfl
  | cons a as ih =>
      rw [List.mapM_cons, h a (List.mem_cons_self ..), ok_bind,
        ih fun b hb => h b (List.mem_cons_of_mem a hb), ok_bind]
      rfl

/-- The query answers the integrals if each of its horizons does. -/
theorem Invariant.queryObserve (h : s.Invariant cardinality l) (ht₀ : s.firstObservation = some t₀)
    {blockTime : ℕ} {secondsAgo : List ℕ}
    (hall : ∀ last, s.Recorded l t₀ last → ∀ sa ∈ secondsAgo,
      s.oracle.observeSingle blockTime sa last s.reserves.1 s.reserves.2 =
        .ok (integral s.path t₀ (blockTime - sa))) :
    s.oracle.queryObserve blockTime s.reserves.1 s.reserves.2 secondsAgo =
      .ok (secondsAgo.map fun sa => integral s.path t₀ (blockTime - sa)) := by
  rcases h.recorded with ⟨-, hnone⟩ | ⟨t₁, last, hrec⟩
  · rw [hnone] at ht₀
    cases ht₀
  · obtain rfl : t₁ = t₀ := Option.some.inj (hrec.first.symm.trans ht₀)
    have hn : s.oracle.state.cardinalityInitialized ≠ 0 := by
      rw [← h.retains.length]
      exact fun hl => List.ne_nil_of_mem (List.mem_of_getLast? hrec.newest)
        (List.length_eq_zero_iff.1 hl)
    simp only [Oracle.queryObserve, ensure, if_pos hn, ok_bind, Oracle.load, h.retains.latest,
      hrec.newest, orThrow]
    exact mapM_eq_ok (hall last hrec)

/-- The ring is read in full exactly when its positions fit sixteen bits. -/
theorem Invariant.answers_iff (h : s.Invariant cardinality l) (hmax : s.clock ≤ u64Max) :
    s.Answers ↔ s.oracle.Addressable := by
  constructor
  · intro hans
    by_contra hfit
    have hlen : 2 ≤ l.length := by
      by_contra hlt
      refine hfit ?_
      have h1 := oldestSlot_lt h.retains
      have h2 := h.retains.card_le
      have h3 := maxObservationCardinality_lt
      rw [Addressable, ← h.retains.length]
      omega
    rcases h.recorded with ⟨rfl, -⟩ | ⟨t₀, last, hrec⟩
    · simp at hlen
    set T := l[l.length - 2].timestamp with hT
    have hsorted := List.pairwise_iff_getElem.1 h.retains.sorted
    have hTlast : T < last.timestamp := by
      have hlt := (hsorted (l.length - 2) (l.length - 1) (by omega) (by omega) (by omega)).1
      have hnew := hrec.newest
      rw [List.getLast?_eq_getElem?, List.getElem?_eq_getElem (by omega)] at hnew
      rwa [Option.some.inj hnew] at hlt
    have hTclock : T ≤ s.clock := hTlast.le.trans hrec.last_le
    have hback : s.clock - (s.clock - T) = T := by omega
    have hcov : s.Covers T := by
      refine ⟨_, h.oldest (by omega), ?_⟩
      rcases (show 0 = l.length - 2 ∨ 0 < l.length - 2 by omega) with he | hlt
      · rw [hT]
        simp only [← he]
        exact le_rfl
      · exact (hsorted 0 (l.length - 2) (by omega) (by omega) hlt).1.le
    have hq := hans t₀ hrec.first s.clock [s.clock - T] le_rfl hmax (by
      intro sa hsa
      rw [List.mem_singleton.1 hsa, hback]
      exact ⟨Nat.sub_le _ _, hcov⟩)
    have hobs : s.oracle.observeSingle s.clock (s.clock - T) last s.reserves.1 s.reserves.2 =
        .error (.abort .ringIndex) := by
      have hlast := hrec.last_le
      simp only [Oracle.observeSingle, if_pos (Nat.sub_le s.clock T), orThrow, ok_bind, hback]
      rw [if_neg (by omega), hT]
      exact observeWindow_abort h.retains hfit hlen _ _
    have hn : s.oracle.state.cardinalityInitialized ≠ 0 := by
      rw [← h.retains.length]
      omega
    simp only [Oracle.queryObserve, ensure, if_pos hn, ok_bind, Oracle.load, h.retains.latest,
      hrec.newest, orThrow, List.mapM_cons, hobs] at hq
    cases hq
  · intro hfit t₀ ht₀ blockTime secondsAgo hclock hbt hsa
    exact h.queryObserve ht₀ fun last hrec sa hmem =>
      h.observeSingle hrec hfit hclock hbt (hsa sa hmem).1 (hsa sa hmem).2

/-- Asking for a second when it is now, or later while it is still in the window, gives one
answer. -/
theorem Answers.stable {r : Timeline} {blockTime : ℕ} (h : s.Answers)
    (hr : r.Invariant cardinality l) (hlead : r.Leads s) (ht₀ : r.firstObservation = some t₀)
    (hcov : s.Covers r.clock) (hlater : s.clock ≤ blockTime) (hmax : blockTime ≤ u64Max) :
    r.oracle.queryObserve r.clock r.reserves.1 r.reserves.2 [0] =
      s.oracle.queryObserve blockTime s.reserves.1 s.reserves.2 [blockTime - r.clock] := by
  obtain ⟨hle, hpath, hfirst⟩ := hlead.past
  have hclock : r.clock ≤ blockTime := hle.trans hlater
  have hback : blockTime - (blockTime - r.clock) = r.clock := by omega
  have hsum : integral s.path t₀ r.clock = integral r.path t₀ r.clock :=
    integral_congr fun u _ hu => hpath u hu
  have hnow : r.oracle.queryObserve r.clock r.reserves.1 r.reserves.2 [0] =
      .ok ([0].map fun sa => integral r.path t₀ (r.clock - sa)) := by
    refine hr.queryObserve ht₀ fun last hrec sa hmem => ?_
    obtain rfl := List.mem_singleton.1 hmem
    exact hr.observeLive hrec le_rfl (hclock.trans hmax) (Nat.zero_le _) (.inl rfl)
  have hwin : ∀ sa ∈ [blockTime - r.clock], sa ≤ blockTime ∧ s.Covers (blockTime - sa) := by
    intro sa hmem
    obtain rfl := List.mem_singleton.1 hmem
    exact ⟨Nat.sub_le _ _, by rwa [hback]⟩
  rw [h t₀ (hfirst t₀ ht₀) blockTime _ hlater hmax hwin, hnow]
  simp only [List.map_cons, List.map_nil, hback, Nat.sub_zero, hsum]

end Timeline

end Cl8yDex
