import Cl8yDex.Oracle
import Cl8yDex.RingBuffer
import Mathlib.Data.Set.Basic

/-!
# The observation ring keeps its order

While it fills, and after it has wrapped, the ring holds the newest observations in chronological
order. Growing it in place keeps that order only when it is read from slot zero.
-/

namespace Cl8yDex

open Outcome RingBuffer

def Observation.Precedes (a b : Observation) : Prop :=
  a.timestamp < b.timestamp ∧ a.priceACumulative ≤ b.priceACumulative ∧
    a.priceBCumulative ≤ b.priceBCumulative

theorem Observation.Precedes.trans {a b c : Observation} (h : a.Precedes b) (h' : b.Precedes c) :
    a.Precedes c :=
  ⟨h.1.trans h'.1, h.2.1.trans h'.2.1, h.2.2.trans h'.2.2⟩

namespace Oracle

/-- The slot that `oldestIdx` answers. -/
def oldestSlot (s : OracleState) : ℕ :=
  if s.cardinalityInitialized < s.cardinality then 0 else (s.index + 1) % s.cardinality

/-- The ring as the observer reads it, oldest slot first. -/
def ringSlots (s : OracleState) : List ℕ :=
  (List.range s.cardinalityInitialized).map fun k => (oldestSlot s + k) % s.cardinality

/-- The ring retains the observations `l`, oldest first. -/
structure Retains (o : Oracle) (l : List Observation) : Prop where
  pos : 0 < o.state.cardinality
  card_le : o.state.cardinality ≤ maxObservationCardinality
  length : l.length = o.state.cardinalityInitialized
  length_le : l.length ≤ o.state.cardinality
  holds : Holds o.observations o.state.cardinality (oldestSlot o.state) l
  newest : o.state.index = (oldestSlot o.state + (l.length - 1)) % o.state.cardinality
  unused : ∀ i, l.length ≤ i → o.observations i = none
  sorted : l.Pairwise Observation.Precedes
  bounded : ∀ a ∈ l, a.priceACumulative ≤ u128Max * a.timestamp ∧
    a.priceBCumulative ≤ u128Max * a.timestamp

variable {o o' : Oracle} {l : List Observation} {last obs : Observation} {t a b n : ℕ}
  {prices : Decimal × Decimal}

theorem Retains.initial {card : ℕ} (hpos : 0 < card) (hcard : card ≤ maxObservationCardinality) :
    Retains ⟨⟨card, 0, 0⟩, fun _ => none⟩ [] where
  pos := hpos
  card_le := hcard
  length := rfl
  length_le := Nat.zero_le _
  holds := .nil
  newest := by simp [oldestSlot, hpos]
  unused _ _ := rfl
  sorted := .nil
  bounded := by simp

theorem oldestSlot_of_full (h : o.Retains l) (hl : l.length = o.state.cardinality) :
    oldestSlot o.state = (o.state.index + 1) % o.state.cardinality :=
  if_neg (by rw [← h.length, hl]; exact lt_irrefl _)

theorem oldestSlot_of_room (h : o.Retains l) (hl : l.length < o.state.cardinality) :
    oldestSlot o.state = 0 :=
  if_pos (by rwa [← h.length])

theorem oldestSlot_lt (h : o.Retains l) : oldestSlot o.state < o.state.cardinality := by
  unfold oldestSlot
  split_ifs
  · exact h.pos
  · exact Nat.mod_lt _ h.pos

theorem index_lt (h : o.Retains l) : o.state.index < o.state.cardinality := by
  rw [h.newest]
  exact Nat.mod_lt _ h.pos

theorem maxObservationCardinality_lt : maxObservationCardinality < u16Max := by
  decide

/-- Sixteen bits hold every index plus one. -/
theorem index_succ (h : o.Retains l) : addU16 o.state.index 1 = .ok (o.state.index + 1) := by
  have h1 := index_lt h
  have h2 := h.card_le
  have h3 := maxObservationCardinality_lt
  unfold addU16
  rw [if_pos (by omega)]

theorem oldestIdx_eq (h : o.Retains l) : oldestIdx o.state = .ok (oldestSlot o.state) := by
  unfold oldestIdx oldestSlot
  split_ifs
  · rfl
  · rw [index_succ h]
    rfl

theorem nextIndex_eq (h : o.Retains l) : nextIndex o.state =
    .ok ((oldestSlot o.state + l.length) % o.state.cardinality) := by
  unfold nextIndex
  by_cases hroom : o.state.cardinalityInitialized < o.state.cardinality
  · rw [if_pos hroom, oldestSlot_of_room h (by rwa [h.length]), Nat.zero_add,
      Nat.mod_eq_of_lt (by rwa [h.length]), h.length]
  · have hfull : l.length = o.state.cardinality :=
      le_antisymm h.length_le (by rw [h.length]; exact not_lt.1 hroom)
    rw [if_neg hroom, index_succ h, hfull, Nat.add_mod_right, Nat.mod_eq_of_lt (oldestSlot_lt h),
      oldestSlot_of_full h hfull]
    rfl

/-- The newest observation is the one stored at the index. -/
theorem Retains.latest (h : o.Retains l) : o.observations o.state.index = l.getLast? := by
  rw [List.getLast?_eq_getElem?]
  cases l with
  | nil =>
      rw [h.unused _ (Nat.zero_le _)]
      rfl
  | cons x l =>
      rw [h.newest, h.holds ((x :: l).length - 1) (by simp)]

/-- The ring after a write at the next index. -/
theorem Retains.write (h : o.Retains l) {s' : OracleState}
    (hcard : s'.cardinality = o.state.cardinality)
    (hidx : s'.index = (oldestSlot o.state + l.length) % o.state.cardinality)
    (hinit : s'.cardinalityInitialized =
      if l.length < o.state.cardinality then l.length + 1 else l.length)
    (hord : ∀ x ∈ l, x.Precedes obs) (hbound : obs.priceACumulative ≤ u128Max * obs.timestamp ∧
      obs.priceBCumulative ≤ u128Max * obs.timestamp) :
    Retains ⟨s', Function.update o.observations
      ((oldestSlot o.state + l.length) % o.state.cardinality) (some obs)⟩
      (push o.state.cardinality l obs) := by
  have hlen := length_push (a := obs) h.pos h.length_le
  have hslot : oldestSlot s' = if l.length < o.state.cardinality then 0
      else (oldestSlot o.state + 1) % o.state.cardinality := by
    change (if s'.cardinalityInitialized < s'.cardinality then 0
      else (s'.index + 1) % s'.cardinality) = _
    rw [hinit, hcard, hidx]
    by_cases hroom : l.length < o.state.cardinality
    · simp only [if_pos hroom, oldestSlot_of_room h hroom, Nat.zero_add, Nat.mod_eq_of_lt hroom]
      by_cases hfull : l.length + 1 < o.state.cardinality
      · rw [if_pos hfull]
      · rw [if_neg hfull, show l.length + 1 = o.state.cardinality by omega, Nat.mod_self]
    · have hfull : l.length = o.state.cardinality := le_antisymm h.length_le (not_lt.1 hroom)
      rw [if_neg hroom, if_neg hroom, if_neg hroom, hfull, Nat.add_mod_right, Nat.mod_add_mod]
  constructor
  · exact hcard ▸ h.pos
  · exact hcard ▸ h.card_le
  · rw [hlen, hinit]
  · rw [hlen, hcard]
    have := h.length_le
    split_ifs <;> omega
  · change Holds _ s'.cardinality (oldestSlot s') _
    rw [hcard, hslot]
    unfold push
    by_cases hroom : l.length < o.state.cardinality
    · have hzero := oldestSlot_of_room h hroom
      rw [if_pos hroom, if_pos hroom]
      have hh := h.holds.push (a := obs) hroom
      rwa [hzero] at hh ⊢
    · have hfull : l.length = o.state.cardinality := le_antisymm h.length_le (not_lt.1 hroom)
      rw [if_neg hroom, if_neg hroom, holds_mod]
      cases l with
      | nil => exact absurd h.pos (by rw [← hfull]; exact lt_irrefl _)
      | cons x l =>
          have hh := h.holds.rotate (a := obs) hfull
          rw [hfull, Nat.add_mod_right]
          exact hh
  · change s'.index = (oldestSlot s' + _) % s'.cardinality
    rw [hidx, hcard, hslot, hlen]
    by_cases hroom : l.length < o.state.cardinality
    · rw [if_pos hroom, if_pos hroom, oldestSlot_of_room h hroom, Nat.add_sub_cancel]
    · have hfull : l.length = o.state.cardinality := le_antisymm h.length_le (not_lt.1 hroom)
      have hpos := h.pos
      rw [if_neg hroom, if_neg hroom, Nat.mod_add_mod]
      congr 1
      omega
  · intro i hi
    rw [hlen] at hi
    have hlt : (oldestSlot o.state + l.length) % o.state.cardinality < i ∨
        (¬l.length < o.state.cardinality ∧ l.length ≤ i) := by
      by_cases hroom : l.length < o.state.cardinality
      · rw [if_pos hroom] at hi
        rw [oldestSlot_of_room h hroom, Nat.zero_add, Nat.mod_eq_of_lt hroom]
        exact .inl hi
      · rw [if_neg hroom] at hi
        exact .inr ⟨hroom, hi⟩
    have hmod := Nat.mod_lt (oldestSlot o.state + l.length) h.pos
    change Function.update o.observations _ _ i = none
    rw [Function.update_of_ne (by rcases hlt with hlt | hlt <;> omega)]
    refine h.unused i ?_
    split_ifs at hi <;> omega
  · exact pairwise_push h.sorted hord
  · intro x hx
    rcases mem_push hx with hx | rfl
    · exact h.bounded x hx
    · exact hbound

theorem spotPrices_le (h : spotPrices a b = some prices) :
    prices.1.atomics ≤ u128Max ∧ prices.2.atomics ≤ u128Max := by
  obtain ⟨pa, ha, h⟩ := Option.bind_eq_some_iff.1 h
  obtain ⟨pb, hb, h⟩ := Option.bind_eq_some_iff.1 h
  cases h
  rw [Decimal.checkedFromRatio_eq_some] at ha hb
  exact ⟨ha.2.2 ▸ ha.2.1, hb.2.2 ▸ hb.2.1⟩

/-- A cumulative that is bounded at one time stays bounded at a later one. -/
theorem cumulative_le {c p : ℕ} (dt : ℕ) (hc : c ≤ u128Max * t) (hp : p ≤ u128Max) :
    c + p * dt ≤ u128Max * (t + dt) := by
  rw [Nat.mul_add]
  exact Nat.add_le_add hc (Nat.mul_le_mul_right dt hp)

theorem cumulative_fits {c : ℕ} (hc : c ≤ u128Max * t) (ht : t ≤ u64Max) : c ≤ u256Max := by
  have h1 : u128Max * t ≤ u128Max * u64Max := Nat.mul_le_mul_left _ ht
  have h2 : u128Max * u64Max ≤ u256Max := by decide
  omega

theorem addPriceCumulative_spec {c p dt : ℕ} (label : String) (hc : c ≤ u128Max * t)
    (hp : p ≤ u128Max) :
    Meets (addPriceCumulative c (p * dt) label) (fun d => d = c + p * dt)
      (fun _ => u64Max < t + dt) := by
  unfold addPriceCumulative checkedAdd256
  by_cases hfit : c + p * dt ≤ u256Max
  · rw [if_pos hfit]
    exact rfl
  · rw [if_neg hfit]
    exact not_le.1 fun ht => hfit (cumulative_fits (cumulative_le _ hc hp) ht)

theorem priceTimesDt_spec {p : Decimal} {dt : ℕ} (hp : p.atomics ≤ u128Max) :
    Meets (priceTimesDt p dt) (fun d => d = p.atomics * dt) (fun _ => u64Max < t + dt) := by
  unfold priceTimesDt checkedMul256
  by_cases hfit : p.atomics * dt ≤ u256Max
  · rw [if_pos hfit]
    exact rfl
  · rw [if_neg hfit]
    refine not_le.1 fun ht => hfit ?_
    exact cumulative_fits (Nat.mul_le_mul_right dt hp) ((Nat.le_add_left dt t).trans ht)

/-- Extrapolation is exact, and leaves 256 bits only past the last second. -/
theorem extrapolate_spec (dt : ℕ) (hlast : last.priceACumulative ≤ u128Max * last.timestamp ∧
    last.priceBCumulative ≤ u128Max * last.timestamp)
    (hp : prices.1.atomics ≤ u128Max ∧ prices.2.atomics ≤ u128Max) :
    Meets (extrapolate last prices dt)
      (fun c => c = (last.priceACumulative + prices.1.atomics * dt,
        last.priceBCumulative + prices.2.atomics * dt))
      (fun _ => u64Max < last.timestamp + dt) := by
  refine (priceTimesDt_spec hp.1).bind ?_
  rintro _ rfl
  refine (priceTimesDt_spec hp.2).bind ?_
  rintro _ rfl
  refine (addPriceCumulative_spec _ hlast.1 hp.1).bind ?_
  rintro _ rfl
  refine (addPriceCumulative_spec _ hlast.2 hp.2).bind ?_
  rintro _ rfl
  exact rfl

/-- The observation that is appended after the contents `l`. -/
def Follows (l : List Observation) (t a b : ℕ) (obs : Observation) : Prop :=
  a ≠ 0 ∧ b ≠ 0 ∧ match l.getLast? with
  | none => obs = ⟨t, 0, 0⟩
  | some last => last.timestamp < t ∧ ∃ prices, spotPrices a b = some prices ∧
      obs = ⟨t, last.priceACumulative + prices.1.atomics * (t - last.timestamp),
        last.priceBCumulative + prices.2.atomics * (t - last.timestamp)⟩

/-- No observation is due. -/
def Idle (l : List Observation) (t a b : ℕ) : Prop :=
  a = 0 ∨ b = 0 ∨ ∃ last ∈ l.getLast?, t ≤ last.timestamp ∨ spotPrices a b = none

/-- The ring after `obs` was written. -/
structure Wrote (o : Oracle) (l : List Observation) (obs : Observation) (o' : Oracle) : Prop where
  cardinality : o'.state.cardinality = o.state.cardinality
  index : o'.state.index = (oldestSlot o.state + l.length) % o.state.cardinality
  observations : o'.observations = Function.update o.observations
    ((oldestSlot o.state + l.length) % o.state.cardinality) (some obs)
  retains : o'.Retains (push o.state.cardinality l obs)

theorem Retains.eq_or_precedes (h : o.Retains l) (hl : l.getLast? = some last) {x : Observation}
    (hx : x ∈ l) : x = last ∨ x.Precedes last := by
  obtain ⟨l', rfl⟩ := List.getLast?_eq_some_iff.1 hl
  have hsorted := h.sorted
  rw [List.pairwise_append] at hsorted
  rcases List.mem_append.1 hx with hx | hx
  · exact .inr (hsorted.2.2 x hx last (List.mem_singleton_self last))
  · exact .inl (List.mem_singleton.1 hx)

theorem Retains.timestamp_le (h : o.Retains l) (hl : l.getLast? = some last) {x : Observation}
    (hx : x ∈ l) : x.timestamp ≤ last.timestamp := by
  rcases h.eq_or_precedes hl hx with rfl | hpre
  · exact le_rfl
  · exact hpre.1.le

/-- The newest observation closes the list, so what it precedes, everything does. -/
theorem Retains.precedes_of_last (h : o.Retains l) (hl : l.getLast? = some last)
    (hord : last.Precedes obs) : ∀ x ∈ l, x.Precedes obs := by
  intro x hx
  rcases h.eq_or_precedes hl hx with rfl | hpre
  · exact hord
  · exact hpre.trans hord

/-- An update is idle or appends the integral up to now; it fails only past the last second. -/
theorem Retains.update (h : o.Retains l) (t a b : ℕ) :
    Meets (o.update t a b)
      (fun o' => o' = o ∧ Idle l t a b ∨ ∃ obs, Follows l t a b obs ∧ o.Wrote l obs o')
      (fun _ => u64Max < t) := by
  unfold Oracle.update
  by_cases hzero : a = 0 ∨ b = 0
  · rw [if_pos hzero]
    exact .inl ⟨rfl, hzero.elim .inl fun hb => .inr (.inl hb)⟩
  · have hne := not_or.1 hzero
    rw [if_neg hzero, h.latest]
    cases hl : l.getLast? with
    | none =>
        obtain rfl : l = [] := List.getLast?_eq_none_iff.1 hl
        have hidx : o.state.index = oldestSlot o.state := by
          rw [h.newest, Nat.mod_eq_of_lt (by simpa using oldestSlot_lt h)]
          simp
        refine .inr ⟨⟨t, 0, 0⟩, ⟨hne.1, hne.2, rfl⟩, rfl, ?_, ?_, ?_⟩
        · rw [List.length_nil, Nat.add_zero, Nat.mod_eq_of_lt (oldestSlot_lt h)]
          exact hidx
        · simp only [save, hidx, List.length_nil, Nat.add_zero,
            Nat.mod_eq_of_lt (oldestSlot_lt h)]
        · have hw := h.write
            (show OracleState.cardinality { o.state with cardinalityInitialized := 1 } = _ from rfl)
            ?_ (by simp [h.pos]) (show ∀ x ∈ [], Observation.Precedes x ⟨t, 0, 0⟩ by simp)
            ⟨Nat.zero_le _, Nat.zero_le _⟩
          · simpa only [save, hidx, List.length_nil, Nat.add_zero,
              Nat.mod_eq_of_lt (oldestSlot_lt h)] using hw
          · rw [List.length_nil, Nat.add_zero, Nat.mod_eq_of_lt (oldestSlot_lt h)]
            exact hidx
    | some last =>
        simp only
        by_cases ht : t ≤ last.timestamp
        · rw [if_pos ht]
          exact .inl ⟨rfl, .inr (.inr ⟨last, hl, .inl ht⟩)⟩
        · rw [if_neg ht]
          cases hp : spotPrices a b with
          | none => exact .inl ⟨rfl, .inr (.inr ⟨last, hl, .inr hp⟩)⟩
          | some prices =>
              simp only
              have hlast := h.bounded last (List.mem_of_getLast? hl)
              have hpl := spotPrices_le hp
              have hsum : last.timestamp + (t - last.timestamp) = t := by omega
              unfold Oracle.append
              refine ((extrapolate_spec _ hlast hpl).mono (fun _ hc => hc) ?_).bind ?_
              · intro _ hmax
                rwa [hsum] at hmax
              rintro _ rfl
              simp only [nextIndex_eq h, ok_bind]
              set obs : Observation := ⟨t,
                last.priceACumulative + prices.1.atomics * (t - last.timestamp),
                last.priceBCumulative + prices.2.atomics * (t - last.timestamp)⟩ with hobs
              refine .inr ⟨obs, ?_, rfl, rfl, rfl, ?_⟩
              · simp only [Follows, hl]
                exact ⟨hne.1, hne.2, not_le.1 ht, prices, hp, rfl⟩
              · refine h.write rfl rfl (by simp only [← h.length]) ?_ ?_
                · exact h.precedes_of_last hl
                    ⟨not_le.1 ht, Nat.le_add_right _ _, Nat.le_add_right _ _⟩
                · have h1 := cumulative_le (t - last.timestamp) hlast.1 hpl.1
                  have h2 := cumulative_le (t - last.timestamp) hlast.2 hpl.2
                  rw [hsum] at h1 h2
                  exact ⟨h1, h2⟩

/-- With time passed and a price to read, an update writes. -/
theorem Retains.due (h : o.Retains l) (ht : t ≤ u64Max)
    (hlast : ∀ x ∈ l.getLast?, x.timestamp < t) (ha : a ≠ 0) (hb : b ≠ 0)
    (hspot : spotPrices a b ≠ none) :
    ∃ o' obs, o.update t a b = .ok o' ∧ o.Wrote l obs o' ∧ obs.timestamp = t := by
  have hu := h.update t a b
  cases hupd : o.update t a b with
  | error e => exact absurd (hu.failure hupd) (not_lt.2 ht)
  | ok o' =>
      rcases hu.success hupd with ⟨-, hz | hz | ⟨x, hx, hle | hnone⟩⟩ | ⟨obs, ⟨-, -, hf⟩, hw⟩
      · exact absurd hz ha
      · exact absurd hz hb
      · exact absurd (hlast x hx) (not_lt.2 hle)
      · exact absurd hnone hspot
      · refine ⟨o', obs, rfl, hw, ?_⟩
        cases hl : l.getLast? with
        | none =>
            rw [hl] at hf
            rw [hf]
        | some last =>
            rw [hl] at hf
            obtain ⟨-, prices, -, rfl⟩ := hf
            rfl

/-- What every ring keeps, whenever it was grown. -/
structure Sane (o : Oracle) : Prop where
  index_lt : o.state.index < o.state.cardinality
  card_le : o.state.cardinality ≤ maxObservationCardinality
  bounded : ∀ i, ∀ x ∈ o.observations i, x.priceACumulative ≤ u128Max * x.timestamp ∧
    x.priceBCumulative ≤ u128Max * x.timestamp

theorem Sane.save (h : o.Sane) (s' : OracleState) (i : ℕ) (obs : Observation)
    (hcard : s'.cardinality = o.state.cardinality) (hidx : s'.index < o.state.cardinality)
    (hobs : obs.priceACumulative ≤ u128Max * obs.timestamp ∧
      obs.priceBCumulative ≤ u128Max * obs.timestamp) :
    Sane ⟨s', Function.update o.observations i (some obs)⟩ where
  index_lt := hcard ▸ hidx
  card_le := hcard ▸ h.card_le
  bounded j x hx := by
    change x ∈ Function.update o.observations i (some obs) j at hx
    by_cases hj : j = i
    · subst hj
      rw [Function.update_self, Option.mem_def, Option.some.injEq] at hx
      exact hx ▸ hobs
    · rw [Function.update_of_ne hj] at hx
      exact h.bounded j x hx

/-- An update fails only past the last second. -/
theorem Sane.update (h : o.Sane) (t a b : ℕ) :
    Meets (o.update t a b) Sane (fun _ => u64Max < t) := by
  unfold Oracle.update
  by_cases hzero : a = 0 ∨ b = 0
  · rw [if_pos hzero]
    exact h
  rw [if_neg hzero]
  cases hl : o.observations o.state.index with
  | none => exact h.save _ _ _ rfl h.index_lt ⟨Nat.zero_le _, Nat.zero_le _⟩
  | some last =>
      simp only
      by_cases ht : t ≤ last.timestamp
      · rw [if_pos ht]
        exact h
      rw [if_neg ht]
      cases hp : spotPrices a b with
      | none => exact h
      | some prices =>
          have hlast := h.bounded _ last hl
          have hpl := spotPrices_le hp
          have hsum : last.timestamp + (t - last.timestamp) = t := by omega
          have hpos := Nat.zero_lt_of_lt h.index_lt
          have hindex : Meets (nextIndex o.state) (fun i => i < o.state.cardinality)
              (fun _ => u64Max < t) := by
            unfold nextIndex
            split_ifs with hroom
            · exact hroom
            · have h1 := h.index_lt
              have h2 := h.card_le
              have h3 := maxObservationCardinality_lt
              simp only [addU16, if_pos (show o.state.index + 1 ≤ u16Max by omega), ok_bind]
              exact Nat.mod_lt _ hpos
          unfold Oracle.append
          refine ((extrapolate_spec _ hlast hpl).mono (fun _ hc => hc) ?_).bind ?_
          · intro _ hmax
            rwa [hsum] at hmax
          rintro _ rfl
          refine hindex.bind fun i hi => h.save _ i _ rfl hi ?_
          have h1 := cumulative_le (t - last.timestamp) hlast.1 hpl.1
          have h2 := cumulative_le (t - last.timestamp) hlast.2 hpl.2
          rw [hsum] at h1 h2
          exact ⟨h1, h2⟩

end Oracle

end Cl8yDex
