import Cl8yDex.OracleRing

/-!
# Growing the observation ring

A run records observations at non-decreasing block times and grows the ring at any moment. Until
the ring has wrapped, or when its newest observation is in the last slot, growing leaves the ring
chronological; at any other moment it does not.
-/

namespace Cl8yDex

open Outcome RingBuffer

namespace Oracle

/-- An observation that the step removes from the ring. -/
def Evicts (o o' : Oracle) (e : Observation) : Prop :=
  ∃ i, o.observations i = some e ∧ o'.observations i ≠ some e

/-- A run from the instantiated pair, with its clock and the observations evicted so far. The
condition `allowed` is asked of the ring before each growth. -/
inductive OracleRun (allowed : Oracle → Prop) : ℕ → Oracle → Set Observation → Prop
  | start : OracleRun allowed 0 Oracle.initial ∅
  | update {t : ℕ} {o o' : Oracle} {evicted : Set Observation} (h : OracleRun allowed t o evicted)
      (t' reserveA reserveB : ℕ) (ht : t ≤ t') (hu : o.update t' reserveA reserveB = .ok o') :
      OracleRun allowed t' o' (evicted ∪ {e | o.Evicts o' e})
  | grow {t : ℕ} {o o' : Oracle} {evicted : Set Observation} (h : OracleRun allowed t o evicted)
      (newCardinality : ℕ) (hg : o.increaseObservationCardinality newCardinality = .ok o')
      (ha : allowed o) : OracleRun allowed t o' evicted

/-- The ring as it is read: every slot is written, in chronological order, the newest at the
index, and only observations older than all of them were evicted. -/
structure Chronological (o : Oracle) (evicted : Set Observation) : Prop where
  written : ∀ i ∈ ringSlots o.state, o.observations i ≠ none
  ordered : (ringSlots o.state).Pairwise fun i j => ∀ x ∈ o.observations i,
    ∀ y ∈ o.observations j, x.Precedes y
  newest : o.state.cardinalityInitialized ≠ 0 →
    (ringSlots o.state).getLast? = some o.state.index
  evicted_older : ∀ e ∈ evicted, ∀ i ∈ ringSlots o.state, ∀ x ∈ o.observations i,
    e.timestamp < x.timestamp

/-- Growing is harmless: the ring has room, or it is read from slot zero. -/
def InPhase (o : Oracle) : Prop :=
  o.state.cardinalityInitialized < o.state.cardinality ∨ o.state.index + 1 = o.state.cardinality

variable {o o' : Oracle} {l : List Observation} {t n : ℕ} {evicted : Set Observation}

theorem mem_ringSlots {i : ℕ} : i ∈ ringSlots o.state ↔ ∃ k < o.state.cardinalityInitialized,
    (oldestSlot o.state + k) % o.state.cardinality = i := by
  simp [ringSlots]

theorem getLast?_ringSlots (h : o.state.cardinalityInitialized ≠ 0) :
    (ringSlots o.state).getLast? = some ((oldestSlot o.state +
      (o.state.cardinalityInitialized - 1)) % o.state.cardinality) := by
  rw [ringSlots, List.getLast?_map, List.getLast?_range, if_neg h]
  rfl

theorem Retains.of_slot (h : o.Retains l) {i : ℕ} (hi : i ∈ ringSlots o.state) :
    ∃ k, ∃ hk : k < l.length, (oldestSlot o.state + k) % o.state.cardinality = i ∧
      o.observations i = some l[k] := by
  obtain ⟨k, hk, rfl⟩ := mem_ringSlots.1 hi
  rw [← h.length] at hk
  exact ⟨k, hk, rfl, h.holds.get hk⟩

/-- A ring that retains a sorted list is read chronologically. -/
theorem Retains.chronological (h : o.Retains l)
    (hev : ∀ e ∈ evicted, ∀ x ∈ l, e.timestamp < x.timestamp) : Chronological o evicted where
  written i hi := by
    obtain ⟨k, hk, -, hobs⟩ := h.of_slot hi
    simp [hobs]
  ordered := by
    refine List.pairwise_map.2 ?_
    refine (List.pairwise_lt_range).imp_of_mem fun {i j} hi hj hij x hx y hy => ?_
    rw [List.mem_range, ← h.length] at hi hj
    rw [h.holds.get hi, Option.mem_def, Option.some.injEq] at hx
    rw [h.holds.get hj, Option.mem_def, Option.some.injEq] at hy
    subst hx hy
    exact List.pairwise_iff_getElem.1 h.sorted i j hi hj hij
  newest hn := by
    rw [getLast?_ringSlots hn, ← h.length, ← h.newest]
  evicted_older e he i hi x hx := by
    obtain ⟨k, hk, -, hobs⟩ := h.of_slot hi
    rw [hobs, Option.mem_def, Option.some.injEq] at hx
    subst hx
    exact hev e he _ (List.getElem_mem hk)

/-- A write evicts at most the oldest observation, and that only from a full ring. -/
theorem Wrote.evicts {obs e : Observation} (h : o.Retains l) (hw : o.Wrote l obs o')
    (he : o.Evicts o' e) : l.length = o.state.cardinality ∧ l.head? = some e := by
  obtain ⟨i, hi, hne⟩ := he
  have hidx : i = (oldestSlot o.state + l.length) % o.state.cardinality := by
    by_contra hother
    rw [hw.observations, Function.update_of_ne hother] at hne
    exact hne hi
  by_cases hroom : l.length < o.state.cardinality
  · rw [oldestSlot_of_room h hroom, Nat.zero_add, Nat.mod_eq_of_lt hroom] at hidx
    rw [h.unused i hidx.ge] at hi
    cases hi
  · have hfull : l.length = o.state.cardinality := le_antisymm h.length_le (not_lt.1 hroom)
    have hpos : 0 < l.length := hfull ▸ h.pos
    have hfirst := h.holds 0 hpos
    rw [Nat.add_zero, Nat.mod_eq_of_lt (oldestSlot_lt h)] at hfirst
    rw [hfull, Nat.add_mod_right, Nat.mod_eq_of_lt (oldestSlot_lt h)] at hidx
    rw [hidx, hfirst] at hi
    exact ⟨hfull, by rw [List.head?_eq_getElem?, hi]⟩

theorem Follows.head_older {a b : ℕ} {obs e : Observation} (h : o.Retains l)
    (hf : Follows l t a b obs) (he : l.head? = some e) : e.Precedes obs := by
  have hne : l ≠ [] := by
    rintro rfl
    cases he
  obtain ⟨last, hlast⟩ : ∃ last, l.getLast? = some last := ⟨_, List.getLast?_eq_some_getLast hne⟩
  rw [Follows, hlast] at hf
  obtain ⟨-, -, hlt, prices, -, rfl⟩ := hf
  exact h.precedes_of_last hlast ⟨hlt, Nat.le_add_right _ _, Nat.le_add_right _ _⟩ e
    (List.mem_of_head? he)

/-- The bookkeeping of evictions over one write. -/
theorem Wrote.evicted_older {a b : ℕ} {obs : Observation} (h : o.Retains l)
    (hf : Follows l t a b obs) (hw : o.Wrote l obs o')
    (hev : ∀ e ∈ evicted, ∀ x ∈ l, e.timestamp < x.timestamp)
    (hev' : ∀ e ∈ evicted, l = [] → False) :
    ∀ e ∈ evicted ∪ {e | o.Evicts o' e}, ∀ x ∈ push o.state.cardinality l obs,
      e.timestamp < x.timestamp := by
  rintro e (he | he) x hx
  · obtain ⟨y, l', rfl⟩ := List.exists_cons_of_ne_nil fun hl => hev' e he hl
    rcases mem_push hx with hx | rfl
    · exact hev e he x hx
    · exact (hev e he y (List.mem_cons_self ..)).trans (Follows.head_older h hf rfl).1
  · obtain ⟨hfull, hhead⟩ := hw.evicts h he
    have hpre := Follows.head_older h hf hhead
    unfold push at hx
    rw [if_neg (by omega)] at hx
    rcases List.mem_append.1 hx with hx | hx
    · cases l with
      | nil => cases hhead
      | cons y l =>
          obtain rfl := Option.some.inj hhead
          exact ((List.pairwise_cons.1 h.sorted).1 x hx).1
    · rw [List.mem_singleton.1 hx]
      exact hpre.1

theorem increase_eq_ok {o o' : Oracle} {n : ℕ} :
    o.increaseObservationCardinality n = .ok o' ↔ n ≤ maxObservationCardinality ∧
      o.state.cardinality < n ∧ o' = { o with state := { o.state with cardinality := n } } := by
  unfold increaseObservationCardinality
  simp only [bind_eq_ok, ensure_eq_ok]
  constructor
  · rintro ⟨-, h1, -, h2, h3⟩
    cases h3
    exact ⟨h1, h2, rfl⟩
  · rintro ⟨h1, h2, rfl⟩
    exact ⟨(), h1, (), h2, rfl⟩

theorem Sane.grow (h : o.Sane) (hg : o.increaseObservationCardinality n = .ok o') : o'.Sane := by
  obtain ⟨hmax, hlt, rfl⟩ := increase_eq_ok.1 hg
  exact ⟨h.index_lt.trans hlt, hmax, h.bounded⟩

/-- Growing in phase keeps the contents. -/
theorem Retains.grow (h : o.Retains l) (hphase : InPhase o)
    (hg : o.increaseObservationCardinality n = .ok o') : o'.Retains l := by
  obtain ⟨hmax, hlt, rfl⟩ := increase_eq_ok.1 hg
  have hzero : oldestSlot o.state = 0 := by
    rcases hphase with hroom | hlast
    · exact if_pos hroom
    · unfold oldestSlot
      rw [hlast, Nat.mod_self, ite_self]
  have hlen := h.length_le
  have hslot : oldestSlot { o.state with cardinality := n } = 0 :=
    if_pos (by rw [← h.length]; exact lt_of_le_of_lt hlen hlt)
  have hpos := h.pos
  refine ⟨hpos.trans hlt, hmax, h.length, hlen.trans hlt.le, ?_, ?_, h.unused, h.sorted,
    h.bounded⟩
  · have hh := h.holds
    rw [hzero] at hh
    rw [hslot]
    exact hh.grow hlen hlt.le
  · have hnew := h.newest
    rw [hzero, Nat.zero_add, Nat.mod_eq_of_lt (by omega)] at hnew
    change o.state.index = (oldestSlot { o.state with cardinality := n } + (l.length - 1)) % n
    rw [hslot, Nat.zero_add, Nat.mod_eq_of_lt (by omega)]
    exact hnew

/-- Growing out of phase leaves the newest observation in the middle of the ring. -/
theorem Retains.not_chronological_grow (h : o.Retains l) (hphase : ¬InPhase o)
    (hg : o.increaseObservationCardinality n = .ok o') : ¬Chronological o' evicted := by
  obtain ⟨hmax, hlt, ho'⟩ := increase_eq_ok.1 hg
  intro hc
  have hcard : o'.state.cardinality = n := by rw [ho']
  have hidx' : o'.state.index = o.state.index := by rw [ho']
  have hinit' : o'.state.cardinalityInitialized = o.state.cardinalityInitialized := by rw [ho']
  obtain ⟨hroom, hlast⟩ := not_or.1 hphase
  have hle := h.length_le
  have hlen := h.length
  have hpos := h.pos
  have hidx := index_lt h
  have hslot : oldestSlot o'.state = 0 := if_pos (by omega)
  have hinit : o'.state.cardinalityInitialized ≠ 0 := by omega
  have hnew := hc.newest hinit
  rw [getLast?_ringSlots hinit, hslot, Option.some.injEq, Nat.zero_add,
    Nat.mod_eq_of_lt (by omega)] at hnew
  omega

/-- What a run in phase keeps. -/
theorem OracleRun.retains (h : OracleRun InPhase t o evicted) : ∃ l, o.Retains l ∧
    (∀ e ∈ evicted, ∀ x ∈ l, e.timestamp < x.timestamp) ∧ (∀ e ∈ evicted, l = [] → False) := by
  induction h with
  | start =>
      exact ⟨[], Retains.initial (by decide) (by decide), by simp, by simp⟩
  | @update t o o' evicted _ t' a b _ hu ih =>
      obtain ⟨l, hr, hev, hev'⟩ := ih
      rcases (hr.update t' a b).success hu with ⟨rfl, -⟩ | ⟨obs, hf, hw⟩
      · have hnone : ∀ e, ¬Evicts o' o' e := fun e ⟨i, hi, hne⟩ => hne hi
        exact ⟨l, hr, fun e he => hev e (he.resolve_right (hnone e)),
          fun e he => hev' e (he.resolve_right (hnone e))⟩
      · exact ⟨_, hw.retains, hw.evicted_older hr hf hev hev', fun _ _ => push_ne_nil⟩
  | grow _ newCardinality hg ha ih =>
      obtain ⟨l, hr, hev, hev'⟩ := ih
      exact ⟨l, hr.grow ha hg, hev, hev'⟩

/-- A later block records an observation at a constant price. -/
theorem OracleRun.observe_next {allowed : Oracle → Prop} {last : Observation} {t' : ℕ}
    (h : OracleRun allowed t o evicted) (hr : o.Retains l) (hlast : l.getLast? = some last)
    (hlater : last.timestamp < t') (ht : t ≤ t') (hmax : t' ≤ u64Max) :
    ∃ o' evicted' obs, OracleRun allowed t' o' evicted' ∧ o.Wrote l obs o' ∧
      obs.timestamp = t' := by
  have hu := hr.update t' 1 1
  cases hupd : o.update t' 1 1 with
  | error e => exact absurd (hu.failure hupd) (by omega)
  | ok o' =>
      rcases hu.success hupd with ⟨-, h | h | ⟨x, hx, h | h⟩⟩ | ⟨obs, hf, hw⟩
      · cases h
      · cases h
      · rw [hlast, Option.mem_def, Option.some.injEq] at hx
        subst hx
        omega
      · exact absurd h (by decide)
      · rw [Follows, hlast] at hf
        obtain ⟨-, -, -, prices, -, rfl⟩ := hf
        exact ⟨o', _, _, h.update t' 1 1 ht hupd, hw, rfl⟩

/-- The default ring after one observation a second at a constant price, until it is full. -/
theorem steady_run (allowed : Oracle → Prop) (k : ℕ) (hk : k < defaultObservationCardinality) :
    ∃ o evicted l, OracleRun allowed (k + 1) o evicted ∧ o.Retains l ∧ l.length = k + 1 ∧
      o.state.cardinality = defaultObservationCardinality ∧ o.state.index = k ∧
      ∃ last, l.getLast? = some last ∧ last.timestamp = k + 1 := by
  have hsmall : defaultObservationCardinality < u64Max := by decide
  induction k with
  | zero =>
      have h₀ : Oracle.initial.Retains [] := Retains.initial (by decide) (by decide)
      have hu := h₀.update 1 1 1
      cases hupd : Oracle.initial.update 1 1 1 with
      | error e => exact absurd (hu.failure hupd) (by decide)
      | ok o =>
          rcases hu.success hupd with ⟨-, h | h | ⟨_, ⟨⟩, _⟩⟩ | ⟨obs, ⟨-, -, rfl⟩, hw⟩
          · cases h
          · cases h
          · exact ⟨o, _, _, .update .start 1 1 1 (by decide) hupd, hw.retains, rfl,
              hw.cardinality, hw.index, _, rfl, rfl⟩
  | succ k ih =>
      obtain ⟨o, evicted, l, hrun, hr, hlen, hcard, hidx, last, hlast, htime⟩ := ih (by omega)
      obtain ⟨o', evicted', obs, hrun', hw, hobs⟩ :=
        hrun.observe_next hr hlast (show last.timestamp < k + 2 by omega) (by omega) (by omega)
      have hroom : l.length < o.state.cardinality := by omega
      refine ⟨o', evicted', _, hrun', hw.retains, ?_, ?_, ?_, obs, getLast?_push, hobs⟩
      · rw [length_push hr.pos hr.length_le, if_pos hroom, hlen]
      · rw [hw.cardinality, hcard]
      · rw [hw.index, oldestSlot_of_room hr hroom, Nat.zero_add, hlen,
          Nat.mod_eq_of_lt (by omega)]

/-- While every growth is in phase the ring stays chronological, and the first growth out of phase
breaks it at once. -/
theorem chronological_of_growth_in_phase (h : OracleRun InPhase t o evicted) :
    Chronological o evicted ∧ ∀ newCardinality o',
      o.increaseObservationCardinality newCardinality = .ok o' →
        (Chronological o' evicted ↔ InPhase o) := by
  obtain ⟨l, hr, hev, -⟩ := h.retains
  refine ⟨hr.chronological hev, fun newCardinality o' hg => ⟨fun hc => ?_, fun hphase => ?_⟩⟩
  · by_contra hphase
    exact hr.not_chronological_grow hphase hg hc
  · exact (hr.grow hphase hg).chronological hev

/-- The full ring grows in phase, by one slot, which the next observation takes. -/
theorem chronological_of_growth_in_phase_sample : ∃ o evicted, o.state.cardinality = 361 ∧
    o.state.cardinalityInitialized = 361 ∧ o.state.index = 360 ∧ Chronological o evicted := by
  obtain ⟨o, evicted, l, hrun, hr, hlen, hcard, hidx, last, hlast, htime⟩ :=
    steady_run InPhase 359 (by decide)
  have hdefault : o.state.cardinality = 360 := hcard
  have hphase : InPhase o := .inr (by rw [hidx, hdefault])
  have hgrow := increase_eq_ok.2 ⟨(by decide : 361 ≤ maxObservationCardinality),
    (by omega : o.state.cardinality < 361), rfl⟩
  have hgrown := hr.grow hphase hgrow
  obtain ⟨o', evicted', obs, hrun', hw, -⟩ := (hrun.grow 361 hgrow hphase).observe_next hgrown
    hlast (show last.timestamp < 361 by omega) (by decide) (by decide)
  have hroom : l.length < 361 := by omega
  refine ⟨o', evicted', hw.cardinality, ?_, ?_, (chronological_of_growth_in_phase hrun').1⟩
  · rw [← hw.retains.length, length_push hgrown.pos hgrown.length_le, if_pos hroom, hlen]
  · rw [hw.index, oldestSlot_of_room hgrown hroom, Nat.zero_add, hlen]
    rfl

/-- One observation more wraps the ring, and growing it then is out of phase. -/
theorem growth_breaks_chronology : ¬∀ t o evicted, OracleRun (fun _ => True) t o evicted →
    Chronological o evicted := by
  intro hall
  obtain ⟨o, evicted, l, hrun, hr, hlen, hcard, hidx, last, hlast, htime⟩ :=
    steady_run (fun _ => True) 359 (by decide)
  have hfull : l.length = o.state.cardinality := hlen.trans hcard.symm
  obtain ⟨o', evicted', obs, hrun', hw, -⟩ :=
    hrun.observe_next hr hlast (show last.timestamp < 361 by omega) (by decide) (by decide)
  have hwrap : o'.state.index = 0 := by
    rw [hw.index, oldestSlot_of_full hr hfull, hidx, hlen, hcard]
    rfl
  have hinit : o'.state.cardinalityInitialized = 360 := by
    rw [← hw.retains.length, length_push hr.pos hr.length_le, if_neg (by omega), hlen]
  have hcard' : o'.state.cardinality = 360 := hw.cardinality.trans hcard
  have hphase : ¬InPhase o' := by
    rintro (h | h)
    · omega
    · omega
  have hgrow := increase_eq_ok.2 ⟨(by decide : 361 ≤ maxObservationCardinality),
    (by omega : o'.state.cardinality < 361), rfl⟩
  exact hw.retains.not_chronological_grow hphase hgrow
    (hall _ _ _ (hrun'.grow 361 hgrow trivial))

end Oracle

end Cl8yDex
