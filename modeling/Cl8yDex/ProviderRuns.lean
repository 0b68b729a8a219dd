import Cl8yDex.ProviderPool
import Mathlib.Data.List.Nodup
import Mathlib.Logic.Relation
import Mathlib.Tactic.Linarith
import Mathlib.Tactic.Positivity

/-!
# Runs of a provider's circuit

Permits finish in any order, and between the two halves of a drop others may run. The log tells,
newest first, who was admitted when and which failures were recorded.
-/

namespace Cl8yDex.ProviderPool

/-- An outstanding permit with its number; `dropping` once its drop has begun. -/
structure Held where
  serial : ℕ
  permit : ProviderPermit
  dropping : Bool
  deriving DecidableEq

inductive Mark
  | admitted (serial time : ℕ)
  | failed (permit : Option ℕ)
  deriving DecidableEq

def Mark.isFailure : Mark → Bool
  | failed _ => true
  | _ => false

/-- The mark of an admission between two times. -/
def Mark.admittedIn (first last : ℕ) : Mark → Bool
  | admitted _ time => first ≤ time ∧ time ≤ last
  | _ => false

/-- The permits admitted, by their numbers. -/
def Mark.serial? : Mark → Option ℕ
  | admitted serial _ => some serial
  | _ => none

def failuresIn (log : List Mark) : ℕ := log.countP Mark.isFailure

structure World where
  state : State
  held : List Held
  log : List Mark
  now : ℕ

def World.start (policy : ProviderPolicy) (now : ℕ) : World := ⟨.new policy now, [], [], now⟩

inductive Event
  | grant
  | deny
  | mark (serial : ℕ)
  | succeed (serial : ℕ)
  | fail
  | abandon (serial : ℕ)
  | release (serial : ℕ)

/-- One operation on the provider or on an outstanding permit, at a time that does not go back. -/
inductive Step (policy : ProviderPolicy) (baseBackoff : ℕ) : World → Event → World → Prop
  | admitted {w : World} {t : ℕ} {permit : ProviderPermit} {s : State} (ht : w.now ≤ t)
      (h : w.state.admitAt policy t = (.ok permit, s)) :
      Step policy baseBackoff w .grant ⟨s, ⟨w.state.counters.attempts, permit, false⟩ :: w.held,
        .admitted w.state.counters.attempts t :: w.log, t⟩
  | denied {w : World} {t : ℕ} {e : ProviderDenial} {s : State} (ht : w.now ≤ t)
      (h : w.state.admitAt policy t = (.error e, s)) :
      Step policy baseBackoff w .deny ⟨s, w.held, w.log, t⟩
  | marked {w : World} {l₁ l₂ : List Held} {h : Held} {permit : ProviderPermit}
      (hheld : w.held = l₁ ++ h :: l₂) (hdrop : h.dropping = false)
      (hpermit : permit = h.permit.scheduledObservation ∨
        permit = h.permit.quarantineIfCancelled ∨ permit = h.permit.complete) :
      Step policy baseBackoff w (.mark h.serial)
        { w with held := l₁ ++ { h with permit := permit } :: l₂ }
  | succeeded {w : World} {l₁ l₂ : List Held} {h : Held} (hheld : w.held = l₁ ++ h :: l₂)
      (hdrop : h.dropping = false) : Step policy baseBackoff w (.succeed h.serial)
        { w with
          state := h.permit.succeeded w.state
          held := l₁ ++ { h with permit := h.permit.complete } :: l₂ }
  | failed {w : World} {t base random : ℕ} {retryAfter : Option ℕ} (ht : w.now ≤ t) :
      Step policy baseBackoff w .fail
        ⟨w.state.failedAt policy base retryAfter random t, w.held, .failed none :: w.log, t⟩
  | abandoned {w : World} {l₁ l₂ : List Held} {h : Held} {t random : ℕ} (ht : w.now ≤ t)
      (hheld : w.held = l₁ ++ h :: l₂) (hdrop : h.dropping = false)
      (habandoned : h.permit.abandoned = true) : Step policy baseBackoff w (.abandon h.serial)
        ⟨h.permit.dropFailure policy baseBackoff random t w.state,
          l₁ ++ { h with dropping := true } :: l₂, .failed (some h.serial) :: w.log, t⟩
  | released {w : World} {l₁ l₂ : List Held} {h : Held} {s : State}
      (hheld : w.held = l₁ ++ h :: l₂) (hdrop : h.dropping = h.permit.abandoned)
      (hs : h.permit.release w.state = some s) : Step policy baseBackoff w (.release h.serial)
        { w with state := s, held := l₁ ++ l₂ }

inductive Reachable (policy : ProviderPolicy) (baseBackoff : ℕ) : World → Prop
  | start (now : ℕ) : Reachable policy baseBackoff (.start policy now)
  | step {w w' : World} {e : Event} (h : Reachable policy baseBackoff w)
      (hs : Step policy baseBackoff w e w') : Reachable policy baseBackoff w'

section Counts

def probes (held : List Held) : ℕ := held.countP fun h => h.permit.probe

/-- Every outstanding permit is counted, and a probe is outstanding just while the circuit is half
open. -/
structure Counted (policy : ProviderPolicy) (w : World) : Prop where
  inFlight : w.state.counters.inFlight = w.held.length
  capacity : w.held.length ≤ policy.concurrency
  probes : probes w.held = if w.state.halfOpen then 1 else 0
  neutral : ∀ h ∈ w.held, h.permit.cancelClosedNeutrally = true → h.permit.probe = false

variable {policy : ProviderPolicy} {baseBackoff : ℕ} {w w' : World} {e : Event}

theorem probes_split {l₁ l₂ : List Held} {h : Held} :
    probes (l₁ ++ h :: l₂) = probes (l₁ ++ l₂) + if h.permit.probe then 1 else 0 := by
  unfold probes
  rw [List.countP_append, List.countP_append, List.countP_cons]
  omega

/-- A change of one permit that keeps its kind. -/
theorem Counted.replace {l₁ l₂ : List Held} {h g : Held} (hc : Counted policy w)
    (hheld : w.held = l₁ ++ h :: l₂) (hprobe : g.permit.probe = h.permit.probe)
    (hneutral : g.permit.cancelClosedNeutrally = true → g.permit.probe = false) {s : State}
    (hin : s.counters.inFlight = w.state.counters.inFlight)
    (hhalf : s.halfOpen = w.state.halfOpen) {log : List Mark} {now : ℕ} :
    Counted policy ⟨s, l₁ ++ g :: l₂, log, now⟩ := by
  obtain ⟨hinFlight, hcapacity, hprobes, hall⟩ := hc
  have hlength : (l₁ ++ g :: l₂).length = w.held.length := by
    rw [hheld]
    simp
  constructor
  · exact hin.trans (hinFlight.trans hlength.symm)
  · exact hlength.trans_le hcapacity
  · rw [hheld, probes_split] at hprobes
    rw [probes_split, hprobe, hprobes, hhalf]
  · intro other hother
    rcases List.mem_append.1 hother with hother | hother
    · exact hall other (hheld ▸ List.mem_append_left _ hother)
    · cases hother with
      | head => exact hneutral
      | tail _ hother => exact hall other (hheld ▸ List.mem_append_right _ (.tail _ hother))

theorem Counted.start (now : ℕ) : Counted policy (.start policy now) :=
  ⟨rfl, Nat.zero_le _, rfl, fun _ hh => (List.not_mem_nil hh).elim⟩

theorem Denied.kept {s s' : State} {now : ℕ} (h : Denied policy now s s') :
    s'.counters.inFlight = s.counters.inFlight ∧ s'.halfOpen = s.halfOpen ∧
      s'.openUntil = s.openUntil ∧ s'.counters.failures = s.counters.failures ∧
      s'.counters.attempts = s.counters.attempts := by
  cases h <;> exact ⟨rfl, rfl, rfl, rfl, rfl⟩

theorem succeeded_kept (p : ProviderPermit) (s : State) :
    (p.succeeded s).counters.inFlight = s.counters.inFlight ∧
      (p.succeeded s).halfOpen = s.halfOpen ∧
      (p.succeeded s).counters.failures = s.counters.failures ∧
      (p.succeeded s).counters.attempts = s.counters.attempts := by
  unfold ProviderPermit.succeeded
  dsimp only
  split_ifs <;> exact ⟨rfl, rfl, rfl, rfl⟩

/-- A success leaves the circuit as it is or closes it. -/
theorem succeeded_open (p : ProviderPermit) (s : State) :
    (p.succeeded s).openUntil = none ∨ (p.succeeded s).openUntil = s.openUntil := by
  unfold ProviderPermit.succeeded
  dsimp only
  split_ifs
  · exact .inl rfl
  · exact .inr rfl

theorem release_eq {p : ProviderPermit} {s s' : State} (h : p.release s = some s') :
    s.counters.inFlight ≠ 0 ∧ s' = { s with
      halfOpen := if p.probe then false else s.halfOpen
      counters := { s.counters with
        callerCancellations := if !p.completed && p.cancelClosedNeutrally then
          s.counters.callerCancellations + 1 else s.counters.callerCancellations
        inFlight := s.counters.inFlight - 1 } } := by
  unfold ProviderPermit.release at h
  dsimp only at h
  by_cases hzero : s.counters.inFlight = 0
  · rw [if_pos hzero] at h
    cases h
  · rw [if_neg hzero] at h
    exact ⟨hzero, (Option.some.inj h).symm⟩

theorem Counted.step (hc : Counted policy w) (hs : Step policy baseBackoff w e w') :
    Counted policy w' := by
  have ⟨hinFlight, hcapacity, hprobes, hneutral⟩ := hc
  cases hs with
  | @admitted t permit s ht h =>
      obtain ⟨hfree, -, hroom, -, rfl, rfl⟩ := admitted_of_ok h
      rw [hfree] at hprobes
      constructor
      · change w.state.counters.inFlight + 1 = w.held.length + 1
        rw [hinFlight]
      · change w.held.length + 1 ≤ policy.concurrency
        omega
      · change List.countP _ (_ :: w.held) = if w.state.openUntil.isSome then 1 else 0
        rw [List.countP_cons, show List.countP _ w.held = 0 from hprobes, Nat.zero_add]
      · intro g hg
        cases hg with
        | head => exact fun hcancel => by cases hcancel
        | tail _ hg => exact hneutral g hg
  | denied ht h =>
      obtain ⟨hin, hhalf, -⟩ := (denied_of_error h).kept
      exact ⟨hin.trans hinFlight, hcapacity, by rw [hhalf]; exact hprobes, hneutral⟩
  | @marked l₁ l₂ h permit hheld hdrop hpermit =>
      have hkind : permit.probe = h.permit.probe ∧
          (permit.cancelClosedNeutrally = true → permit.probe = false) := by
        have hold := hneutral h (by rw [hheld]; simp)
        rcases hpermit with rfl | rfl | rfl
        · exact ⟨rfl, fun hcancel => by
            simpa [ProviderPermit.scheduledObservation] using hcancel⟩
        · exact ⟨rfl, fun hcancel => by cases hcancel⟩
        · exact ⟨rfl, hold⟩
      exact hc.replace hheld (g := { h with permit := permit }) hkind.1 hkind.2 rfl rfl
  | @succeeded l₁ l₂ h hheld hdrop =>
      obtain ⟨hin, hhalf, -⟩ := succeeded_kept h.permit w.state
      exact hc.replace hheld (g := { h with permit := h.permit.complete }) rfl
        (hneutral h (by rw [hheld]; simp)) hin hhalf
  | failed ht => exact ⟨hinFlight, hcapacity, hprobes, hneutral⟩
  | @abandoned l₁ l₂ h t random ht hheld hdrop habandoned =>
      rw [ProviderPermit.dropFailure, if_pos habandoned]
      exact hc.replace (s := w.state.failedAt policy baseBackoff none random t) hheld
        (g := { h with dropping := true }) rfl (hneutral h (by rw [hheld]; simp)) rfl rfl
  | @released l₁ l₂ h s hheld hdrop hrelease =>
      obtain ⟨-, rfl⟩ := release_eq hrelease
      rw [hheld] at hinFlight hcapacity hprobes
      rw [probes_split] at hprobes
      rw [List.length_append, List.length_cons] at hinFlight hcapacity
      constructor
      · change w.state.counters.inFlight - 1 = (l₁ ++ l₂).length
        rw [List.length_append]
        omega
      · change (l₁ ++ l₂).length ≤ policy.concurrency
        rw [List.length_append]
        omega
      · change ProviderPool.probes (l₁ ++ l₂) =
          if (if h.permit.probe then false else w.state.halfOpen) then 1 else 0
        cases hprobe : h.permit.probe with
        | false =>
            rw [hprobe] at hprobes
            exact hprobes
        | true =>
            rw [hprobe, if_pos rfl] at hprobes
            cases hhalf : w.state.halfOpen with
            | false => simp [hhalf] at hprobes
            | true => simpa [hhalf] using hprobes
      · intro g hg
        apply hneutral g
        rw [hheld]
        rcases List.mem_append.1 hg with hg | hg
        · exact List.mem_append_left _ hg
        · exact List.mem_append_right _ (.tail _ hg)

/-- The count of outstanding permits can be lowered for each of them. -/
theorem Counted.released (hc : Counted policy w) {h : Held} (hh : h ∈ w.held) :
    ∃ s, h.permit.release w.state = some s := by
  have hpos : w.state.counters.inFlight ≠ 0 := by
    rw [hc.inFlight]
    exact (List.length_pos_of_mem hh).ne'
  unfold ProviderPermit.release
  exact ⟨_, if_neg hpos⟩

end Counts

section Generations

/-- A permit as it is later: its marks may differ, not its number, its kind or its generation. -/
structure Held.Same (h h' : Held) : Prop where
  serial : h'.serial = h.serial
  probe : h'.permit.probe = h.permit.probe
  generation : h'.permit.failureGeneration = h.permit.failureGeneration

theorem Held.Same.refl (h : Held) : h.Same h := ⟨rfl, rfl, rfl⟩

/-- The generation of a permit is the number of failures before its admission, so that none came
since while it is that of the provider. -/
structure Dated (w : World) : Prop where
  failures : w.state.counters.failures = failuresIn w.log
  numbered : w.log.filterMap Mark.serial? = (List.range w.state.counters.attempts).reverse
  serials : (w.held.map Held.serial).Nodup
  since : ∀ h ∈ w.held, ∃ newer older t, w.log = newer ++ .admitted h.serial t :: older ∧
    failuresIn older = h.permit.failureGeneration
  probing : w.state.openUntil.isSome = true → ∀ h ∈ w.held,
    h.permit.failureGeneration = w.state.counters.failures → h.permit.probe = true
  dropping : ∀ h ∈ w.held, h.dropping = true →
    h.permit.abandoned = true ∧ .failed (some h.serial) ∈ w.log

variable {policy : ProviderPolicy} {baseBackoff : ℕ} {w w' : World} {e : Event}

theorem failuresIn_append (newer older : List Mark) :
    failuresIn (newer ++ older) = failuresIn newer + failuresIn older :=
  List.countP_append ..

theorem Dated.start (now : ℕ) : Dated (.start policy now) :=
  ⟨rfl, rfl, .nil, fun _ hh => (List.not_mem_nil hh).elim,
    fun _ _ hh => (List.not_mem_nil hh).elim, fun _ hh => (List.not_mem_nil hh).elim⟩

/-- A number in the log was given. -/
theorem Dated.issued (hd : Dated w) {serial t : ℕ} (h : .admitted serial t ∈ w.log) :
    serial < w.state.counters.attempts := by
  have hmem : serial ∈ w.log.filterMap Mark.serial? := List.mem_filterMap.2 ⟨_, h, rfl⟩
  rw [hd.numbered] at hmem
  simpa using hmem

theorem Dated.generation_le (hd : Dated w) {h : Held} (hh : h ∈ w.held) :
    h.permit.failureGeneration ≤ w.state.counters.failures := by
  obtain ⟨newer, older, t, hlog, hgeneration⟩ := hd.since h hh
  rw [hd.failures, hlog, failuresIn_append, ← hgeneration]
  change failuresIn older ≤ failuresIn newer + failuresIn older
  omega

/-- No failure came between the admission of a permit of the provider's generation and now. -/
theorem Dated.unfailed (hd : Dated w) {h : Held} (hh : h ∈ w.held)
    (hgeneration : h.permit.failureGeneration = w.state.counters.failures) :
    ∃ newer older t, w.log = newer ++ .admitted h.serial t :: older ∧ failuresIn newer = 0 := by
  obtain ⟨newer, older, t, hlog, hold⟩ := hd.since h hh
  refine ⟨newer, older, t, hlog, ?_⟩
  have hsum : failuresIn w.log = failuresIn newer + failuresIn older := by
    rw [hlog, failuresIn_append]
    rfl
  have hfailures := hd.failures
  omega

/-- Everything but an admission: permits change their marks or go, and failures are told. -/
theorem Dated.follow (hd : Dated w) (marks : List Mark) (hlog : w'.log = marks ++ w.log)
    (hmarks : marks.filterMap Mark.serial? = [])
    (hattempts : w'.state.counters.attempts = w.state.counters.attempts)
    (hfailures : w'.state.counters.failures = w.state.counters.failures + failuresIn marks)
    (hopen : failuresIn marks = 0 → w'.state.openUntil.isSome = true →
      w.state.openUntil.isSome = true)
    (hserials : (w'.held.map Held.serial).Sublist (w.held.map Held.serial))
    (hheld : ∀ h' ∈ w'.held, ∃ h ∈ w.held, h.Same h')
    (hdropping : ∀ h ∈ w'.held, h.dropping = true →
      h.permit.abandoned = true ∧ .failed (some h.serial) ∈ w'.log) : Dated w' := by
  constructor
  · rw [hfailures, hlog, failuresIn_append, hd.failures]
    omega
  · rw [hlog, List.filterMap_append, hmarks, List.nil_append, hattempts, hd.numbered]
  · exact hserials.nodup hd.serials
  · intro h' hh'
    obtain ⟨h, hh, hserial, -, hgeneration⟩ := hheld h' hh'
    obtain ⟨newer, older, t, hsplit, hold⟩ := hd.since h hh
    refine ⟨marks ++ newer, older, t, ?_, hold.trans hgeneration.symm⟩
    rw [hlog, hsplit, hserial, List.append_assoc]
  · intro hsome h' hh' hcurrent
    obtain ⟨h, hh, -, hprobe, hgeneration⟩ := hheld h' hh'
    have hle := hd.generation_le hh
    have hzero : failuresIn marks = 0 := by omega
    rw [hprobe]
    exact hd.probing (hopen hzero hsome) h hh (by omega)
  · exact hdropping

theorem mem_replaced {l₁ l₂ : List Held} {h h' g : Held} (hg : g ∈ l₁ ++ h' :: l₂) :
    g = h' ∨ g ∈ l₁ ++ h :: l₂ := by
  simp only [List.mem_append, List.mem_cons] at hg ⊢
  tauto

/-- The permits after one of them has changed its marks. -/
theorem same_replaced (l₁ l₂ : List Held) {h g : Held} (hsame : h.Same g) :
    ((l₁ ++ g :: l₂).map Held.serial).Sublist ((l₁ ++ h :: l₂).map Held.serial) ∧
      ∀ later ∈ l₁ ++ g :: l₂, ∃ earlier ∈ l₁ ++ h :: l₂, earlier.Same later := by
  constructor
  · rw [List.map_append, List.map_cons, List.map_append, List.map_cons, hsame.serial]
  · intro later hlater
    obtain rfl | hearlier := mem_replaced (h := h) hlater
    · exact ⟨h, by simp, hsame⟩
    · exact ⟨later, hearlier, .refl later⟩

theorem Dated.admitted (hd : Dated w) {t : ℕ} {permit : ProviderPermit} {s : State}
    (h : Admitted policy t w.state permit s) :
    Dated ⟨s, ⟨w.state.counters.attempts, permit, false⟩ :: w.held,
      .admitted w.state.counters.attempts t :: w.log, t⟩ := by
  obtain ⟨-, -, -, -, rfl, rfl⟩ := h
  constructor
  · exact hd.failures
  · change w.state.counters.attempts :: w.log.filterMap Mark.serial? =
      (List.range (w.state.counters.attempts + 1)).reverse
    rw [hd.numbered, List.range_succ, List.reverse_append]
    rfl
  · apply List.nodup_cons.2
    constructor
    · intro hmem
      obtain ⟨g, hg, hserial⟩ := List.mem_map.1 hmem
      obtain ⟨newer, older, t, hlog, -⟩ := hd.since g hg
      have hmem : .admitted g.serial t ∈ w.log := by
        rw [hlog]
        simp
      have hlt := hd.issued hmem
      change g.serial = w.state.counters.attempts at hserial
      omega
    · exact hd.serials
  · intro g hg
    cases hg with
    | head => exact ⟨[], w.log, t, rfl, hd.failures.symm⟩
    | tail _ hg =>
        obtain ⟨newer, older, t, hlog, hold⟩ := hd.since g hg
        exact ⟨_ :: newer, older, t, congrArg _ hlog, hold⟩
  · intro hsome g hg hcurrent
    cases hg with
    | head => exact hsome
    | tail _ hg => exact hd.probing hsome g hg hcurrent
  · intro g hg hdrop
    cases hg with
    | head => cases hdrop
    | tail _ hg => exact (hd.dropping g hg hdrop).imp_right (List.mem_cons_of_mem _)

theorem Dated.step (hd : Dated w) (hs : Step policy baseBackoff w e w') : Dated w' := by
  cases hs with
  | admitted ht h => exact hd.admitted (admitted_of_ok h)
  | denied ht h =>
      obtain ⟨-, -, hopen, hfailures, hattempts⟩ := (denied_of_error h).kept
      refine hd.follow [] rfl rfl hattempts hfailures ?_ (.refl _) ?_ hd.dropping
      · intro _ hsome
        rwa [hopen] at hsome
      · exact fun g hg => ⟨g, hg, .refl g⟩
  | @marked l₁ l₂ h permit hheld hdrop hpermit =>
      have hsame : h.Same { h with permit := permit } := by
        rcases hpermit with rfl | rfl | rfl <;> exact ⟨rfl, rfl, rfl⟩
      have hreplaced := same_replaced l₁ l₂ hsame
      rw [← hheld] at hreplaced
      refine hd.follow [] rfl rfl rfl rfl (fun _ => id) hreplaced.1 hreplaced.2 ?_
      intro g hg hdropping
      obtain rfl | hg := mem_replaced (h := h) hg
      · cases hdrop.symm.trans hdropping
      · exact hd.dropping g (hheld ▸ hg) hdropping
  | @succeeded l₁ l₂ h hheld hdrop =>
      obtain ⟨-, -, hfailures, hattempts⟩ := succeeded_kept h.permit w.state
      have hreplaced := same_replaced l₁ l₂ (h := h)
        (g := { h with permit := h.permit.complete }) ⟨rfl, rfl, rfl⟩
      rw [← hheld] at hreplaced
      refine hd.follow [] rfl rfl hattempts hfailures ?_ hreplaced.1 hreplaced.2 ?_
      · intro _ hsome
        obtain hnone | hopen := succeeded_open h.permit w.state
        · rw [hnone] at hsome
          cases hsome
        · rwa [hopen] at hsome
      · intro g hg hdropping
        obtain rfl | hg := mem_replaced (h := h) hg
        · cases hdrop.symm.trans hdropping
        · exact hd.dropping g (hheld ▸ hg) hdropping
  | failed ht =>
      refine hd.follow [.failed none] rfl rfl rfl rfl ?_ (.refl _) ?_ ?_
      · intro hzero
        cases hzero
      · exact fun g hg => ⟨g, hg, .refl g⟩
      · exact fun g hg hdropping =>
          (hd.dropping g hg hdropping).imp_right (List.mem_cons_of_mem _)
  | @abandoned l₁ l₂ h t random ht hheld hdrop habandoned =>
      have hreplaced := same_replaced l₁ l₂ (h := h)
        (g := { h with dropping := true }) ⟨rfl, rfl, rfl⟩
      rw [← hheld] at hreplaced
      rw [ProviderPermit.dropFailure, if_pos habandoned]
      refine hd.follow [.failed (some h.serial)] rfl rfl rfl rfl ?_
        hreplaced.1 hreplaced.2 ?_
      · intro hzero
        cases hzero
      · intro g hg hdropping
        obtain rfl | hg := mem_replaced (h := h) hg
        · exact ⟨habandoned, .head _⟩
        · exact (hd.dropping g (hheld ▸ hg) hdropping).imp_right (List.mem_cons_of_mem _)
  | @released l₁ l₂ h s hheld hdrop hrelease =>
      obtain ⟨-, rfl⟩ := release_eq hrelease
      have hsub : (l₁ ++ l₂).Sublist w.held := by
        rw [hheld]
        exact (List.Sublist.refl l₁).append (List.sublist_cons_self h l₂)
      refine hd.follow [] rfl rfl rfl rfl (fun _ => id) (hsub.map _) ?_ ?_
      · exact fun g hg => ⟨g, hsub.subset hg, .refl g⟩
      · exact fun g hg => hd.dropping g (hsub.subset hg)

end Generations

end Cl8yDex.ProviderPool
