import Cl8yDex.ProviderRuns
import Mathlib.Tactic.Ring

/-!
# The rate and the recovery of a provider

Over any window of time the bucket pays for every admission, and an open circuit is left only
through the probe that was admitted after the last failure.
-/

namespace Cl8yDex.ProviderPool

section Rate

/-- What the bucket gains over a time. -/
def refill (policy : ProviderPolicy) (elapsed : ℕ) : ℚ :=
  elapsed / nanosPerSecond * policy.requestsPerSecond

theorem refill_nonneg (policy : ProviderPolicy) (elapsed : ℕ) : 0 ≤ refill policy elapsed := by
  unfold refill
  positivity

theorem refill_add (policy : ProviderPolicy) (a b : ℕ) :
    refill policy (a + b) = refill policy a + refill policy b := by
  unfold refill
  push_cast
  ring

theorem refill_mono (policy : ProviderPolicy) {a b : ℕ} (h : a ≤ b) :
    refill policy a ≤ refill policy b := by
  obtain ⟨c, rfl⟩ := Nat.exists_eq_add_of_le h
  have hadd := refill_add policy a c
  have hc := refill_nonneg policy c
  linarith

/-- The permits given between two times. -/
def admissions (first last : ℕ) (log : List Mark) : ℕ := log.countP (Mark.admittedIn first last)

theorem admissions_cons_admitted (first last serial t : ℕ) (log : List Mark) :
    admissions first last (.admitted serial t :: log) =
      admissions first last log + if first ≤ t ∧ t ≤ last then 1 else 0 := by
  unfold admissions
  rw [List.countP_cons]
  simp [Mark.admittedIn]

theorem admissions_cons_failed (first last : ℕ) (permit : Option ℕ) (log : List Mark) :
    admissions first last (.failed permit :: log) = admissions first last log := by
  unfold admissions
  rw [List.countP_cons]
  rfl

/-- The bucket holds what the admissions have left of the burst and of the refills. -/
structure Rationed (policy : ProviderPolicy) (w : World) : Prop where
  clock : w.state.refilledAt ≤ w.now
  funded : 0 ≤ w.state.tokens
  burst : w.state.tokens ≤ policy.burst
  dated : ∀ serial t, .admitted serial t ∈ w.log → t ≤ w.state.refilledAt
  spent : ∀ a, a ≤ w.state.refilledAt → 2 * (admissions a w.state.refilledAt w.log : ℚ) +
    w.state.tokens ≤ policy.burst + refill policy (w.state.refilledAt - a)
  window : ∀ a b, a ≤ b →
    2 * (admissions a b w.log : ℚ) ≤ policy.burst + refill policy (b - a)

variable {policy : ProviderPolicy} {baseBackoff : ℕ} {w w' : World} {e : Event}

theorem Rationed.start (now : ℕ) : Rationed policy (.start policy now) := by
  constructor
  · exact le_refl now
  · exact Nat.cast_nonneg _
  · exact le_refl _
  · exact fun _ _ h => (List.not_mem_nil h).elim
  · intro a _
    have hrefill := refill_nonneg policy (now - a)
    change 2 * ((0 : ℕ) : ℚ) + (policy.burst : ℚ) ≤ policy.burst + refill policy (now - a)
    push_cast
    linarith
  · intro a b _
    have hrefill := refill_nonneg policy (b - a)
    change 2 * ((0 : ℕ) : ℚ) ≤ policy.burst + refill policy (b - a)
    have hburst : (0 : ℚ) ≤ policy.burst := Nat.cast_nonneg _
    push_cast
    linarith

/-- No admission lies after the last refill. -/
theorem Rationed.none_after (hr : Rationed policy w) {a b : ℕ} (ha : w.state.refilledAt < a) :
    admissions a b w.log = 0 := by
  apply List.countP_eq_zero.2
  intro m hm hin
  cases m with
  | failed permit => cases hin
  | admitted serial t =>
      have ht := hr.dated serial t hm
      have hle : a ≤ t ∧ t ≤ b := by simpa [Mark.admittedIn] using hin
      omega

/-- A later end adds no admission once the last refill is passed. -/
theorem Rationed.until (hr : Rationed policy w) {a b c : ℕ} (hb : w.state.refilledAt ≤ b)
    (hc : w.state.refilledAt ≤ c) : admissions a b w.log = admissions a c w.log := by
  apply List.countP_congr
  intro m hm
  cases m with
  | failed permit => exact Iff.rfl
  | admitted serial t =>
      have ht := hr.dated serial t hm
      simp only [Mark.admittedIn, decide_eq_true_eq]
      omega

/-- The bucket refilled at a later time. -/
theorem Rationed.refilled (hr : Rationed policy w) {t : ℕ} (ht : w.now ≤ t) :
    Rationed policy { w with state := w.state.refilled policy t, now := t } := by
  have hclock := hr.clock
  have hgain : w.state.tokens ≤ (w.state.refilled policy t).tokens := by
    apply le_min
    · have hrefill := refill_nonneg policy (t - w.state.refilledAt)
      change w.state.tokens ≤ w.state.tokens + refill policy (t - w.state.refilledAt)
      linarith
    · exact hr.burst
  constructor
  · exact le_refl t
  · exact hr.funded.trans hgain
  · exact min_le_right _ _
  · intro serial u hu
    exact (hr.dated serial u hu).trans (hclock.trans ht)
  · intro a ha
    change a ≤ t at ha
    change 2 * (admissions a t w.log : ℚ) + (w.state.refilled policy t).tokens ≤
      policy.burst + refill policy (t - a)
    rcases le_or_gt a w.state.refilledAt with hold | hnew
    · have hspent := hr.spent a hold
      have hsplit : t - a = (t - w.state.refilledAt) + (w.state.refilledAt - a) := by omega
      have htokens : (w.state.refilled policy t).tokens ≤
          w.state.tokens + refill policy (t - w.state.refilledAt) := min_le_left _ _
      rw [hr.until (b := t) (hclock.trans ht) le_rfl, hsplit, refill_add]
      linarith
    · have hburst : (w.state.refilled policy t).tokens ≤ policy.burst := min_le_right _ _
      have hrefill := refill_nonneg policy (t - a)
      rw [hr.none_after hnew]
      push_cast
      linarith
  · exact hr.window

theorem Rationed.admitted (hr : Rationed policy w) {t serial : ℕ} {s : State}
    {held : List Held} (hrefilled : w.state.refilledAt = t) (hnow : w.now = t)
    (hfunded : 2 ≤ w.state.tokens) (htokens : s.tokens = w.state.tokens - 2)
    (hat : s.refilledAt = t) : Rationed policy ⟨s, held, .admitted serial t :: w.log, t⟩ := by
  have hburst := hr.burst
  have hone : ∀ a b, a ≤ t → (admissions a b (.admitted serial t :: w.log) : ℚ) ≤
      admissions a t w.log + 1 := by
    intro a b ha
    rw [admissions_cons_admitted]
    rcases le_or_gt t b with hb | hb
    · rw [hr.until (b := b) (c := t) (by omega) (by omega), if_pos ⟨ha, hb⟩]
      push_cast
      exact le_rfl
    · rw [if_neg (by omega)]
      have hle : admissions a b w.log ≤ admissions a t w.log := by
        apply List.countP_mono_left
        intro m _ hin
        cases m with
        | failed permit => cases hin
        | admitted serial u =>
            simp only [Mark.admittedIn, decide_eq_true_eq] at hin ⊢
            omega
      push_cast
      have hcast : (admissions a b w.log : ℚ) ≤ admissions a t w.log := by exact_mod_cast hle
      linarith
  have hspent : ∀ a, a ≤ t → 2 * (admissions a t w.log : ℚ) + w.state.tokens ≤
      policy.burst + refill policy (t - a) := by
    intro a ha
    rw [← hrefilled]
    exact hr.spent a (hrefilled ▸ ha)
  constructor
  · exact hat.le
  · change 0 ≤ s.tokens
    linarith
  · change s.tokens ≤ policy.burst
    linarith
  · intro n u hu
    change u ≤ s.refilledAt
    rw [hat]
    cases hu with
    | head => exact le_rfl
    | tail _ hu => exact hrefilled ▸ hr.dated n u hu
  · intro a ha
    change a ≤ s.refilledAt at ha
    change 2 * (admissions a s.refilledAt (.admitted serial t :: w.log) : ℚ) + s.tokens ≤
      policy.burst + refill policy (s.refilledAt - a)
    rw [hat] at ha ⊢
    have hcount := hone a t ha
    have hsum := hspent a ha
    linarith
  · intro a b hab
    change 2 * (admissions a b (.admitted serial t :: w.log) : ℚ) ≤ _
    by_cases hin : a ≤ t ∧ t ≤ b
    · have hcount := hone a b hin.1
      have hsum := hspent a hin.1
      have hmono := refill_mono policy (a := t - a) (b := b - a) (by omega)
      linarith
    · rw [admissions_cons_admitted, if_neg hin]
      exact hr.window a b hab

/-- The log and the bucket are all that counts. -/
theorem Rationed.congr (hr : Rationed policy w) (htokens : w'.state.tokens = w.state.tokens)
    (hat : w'.state.refilledAt = w.state.refilledAt) (hnow : w.now ≤ w'.now)
    (hlog : w'.log = w.log ∨ ∃ permit, w'.log = .failed permit :: w.log) : Rationed policy w' := by
  have hcount : ∀ a b, admissions a b w'.log = admissions a b w.log := by
    intro a b
    obtain hlog | ⟨permit, hlog⟩ := hlog
    · rw [hlog]
    · rw [hlog, admissions_cons_failed]
  constructor
  · rw [hat]
    exact hr.clock.trans hnow
  · rw [htokens]
    exact hr.funded
  · rw [htokens]
    exact hr.burst
  · intro serial t ht
    rw [hat]
    obtain hlog | ⟨permit, hlog⟩ := hlog
    · exact hr.dated serial t (hlog ▸ ht)
    · rw [hlog] at ht
      cases ht with
      | tail _ ht => exact hr.dated serial t ht
  · intro a ha
    rw [hat] at ha
    rw [htokens, hat, hcount]
    exact hr.spent a ha
  · intro a b hab
    rw [hcount]
    exact hr.window a b hab

theorem Denied.rationed {s : State} {t : ℕ} (h : Denied policy t w.state s)
    (hr : Rationed policy w) (ht : w.now ≤ t) :
    Rationed policy { w with state := s, now := t } := by
  cases h with
  | circuit => exact hr.congr rfl rfl ht (.inl rfl)
  | concurrency => exact hr.congr rfl rfl ht (.inl rfl)
  | rate => exact (hr.refilled ht).congr rfl rfl le_rfl (.inl rfl)

theorem succeeded_bucket (p : ProviderPermit) (s : State) :
    (p.succeeded s).tokens = s.tokens ∧ (p.succeeded s).refilledAt = s.refilledAt := by
  unfold ProviderPermit.succeeded
  dsimp only
  split_ifs <;> exact ⟨rfl, rfl⟩

theorem Rationed.step (hr : Rationed policy w) (hs : Step policy baseBackoff w e w') :
    Rationed policy w' := by
  cases hs with
  | @admitted t permit s ht h =>
      obtain ⟨-, -, -, hfunded, -, rfl⟩ := admitted_of_ok h
      exact (hr.refilled ht).admitted rfl rfl hfunded rfl rfl
  | denied ht h => exact (denied_of_error h).rationed hr ht
  | marked hheld hdrop hpermit => exact hr.congr rfl rfl le_rfl (.inl rfl)
  | @succeeded l₁ l₂ h hheld hdrop =>
      obtain ⟨htokens, hat⟩ := succeeded_bucket h.permit w.state
      exact hr.congr htokens hat le_rfl (.inl rfl)
  | failed ht => exact hr.congr rfl rfl ht (.inr ⟨_, rfl⟩)
  | abandoned ht hheld hdrop habandoned =>
      rw [ProviderPermit.dropFailure, if_pos habandoned]
      exact hr.congr rfl rfl ht (.inr ⟨_, rfl⟩)
  | released hheld hdrop hrelease =>
      obtain ⟨-, rfl⟩ := release_eq hrelease
      exact hr.congr rfl rfl le_rfl (.inl rfl)

end Rate

section Circuit

variable {policy : ProviderPolicy} {baseBackoff : ℕ} {w w' : World} {e : Event}

theorem reachable_invariants (hw : Reachable policy baseBackoff w) :
    Counted policy w ∧ Dated w ∧ Rationed policy w := by
  induction hw with
  | start now => exact ⟨.start now, .start now, .start now⟩
  | step _ hs ih => exact ⟨ih.1.step hs, ih.2.1.step hs, ih.2.2.step hs⟩

/-- What holds of a provider at any moment. -/
structure Sound (policy : ProviderPolicy) (w : World) : Prop where
  counted : Counted policy w
  released : ∀ h ∈ w.held, ∃ s, h.permit.release w.state = some s
  serials : (w.held.map Held.serial).Nodup
  numbered : w.log.filterMap Mark.serial? = (List.range w.state.counters.attempts).reverse
  failures : w.state.counters.failures = failuresIn w.log
  window : ∀ a b, a ≤ b → 2 * (admissions a b w.log : ℚ) ≤
    policy.burst + ((b - a : ℕ) : ℚ) / nanosPerSecond * policy.requestsPerSecond

/-- The success that may close a circuit: that of the probe, when no failure has been recorded since
its admission. -/
def Recovered (w : World) (e : Event) : Prop :=
  ∃ h ∈ w.held, e = .succeed h.serial ∧ h.permit.probe = true ∧ w.state.halfOpen = true ∧
    ∃ newer older t, w.log = newer ++ .admitted h.serial t :: older ∧ failuresIn newer = 0

/-- What a step may do to the circuit. -/
structure Guarded (w : World) (e : Event) (w' : World) : Prop where
  grant : e = .grant → w.state.halfOpen = false ∧ ∀ u, w.state.openUntil = some u → u ≤ w'.now
  opened : ∀ u, w.state.openUntil = some u →
    (∃ u', w'.state.openUntil = some u' ∧ u ≤ u') ∨ Recovered w e
  failed : e = .fail ∨ (∃ serial, e = .abandon serial) →
    w'.state.counters.failures = w.state.counters.failures + 1 ∧
      ∃ u, w'.state.openUntil = some u ∧ w'.now ≤ u
  dropped : ∀ serial, e = .release serial → ∃ h ∈ w.held, h.serial = serial ∧
    (h.permit.completed = true ∨
      h.permit.cancelClosedNeutrally = true ∧ h.permit.probe = false ∨
      .failed (some serial) ∈ w.log)

theorem failedAt_open (policy : ProviderPolicy) (s : State) (base : ℕ) (retryAfter : Option ℕ)
    (random t : ℕ) :
    ∃ u, (s.failedAt policy base retryAfter random t).openUntil = some u ∧ t ≤ u ∧
      ∀ old, s.openUntil = some old → old ≤ u := by
  refine ⟨_, rfl, ?_, ?_⟩
  · cases s.openUntil with
    | none => exact Nat.le_add_right _ _
    | some old => exact (Nat.le_add_right _ _).trans (le_max_right _ _)
  · intro old hold
    rw [hold]
    exact le_max_left _ _

/-- A success of a permit that is not the probe leaves an open circuit as it is. -/
theorem Dated.recovered (hd : Dated w) (hc : Counted policy w) {h : Held} (hh : h ∈ w.held) {u : ℕ}
    (hu : w.state.openUntil = some u) :
    (h.permit.succeeded w.state).openUntil = some u ∨ Recovered w (.succeed h.serial) := by
  by_cases hgeneration : h.permit.failureGeneration = w.state.counters.failures
  · right
    have hprobe : h.permit.probe = true := hd.probing (by rw [hu]; rfl) h hh hgeneration
    refine ⟨h, hh, rfl, hprobe, ?_, hd.unfailed hh hgeneration⟩
    have hpos : 0 < probes w.held := List.countP_pos_iff.2 ⟨h, hh, hprobe⟩
    rw [hc.probes] at hpos
    by_contra hhalf
    rw [if_neg hhalf] at hpos
    exact absurd hpos (lt_irrefl 0)
  · left
    rw [ProviderPermit.succeeded]
    dsimp only
    rw [if_neg hgeneration]
    exact hu

theorem kept_open (heq : w'.state.openUntil = w.state.openUntil) (u : ℕ)
    (hu : w.state.openUntil = some u) :
    (∃ u', w'.state.openUntil = some u' ∧ u ≤ u') ∨ Recovered w e :=
  .inl ⟨u, heq.trans hu, le_rfl⟩

/-- Steps that neither grant, fail nor release. -/
theorem Guarded.quiet
    (he : e = .deny ∨ (∃ serial, e = .mark serial) ∨ ∃ serial, e = .succeed serial)
    (hopened : ∀ u, w.state.openUntil = some u →
      (∃ u', w'.state.openUntil = some u' ∧ u ≤ u') ∨ Recovered w e) : Guarded w e w' := by
  constructor
  · rintro rfl
    simp at he
  · exact hopened
  · rintro (rfl | ⟨_, rfl⟩) <;> simp at he
  · rintro _ rfl
    simp at he

theorem step_guarded (hc : Counted policy w) (hd : Dated w)
    (hs : Step policy baseBackoff w e w') : Guarded w e w' := by
  cases hs with
  | @admitted t permit s ht h =>
      obtain ⟨hfree, hreopened, -, -, -, rfl⟩ := admitted_of_ok h
      constructor
      · exact fun _ => ⟨hfree, hreopened⟩
      · exact kept_open rfl
      · rintro (h | ⟨_, h⟩) <;> cases h
      · intro _ h
        cases h
  | denied ht h => exact .quiet (.inl rfl) (kept_open (denied_of_error h).kept.2.2.1)
  | marked hheld hdrop hpermit => exact .quiet (.inr (.inl ⟨_, rfl⟩)) (kept_open rfl)
  | @succeeded l₁ l₂ h hheld hdrop =>
      have hh : h ∈ w.held := by
        rw [hheld]
        simp
      apply Guarded.quiet (.inr (.inr ⟨_, rfl⟩))
      exact fun u hu => (hd.recovered hc hh hu).imp_left fun heq => ⟨u, heq, le_rfl⟩
  | @failed t base random retryAfter ht =>
      obtain ⟨u, hu, hlate, hmono⟩ :=
        failedAt_open policy w.state base retryAfter random t
      constructor
      · intro h
        cases h
      · exact fun old hold => .inl ⟨u, hu, hmono old hold⟩
      · exact fun _ => ⟨rfl, u, hu, hlate⟩
      · intro _ h
        cases h
  | @abandoned l₁ l₂ h t random ht hheld hdrop habandoned =>
      rw [ProviderPermit.dropFailure, if_pos habandoned]
      obtain ⟨u, hu, hlate, hmono⟩ :=
        failedAt_open policy w.state baseBackoff none random t
      constructor
      · intro h
        cases h
      · exact fun old hold => .inl ⟨u, hu, hmono old hold⟩
      · exact fun _ => ⟨rfl, u, hu, hlate⟩
      · intro _ h
        cases h
  | @released l₁ l₂ h s hheld hdrop hrelease =>
      obtain ⟨-, rfl⟩ := release_eq hrelease
      have hh : h ∈ w.held := by
        rw [hheld]
        simp
      constructor
      · intro h
        cases h
      · exact kept_open rfl
      · rintro (h | ⟨_, h⟩) <;> cases h
      · intro serial hserial
        cases hserial
        refine ⟨h, hh, rfl, ?_⟩
        cases habandoned : h.permit.abandoned with
        | true => exact .inr (.inr (hd.dropping h hh (hdrop.trans habandoned)).2)
        | false =>
            cases hcompleted : h.permit.completed with
            | true => exact .inl rfl
            | false =>
                have hcancel : h.permit.cancelClosedNeutrally = true := by
                  simpa [ProviderPermit.abandoned, hcompleted] using habandoned
                exact .inr (.inl ⟨hcancel, hc.neutral h hh hcancel⟩)

/-- Whatever order the permits finish in, the bounds hold and only the probe closes the circuit. -/
theorem circuit_guarded (policy : ProviderPolicy) (baseBackoff : ℕ) (w : World)
    (hw : Reachable policy.bounded baseBackoff w) : Sound policy.bounded w ∧
      ∀ e w', Step policy.bounded baseBackoff w e w' → Guarded w e w' := by
  obtain ⟨hc, hd, hr⟩ := reachable_invariants hw
  constructor
  · exact ⟨hc, fun h hh => hc.released hh, hd.serials, hd.numbered, hd.failures, hr.window⟩
  · exact fun e w' hs => step_guarded hc hd hs

/-- The world after an admission that is granted. -/
def World.grant (w : World) (policy : ProviderPolicy) (t : ℕ) (permit : ProviderPermit) : World :=
  ⟨(w.state.admitAt policy t).2, ⟨w.state.counters.attempts, permit, false⟩ :: w.held,
    .admitted w.state.counters.attempts t :: w.log, t⟩

theorem Reachable.granted (hw : Reachable policy baseBackoff w) (t : ℕ) (permit : ProviderPermit)
    (ht : w.now ≤ t) (h : (w.state.admitAt policy t).1 = .ok permit) :
    Reachable policy baseBackoff (w.grant policy t permit) :=
  hw.step (.admitted ht (Prod.ext h rfl))

/-- One permit at time zero. -/
def firstAdmitted : World :=
  (World.start ProviderPolicy.default.bounded 0).grant ProviderPolicy.default.bounded 0
    ⟨false, false, false, 0⟩

theorem firstAdmitted_reachable :
    Reachable ProviderPolicy.default.bounded nanosPerSecond firstAdmitted :=
  (Reachable.start 0).granted 0 _ le_rfl (by decide +kernel)

def firstFailed : World :=
  ⟨firstAdmitted.state.failedAt ProviderPolicy.default.bounded nanosPerSecond none 0 0,
    firstAdmitted.held, .failed none :: firstAdmitted.log, 0⟩

/-- A failure opens the circuit for a second; the probe that follows closes it. -/
theorem circuit_guarded_sample :
    Recovered (firstFailed.grant ProviderPolicy.default.bounded nanosPerSecond
      ⟨true, false, false, 1⟩) (.succeed 1) := by
  have hfailed : Reachable ProviderPolicy.default.bounded nanosPerSecond firstFailed :=
    firstAdmitted_reachable.step (.failed le_rfl)
  have hprobe := hfailed.granted nanosPerSecond ⟨true, false, false, 1⟩ (by decide)
    (by decide +kernel)
  have hheld : (firstFailed.grant ProviderPolicy.default.bounded nanosPerSecond
      ⟨true, false, false, 1⟩).held =
        [] ++ ⟨1, ⟨true, false, false, 1⟩, false⟩ :: [⟨0, ⟨false, false, false, 0⟩, false⟩] := by
    decide +kernel
  have hguarded := (circuit_guarded ProviderPolicy.default nanosPerSecond _ hprobe).2
  have hopened := (hguarded _ _ (.succeeded hheld rfl)).opened
  obtain ⟨u, hu, -⟩ | hrecovered := hopened nanosPerSecond (by decide +kernel)
  · have hclosed : (some u).isNone = true := by
      rw [← hu]
      decide +kernel
    cases hclosed
  · exact hrecovered

/-- The first permit serves a scheduled observation. -/
def observed : World :=
  { firstAdmitted with
    held := [⟨0, ProviderPermit.scheduledObservation ⟨false, false, false, 0⟩, false⟩] }

/-- A scheduled observation that is cancelled counts no failure. -/
theorem cancelled_spared : ∃ w', Reachable ProviderPolicy.default.bounded nanosPerSecond observed ∧
    (∀ h ∈ observed.held, h.permit.completed = false) ∧
    Step ProviderPolicy.default.bounded nanosPerSecond observed (.release 0) w' ∧
    w'.held = [] ∧ w'.log = [.admitted 0 0] ∧ w'.state.counters.failures = 0 := by
  have hfirst : firstAdmitted.held = [] ++ ⟨0, ⟨false, false, false, 0⟩, false⟩ :: [] := by
    decide +kernel
  have hobserved : Reachable ProviderPolicy.default.bounded nanosPerSecond observed :=
    firstAdmitted_reachable.step (.marked hfirst rfl (.inl rfl))
  have hheld : observed.held =
      [] ++ ⟨0, ProviderPermit.scheduledObservation ⟨false, false, false, 0⟩, false⟩ :: [] := rfl
  obtain ⟨s, hs⟩ := (reachable_invariants hobserved).1.released (.head _)
  obtain ⟨-, hstate⟩ := release_eq hs
  refine ⟨_, hobserved, ?_, .released hheld rfl hs, rfl, rfl, ?_⟩
  · decide
  · rw [hstate]
    decide +kernel

end Circuit

end Cl8yDex.ProviderPool
