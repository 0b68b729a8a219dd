import Mathlib.Algebra.Order.Field.Rat
import Mathlib.Order.Lattice
import Mathlib.Tactic.Common

/-!
# Admission to a provider

A provider's permits are rationed by a token bucket, a bound on the outstanding ones and a circuit
that opens on failures. An open circuit lets one probe through at a time, and only a success that
no failure has overtaken closes it. Times and durations are nanoseconds.
-/

namespace Cl8yDex.ProviderPool

structure ProviderPolicy where
  concurrency : ℕ
  requestsPerSecond : ℕ
  burst : ℕ
  maxAttempts : ℕ
  attemptTimeoutMs : ℕ
  deadlineMs : ℕ
  maxBackoffMs : ℕ
  maxHeightLag : ℤ

def ProviderPolicy.default : ProviderPolicy := ⟨8, 64, 128, 3, 1000, 4000, 60000, 20⟩

def clamp {α : Type} [LinearOrder α] (a lo hi : α) : α := max lo (min a hi)

def ProviderPolicy.bounded (p : ProviderPolicy) : ProviderPolicy where
  concurrency := clamp p.concurrency 1 32
  requestsPerSecond := clamp p.requestsPerSecond 1 1024
  burst := clamp p.burst 2 1024
  maxAttempts := clamp p.maxAttempts 1 8
  attemptTimeoutMs := clamp p.attemptTimeoutMs 10 5000
  deadlineMs := clamp p.deadlineMs 10 30000
  maxBackoffMs := clamp p.maxBackoffMs 1 300000
  maxHeightLag := clamp p.maxHeightLag 1 1000

def nanosPerMilli : ℕ := 10 ^ 6

def nanosPerSecond : ℕ := 10 ^ 9

structure ProviderCounters where
  attempts : ℕ
  successes : ℕ
  failures : ℕ
  callerCancellations : ℕ
  rateDeferrals : ℕ
  concurrencyDeferrals : ℕ
  circuitDeferrals : ℕ
  recoveryProbes : ℕ
  inFlight : ℕ
  consecutiveFailures : ℕ

structure State where
  tokens : ℚ
  refilledAt : ℕ
  openUntil : Option ℕ
  halfOpen : Bool
  counters : ProviderCounters

inductive ProviderDenial
  | circuitOpen
  | halfOpenBusy
  | concurrency
  | rate
  deriving DecidableEq

structure ProviderPermit where
  probe : Bool
  completed : Bool
  cancelClosedNeutrally : Bool
  failureGeneration : ℕ
  deriving DecidableEq

namespace State

/-- `ProviderState::new`, at the time `now`. -/
def new (policy : ProviderPolicy) (now : ℕ) : State where
  tokens := policy.burst
  refilledAt := now
  openUntil := none
  halfOpen := false
  counters := ⟨0, 0, 0, 0, 0, 0, 0, 0, 0, 0⟩

def circuitDeferred (s : State) : State :=
  { s with counters := { s.counters with circuitDeferrals := s.counters.circuitDeferrals + 1 } }

def concurrencyDeferred (s : State) : State :=
  { s with counters :=
      { s.counters with concurrencyDeferrals := s.counters.concurrencyDeferrals + 1 } }

def rateDeferred (s : State) : State :=
  { s with counters := { s.counters with rateDeferrals := s.counters.rateDeferrals + 1 } }

/-- The bucket at the time `now`. -/
def refilled (s : State) (policy : ProviderPolicy) (now : ℕ) : State :=
  { s with
    tokens := min (s.tokens + (now - s.refilledAt : ℕ) / nanosPerSecond * policy.requestsPerSecond)
      policy.burst
    refilledAt := now }

/-- A permit takes two tokens, for the identity read and the data read. -/
def granted (s : State) : State :=
  let probe := s.openUntil.isSome
  { s with
    tokens := s.tokens - 2
    halfOpen := probe
    counters := { s.counters with
      recoveryProbes := if probe then s.counters.recoveryProbes + 1 else s.counters.recoveryProbes
      inFlight := s.counters.inFlight + 1
      attempts := s.counters.attempts + 1 } }

def permit (s : State) : ProviderPermit :=
  ⟨s.openUntil.isSome, false, false, s.counters.failures⟩

def admitAt (s : State) (policy : ProviderPolicy) (now : ℕ) :
    Except ProviderDenial ProviderPermit × State :=
  if s.halfOpen then (.error .halfOpenBusy, s.circuitDeferred)
  else if s.openUntil.any fun u => now < u then (.error .circuitOpen, s.circuitDeferred)
  else if policy.concurrency ≤ s.counters.inFlight then (.error .concurrency, s.concurrencyDeferred)
  else
    let s := s.refilled policy now
    if s.tokens < 2 then (.error .rate, s.rateDeferred) else (.ok s.permit, s.granted)

/-- The backoff after a failure; `random` is the draw behind the jitter. -/
def backoff (policy : ProviderPolicy) (base : ℕ) (retryAfter : Option ℕ)
    (consecutiveFailures random : ℕ) : ℕ :=
  let cap := policy.maxBackoffMs * nanosPerMilli
  let exponential := min (base * 2 ^ min (consecutiveFailures - 1) 12) cap
  let jitter := if exponential = 0 then 0
    else random % (exponential / nanosPerMilli / 4 + 1) * nanosPerMilli
  min (max (exponential + jitter) (retryAfter.getD 0)) cap

/-- The new state of `failed_at`, which answers with the backoff. -/
def failedAt (s : State) (policy : ProviderPolicy) (base : ℕ) (retryAfter : Option ℕ)
    (random now : ℕ) : State :=
  let consecutiveFailures := min (s.counters.consecutiveFailures + 1) (2 ^ 32 - 1)
  let reopensAt := now + backoff policy base retryAfter consecutiveFailures random
  { s with
    openUntil := some (s.openUntil.elim reopensAt fun old => max old reopensAt)
    counters := { s.counters with
      failures := s.counters.failures + 1
      consecutiveFailures := consecutiveFailures } }

end State

namespace ProviderPermit

variable (p : ProviderPermit)

/-- Only trusted scheduled observations may be cancelled without blame, and no probe. -/
def scheduledObservation : ProviderPermit := { p with cancelClosedNeutrally := !p.probe }

def quarantineIfCancelled : ProviderPermit := { p with cancelClosedNeutrally := false }

def complete : ProviderPermit := { p with completed := true }

/-- What a success does to the provider: it closes the circuit unless a failure came since the
permit was given. -/
def succeeded (s : State) : State :=
  let counted : State :=
    { s with counters := { s.counters with successes := s.counters.successes + 1 } }
  if p.failureGeneration = s.counters.failures then
    { counted with
      openUntil := none
      counters := { counted.counters with consecutiveFailures := 0 } }
  else counted

/-- `Drop` counts a permit that was neither completed nor excused as a failure, -/
def abandoned : Bool := !p.completed && !p.cancelClosedNeutrally

def dropFailure (policy : ProviderPolicy) (baseBackoff random now : ℕ) (s : State) : State :=
  if p.abandoned then s.failedAt policy baseBackoff none random now else s

/-- and gives the permit back under a second lock. A count of zero cannot be lowered. -/
def release (s : State) : Option State :=
  let cancelled := !p.completed && p.cancelClosedNeutrally
  if s.counters.inFlight = 0 then none
  else some { s with
    halfOpen := if p.probe then false else s.halfOpen
    counters := { s.counters with
      callerCancellations :=
        if cancelled then s.counters.callerCancellations + 1 else s.counters.callerCancellations
      inFlight := s.counters.inFlight - 1 } }

end ProviderPermit

section Spec

variable {s s' : State} {policy : ProviderPolicy} {now : ℕ}

/-- When a permit is given, and what it is. -/
structure Admitted (policy : ProviderPolicy) (now : ℕ) (s : State) (permit : ProviderPermit)
    (s' : State) : Prop where
  free : s.halfOpen = false
  reopened : ∀ u, s.openUntil = some u → u ≤ now
  room : s.counters.inFlight < policy.concurrency
  funded : 2 ≤ (s.refilled policy now).tokens
  permit : permit = ⟨s.openUntil.isSome, false, false, s.counters.failures⟩
  state : s' = (s.refilled policy now).granted

/-- A denial counts itself and at most refills the bucket. -/
inductive Denied (policy : ProviderPolicy) (now : ℕ) (s : State) : State → Prop
  | circuit : Denied policy now s s.circuitDeferred
  | concurrency : Denied policy now s s.concurrencyDeferred
  | rate : Denied policy now s (s.refilled policy now).rateDeferred

theorem admitAt_cases (s : State) (policy : ProviderPolicy) (now : ℕ) :
    (∃ permit s', s.admitAt policy now = (.ok permit, s') ∧ Admitted policy now s permit s') ∨
      ∃ e s', s.admitAt policy now = (.error e, s') ∧ Denied policy now s s' := by
  unfold State.admitAt
  split_ifs with hfree hopen hroom
  · exact .inr ⟨_, _, rfl, .circuit⟩
  · exact .inr ⟨_, _, rfl, .circuit⟩
  · exact .inr ⟨_, _, rfl, .concurrency⟩
  · dsimp only
    split_ifs with hrate
    · exact .inr ⟨_, _, rfl, .rate⟩
    · refine .inl ⟨_, _, rfl, ?_⟩
      constructor
      · simpa using hfree
      · intro u hu
        rw [hu] at hopen
        simpa using hopen
      · exact not_le.1 hroom
      · exact not_lt.1 hrate
      · rfl
      · rfl

theorem admitted_of_ok {permit : ProviderPermit}
    (h : s.admitAt policy now = (.ok permit, s')) : Admitted policy now s permit s' := by
  obtain ⟨_, _, heq, hspec⟩ | ⟨_, _, heq, -⟩ := admitAt_cases s policy now
  · cases heq.symm.trans h
    exact hspec
  · cases heq.symm.trans h

theorem denied_of_error {e : ProviderDenial}
    (h : s.admitAt policy now = (.error e, s')) : Denied policy now s s' := by
  obtain ⟨_, _, heq, -⟩ | ⟨_, _, heq, hspec⟩ := admitAt_cases s policy now
  · cases heq.symm.trans h
  · cases heq.symm.trans h
    exact hspec

end Spec

end Cl8yDex.ProviderPool
