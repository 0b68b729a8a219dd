import Mathlib.Data.Int.Notation
import Mathlib.Logic.Relation
import Mathlib.Tactic.Common
import Mathlib.Algebra.Order.Ring.Int
import Mathlib.Data.List.Chain

/-!
# The block poller

One indexer advances through the chain height by height. It compares the stored checkpoint with its
cursor and with the provider's hash, fetches the next block and commits a checkpoint. Between any
two awaits the provider's chain may be replaced and another writer may move the stored checkpoint.
-/

namespace Cl8yDex.Poller

/-- One hash per height up to the tip. -/
structure Chain where
  tip : ℤ
  hash : ℤ → Option String
  range : ∀ h, (hash h).isSome ↔ 1 ≤ h ∧ h ≤ tip
  nonempty : ∀ h, hash h ≠ some ""

structure Checkpoint where
  height : ℤ
  hash : Option String
  deriving DecidableEq

section Database

variable (stored : Option Checkpoint)

def getIndexerCheckpoint : Checkpoint :=
  match stored with
  | none => ⟨0, none⟩
  | some c => ⟨c.height, c.hash.filter fun h => h ≠ ""⟩

def getLastIndexedHeight : ℤ := (getIndexerCheckpoint stored).height

def setIndexerCheckpoint (height : ℤ) (blockHash : String) : Option Checkpoint :=
  some ⟨height, some blockHash⟩

/-- What the database says about the cursor; `compare` still needs the provider's hash. -/
inductive CheckpointVerify
  | unchanged
  | resync (dbHeight : ℤ)
  | compare (stored : String)

def verifyCheckpoint (height : ℤ) : CheckpointVerify :=
  if height ≤ 0 then .unchanged
  else
    let c := getIndexerCheckpoint stored
    if c.height ≠ height then .resync c.height
    else
      match c.hash with
      | none => .unchanged
      | some h => .compare h

/-- Where the run begins: after the stored height, or at the configured block when there is none. -/
def startCursor (startBlock : Option ℤ) : ℤ :=
  let lastIndexed := getLastIndexedHeight stored
  if lastIndexed = 0 then
    match startBlock with
    | some start => start - 1
    | none => lastIndexed
  else lastIndexed

end Database

inductive Outcome
  | reorgDetected (height : ℤ) (stored canonical : String)
  | failed
  | cancelled
  deriving DecidableEq

/-- Where the loop waits; `latest` is the tip of the catch-up that runs. -/
inductive Phase
  | polling
  | verifying (latest : ℤ)
  | comparing (latest : ℤ) (stored : String)
  | fetching (latest : ℤ)
  | ingesting (latest : ℤ) (blockHash : String)
  | ended (outcome : Outcome)
  deriving DecidableEq

/-- A write of the checkpoint row. For a commit, `seen` is the stored height that the verification
before it found and `parent` the provider's hash below the committed height. -/
structure Write where
  before : Checkpoint
  after : Checkpoint
  byPoller : Bool
  seen : ℤ
  parent : Option String

def Write.rewinds (w : Write) : Prop := w.byPoller = false ∧ w.after.height < w.before.height

/-- The provider's hash of the height that was stored is not the stored one. -/
def Write.crosses (w : Write) : Prop :=
  w.byPoller = true ∧ 0 < w.before.height ∧ ∃ h, w.before.hash = some h ∧ w.parent ≠ some h

structure State where
  chain : Chain
  stored : Option Checkpoint
  cursor : ℤ
  phase : Phase
  seen : ℤ
  log : List Write

def State.initial (chain : Chain) (stored : Option Checkpoint) (startBlock : Option ℤ) : State where
  chain := chain
  stored := stored
  cursor := startCursor stored startBlock
  phase := .polling
  seen := 0
  log := []

/-- The catch-up loop goes on below its tip and polls again at it. -/
def nextPhase (cursor latest : ℤ) : Phase := if cursor < latest then .verifying latest else .polling

/-- The state after the checkpoint at the height above the cursor was written. -/
def State.commit (s : State) (blockHash : String) (phase : Phase) : State :=
  let stored := setIndexerCheckpoint (s.cursor + 1) blockHash
  { s with
    stored := stored
    cursor := s.cursor + 1
    phase := phase
    log := s.log ++ [⟨getIndexerCheckpoint s.stored, getIndexerCheckpoint stored, true, s.seen,
      s.chain.hash s.cursor⟩] }

def State.move (s : State) (c : Checkpoint) : State :=
  { s with
    stored := some c
    log := s.log ++ [⟨getIndexerCheckpoint s.stored, getIndexerCheckpoint (some c), false, 0,
      none⟩] }

/-- What a condition on runs speaks about: the next block is fetched, or something happens around
the poller. -/
inductive Event
  | fetched
  | replaced (chain : Chain)
  | moved (c : Checkpoint)

/-- One step between two awaits, with the events that are allowed. -/
inductive Step (allowed : State → Event → Prop) : State → State → Prop
  | poll {s : State} (hphase : s.phase = .polling) :
      Step allowed s { s with phase := nextPhase s.cursor s.chain.tip }
  | unchanged {s : State} {latest : ℤ} (hphase : s.phase = .verifying latest)
      (hverify : verifyCheckpoint s.stored s.cursor = .unchanged) :
      Step allowed s { s with phase := .fetching latest, seen := getLastIndexedHeight s.stored }
  | resync {s : State} {latest dbHeight : ℤ} (hphase : s.phase = .verifying latest)
      (hverify : verifyCheckpoint s.stored s.cursor = .resync dbHeight) :
      Step allowed s { s with phase := .polling, cursor := dbHeight }
  | compare {s : State} {latest : ℤ} {stored : String} (hphase : s.phase = .verifying latest)
      (hverify : verifyCheckpoint s.stored s.cursor = .compare stored) :
      Step allowed s { s with
        phase := .comparing latest stored
        seen := getLastIndexedHeight s.stored }
  | matched {s : State} {latest : ℤ} {stored : String} (hphase : s.phase = .comparing latest stored)
      (hhash : s.chain.hash s.cursor = some stored) :
      Step allowed s { s with phase := .fetching latest }
  | reorg {s : State} {latest : ℤ} {stored canonical : String}
      (hphase : s.phase = .comparing latest stored)
      (hhash : s.chain.hash s.cursor = some canonical) (hne : stored ≠ canonical) :
      Step allowed s { s with phase := .ended (.reorgDetected s.cursor stored canonical) }
  /-- A provider that is unavailable makes the verification start over. -/
  | reverify {s : State} {latest : ℤ} {stored : String}
      (hphase : s.phase = .comparing latest stored) :
      Step allowed s { s with phase := .verifying latest }
  | fetch {s : State} {latest : ℤ} {blockHash : String} (hphase : s.phase = .fetching latest)
      (hhash : s.chain.hash (s.cursor + 1) = some blockHash) (hallowed : allowed s .fetched) :
      Step allowed s { s with phase := .ingesting latest blockHash }
  /-- An attempt that failed before its commit is repeated from its fetch. -/
  | retry {s : State} {latest : ℤ} {blockHash : String}
      (hphase : s.phase = .ingesting latest blockHash) :
      Step allowed s { s with phase := .fetching latest }
  | commit {s : State} {latest : ℤ} {blockHash : String}
      (hphase : s.phase = .ingesting latest blockHash) :
      Step allowed s (s.commit blockHash (nextPhase (s.cursor + 1) latest))
  /-- The checkpoint is written, and a later write of the attempt fails. -/
  | commitFailed {s : State} {latest : ℤ} {blockHash : String}
      (hphase : s.phase = .ingesting latest blockHash) :
      Step allowed s (s.commit blockHash (.ended .failed))
  | failed {s : State} (hphase : ∀ outcome, s.phase ≠ .ended outcome) :
      Step allowed s { s with phase := .ended .failed }
  | cancelled {s : State} (hphase : ∀ outcome, s.phase ≠ .ended outcome) :
      Step allowed s { s with phase := .ended .cancelled }
  | replaced {s : State} {chain : Chain} (hallowed : allowed s (.replaced chain)) :
      Step allowed s { s with chain := chain }
  | moved {s : State} {c : Checkpoint} (hallowed : allowed s (.moved c)) :
      Step allowed s (s.move c)

/-- The verification was passed and the commit is still to come. -/
def Phase.committing : Phase → Prop
  | .fetching _ | .ingesting _ _ => True
  | _ => False

/-- The database was read and the commit is still to come. -/
def Phase.verified : Phase → Prop
  | .comparing _ _ | .fetching _ | .ingesting _ _ => True
  | _ => False

def Phase.over : Phase → Prop
  | .ended _ => True
  | _ => False

/-- The last write is a commit above a replaced block. -/
def State.crossed (s : State) : Prop := ∃ w ∈ s.log.getLast?, w.crosses

/-- A chain has the block at the cursor that is stored. -/
def State.storedOn (s : State) (chain : Chain) : Prop :=
  0 < s.cursor → ∀ h, (getIndexerCheckpoint s.stored).hash = some h → chain.hash s.cursor = some h

/-- A replacement of the stored block takes the fetched block along, and no later one brings the
block back that is to be found replaced. -/
def KeepsVerified (s : State) (chain : Chain) : Prop :=
  match s.phase with
  | .ingesting _ blockHash => s.storedOn chain ∨ chain.hash (s.cursor + 1) ≠ some blockHash
  | .ended _ => True
  | _ => s.crossed → chain.hash s.cursor ≠ (getIndexerCheckpoint s.stored).hash

/-- Each block is fetched above the stored one, and nobody moves the checkpoint between a
verification and its commit, under a cursor that is not verified at all, or away from a block that
is to be found replaced. -/
def Undisturbed (s : State) : Event → Prop
  | .fetched => s.storedOn s.chain
  | .replaced chain => KeepsVerified s chain
  | .moved _ => s.phase.over ∨ 0 < s.cursor ∧ ¬ s.phase.verified ∧ ¬ s.crossed

end Cl8yDex.Poller

/-!
## Runs of the poller

In an undisturbed run the stored checkpoint is the cursor from each verification to its commit, and
the verified block stays on the chain. So heights are committed one by one, each on the block it was
verified against.
-/

namespace Cl8yDex.Poller

open Relation

variable {allowed : State → Event → Prop} {s s' st : State} {stored₀ : Option Checkpoint}
  {startBlock : Option ℤ} {chain : Chain} {height latest : ℤ} {h blockHash : String}
  {phase : Phase}

theorem verifyCheckpoint_unchanged {stored : Option Checkpoint}
    (hv : verifyCheckpoint stored height = .unchanged) :
    height ≤ 0 ∨
      getLastIndexedHeight stored = height ∧ (getIndexerCheckpoint stored).hash = none := by
  unfold verifyCheckpoint at hv
  split_ifs at hv with hle
  · exact .inl hle
  · dsimp only at hv
    split_ifs at hv with hne
    cases hhash : (getIndexerCheckpoint stored).hash with
    | none => exact .inr ⟨not_not.1 hne, rfl⟩
    | some h =>
        rw [hhash] at hv
        cases hv

theorem verifyCheckpoint_compare {stored : Option Checkpoint}
    (hv : verifyCheckpoint stored height = .compare h) :
    0 < height ∧ getLastIndexedHeight stored = height ∧
      (getIndexerCheckpoint stored).hash = some h := by
  unfold verifyCheckpoint at hv
  split_ifs at hv with hle
  dsimp only at hv
  split_ifs at hv with hne
  cases hhash : (getIndexerCheckpoint stored).hash with
  | none =>
      rw [hhash] at hv
      cases hv
  | some h' =>
      rw [hhash] at hv
      cases hv
      exact ⟨not_le.1 hle, not_not.1 hne, rfl⟩

theorem verifyCheckpoint_resync {stored : Option Checkpoint} {dbHeight : ℤ}
    (hv : verifyCheckpoint stored height = .resync dbHeight) :
    0 < height ∧ dbHeight = getLastIndexedHeight stored := by
  unfold verifyCheckpoint at hv
  split_ifs at hv with hle
  dsimp only at hv
  split_ifs at hv with hne
  · cases hv
    exact ⟨not_le.1 hle, rfl⟩
  · split at hv <;> cases hv

theorem Chain.pos_of_hash (hhash : chain.hash height = some h) : 1 ≤ height :=
  ((chain.range height).1 (by rw [hhash]; rfl)).1

/-- The stored checkpoint and the chain are as the phase has found them. -/
structure Verified (s : State) : Prop where
  below : ¬ s.phase.over → s.cursor ≤ 0 → getLastIndexedHeight s.stored = s.cursor ∨
    getLastIndexedHeight s.stored = 0
  seen : s.phase.verified → s.seen = getLastIndexedHeight s.stored ∧
    (0 < s.cursor → getLastIndexedHeight s.stored = s.cursor)
  comparing : ∀ latest h, s.phase = .comparing latest h →
    0 < s.cursor ∧ (getIndexerCheckpoint s.stored).hash = some h
  ingesting : ∀ latest blockHash, s.phase = .ingesting latest blockHash → 0 ≤ s.cursor ∧
    blockHash ≠ "" ∧ (s.storedOn s.chain ∨ s.chain.hash (s.cursor + 1) ≠ some blockHash)

/-- A phase in which nothing has been verified. -/
def Phase.idle : Phase → Prop
  | .polling | .verifying _ | .ended _ => True
  | _ => False

theorem Phase.idle_verified (hidle : phase.idle) : ¬ phase.verified := by
  cases phase <;> first | exact id | exact hidle.elim

theorem Phase.committing_verified (hc : phase.committing) : phase.verified := by
  cases phase <;> first | exact hc.elim | trivial

theorem Phase.idle_of_over (hover : phase.over) : phase.idle := by
  cases phase <;> first | exact hover.elim | trivial

theorem Phase.idle_of_not_verified (hphase : ¬ phase.verified) : phase.idle := by
  cases phase <;> first | trivial | exact (hphase trivial).elim

theorem Verified.of_idle (hidle : s.phase.idle) (hbelow : ¬ s.phase.over → s.cursor ≤ 0 →
    getLastIndexedHeight s.stored = s.cursor ∨ getLastIndexedHeight s.stored = 0) :
    Verified s := by
  constructor
  · exact hbelow
  · exact fun hv => absurd hv (Phase.idle_verified hidle)
  · intro latest h hphase
    rw [hphase] at hidle
    exact hidle.elim
  · intro latest blockHash hphase
    rw [hphase] at hidle
    exact hidle.elim

theorem nextPhase_idle {cursor : ℤ} : (nextPhase cursor latest).idle := by
  unfold nextPhase
  split_ifs <;> trivial

theorem initial_verified : Verified (.initial chain stored₀ startBlock) := by
  apply Verified.of_idle
  · trivial
  intro _ _
  change getLastIndexedHeight stored₀ = startCursor stored₀ startBlock ∨
    getLastIndexedHeight stored₀ = 0
  unfold startCursor
  dsimp only
  split_ifs with hzero
  · exact .inr hzero
  · exact .inl rfl

/-- The commit lands on the stored checkpoint. -/
theorem Verified.cursor_eq (hs : Verified s) (hphase : s.phase = .ingesting latest blockHash) :
    getLastIndexedHeight s.stored = s.cursor := by
  have hverified : s.phase.verified := by
    rw [hphase]
    trivial
  have hrunning : ¬ s.phase.over := by
    rw [hphase]
    exact id
  have hpos := (hs.ingesting latest blockHash hphase).1
  rcases lt_or_ge 0 s.cursor with hlt | hle
  · exact (hs.seen hverified).2 hlt
  · have hbelow := hs.below hrunning hle
    omega

theorem Verified.commit (hs : Verified s) (hphase : s.phase = .ingesting latest blockHash)
    (hidle : phase.idle) : Verified (s.commit blockHash phase) := by
  have hpos := (hs.ingesting latest blockHash hphase).1
  apply Verified.of_idle hidle
  intro _ hle
  change s.cursor + 1 ≤ 0 at hle
  omega

theorem Verified.replaced {chain : Chain} (hs : Verified s) (hkeeps : KeepsVerified s chain) :
    Verified { s with chain := chain } := by
  unfold KeepsVerified at hkeeps
  constructor
  · exact hs.below
  · exact hs.seen
  · exact hs.comparing
  · intro latest blockHash hphase
    change s.phase = _ at hphase
    obtain ⟨hpos, hne, -⟩ := hs.ingesting latest blockHash hphase
    rw [hphase] at hkeeps
    exact ⟨hpos, hne, hkeeps⟩

theorem Step.verified (hstep : Step Undisturbed s s') (hs : Verified s) : Verified s' := by
  cases hstep with
  | poll hphase =>
      apply Verified.of_idle nextPhase_idle
      intro _
      exact hs.below (by rw [hphase]; exact id)
  | unchanged hphase hverify =>
      have hfound := verifyCheckpoint_unchanged hverify
      constructor
      · exact fun _ => hs.below (by rw [hphase]; exact id)
      · intro _
        constructor
        · rfl
        intro hpos
        obtain hle | ⟨heq, -⟩ := hfound
        · exact absurd hpos (not_lt.2 hle)
        · exact heq
      · intro latest h hphase'
        cases hphase'
      · intro latest h hphase'
        cases hphase'
  | resync _ hverify =>
      apply Verified.of_idle
      · trivial
      intro _ _
      exact .inl (verifyCheckpoint_resync hverify).2.symm
  | compare hphase hverify =>
      obtain ⟨hpos, heq, hhash⟩ := verifyCheckpoint_compare hverify
      constructor
      · exact fun _ => hs.below (by rw [hphase]; exact id)
      · exact fun _ => ⟨rfl, fun _ => heq⟩
      · intro latest h hphase'
        cases hphase'
        exact ⟨hpos, hhash⟩
      · intro latest h hphase'
        cases hphase'
  | @matched latest stored hphase =>
      have hverified : s.phase.verified := by
        rw [hphase]
        trivial
      constructor
      · exact fun _ => hs.below (by rw [hphase]; exact id)
      · exact fun _ => hs.seen hverified
      · intro latest h hphase'
        cases hphase'
      · intro latest h hphase'
        cases hphase'
  | reorg => exact .of_idle (show Phase.idle (.ended _) from trivial) (absurd trivial)
  | reverify hphase =>
      apply Verified.of_idle
      · trivial
      intro _
      exact hs.below (by rw [hphase]; exact id)
  | @fetch latest blockHash hphase hhash hallowed =>
      have hverified : s.phase.verified := by
        rw [hphase]
        trivial
      constructor
      · exact fun _ => hs.below (by rw [hphase]; exact id)
      · exact fun _ => hs.seen hverified
      · intro latest h hphase'
        cases hphase'
      · intro latest' h hphase'
        cases hphase'
        have hpos := Chain.pos_of_hash hhash
        refine ⟨?_, ?_, .inl hallowed⟩
        · change 0 ≤ s.cursor
          omega
        · intro hempty
          rw [hempty] at hhash
          exact s.chain.nonempty _ hhash
  | @retry latest blockHash hphase =>
      have hverified : s.phase.verified := by
        rw [hphase]
        trivial
      constructor
      · exact fun _ => hs.below (by rw [hphase]; exact id)
      · exact fun _ => hs.seen hverified
      · intro latest h hphase'
        cases hphase'
      · intro latest h hphase'
        cases hphase'
  | commit hphase => exact hs.commit hphase nextPhase_idle
  | commitFailed hphase => exact hs.commit hphase trivial
  | failed => exact .of_idle (show Phase.idle (.ended _) from trivial) (absurd trivial)
  | cancelled => exact .of_idle (show Phase.idle (.ended _) from trivial) (absurd trivial)
  | replaced hallowed => exact hs.replaced hallowed
  | moved hallowed =>
      obtain hover | ⟨hpos, hidle, -⟩ := hallowed
      · exact .of_idle (Phase.idle_of_over hover) (absurd hover)
      · apply Verified.of_idle
        · exact Phase.idle_of_not_verified hidle
        intro _ hle
        exact absurd hpos (not_lt.2 hle)

end Cl8yDex.Poller
