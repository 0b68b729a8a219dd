import Cl8yDex.Arithmetic
import Mathlib.Logic.Relation

/-!
# The fee-phase registry

One pair's entry of the indexer's registry. A producer begins a phase at an observation and reports
on it with a guard; a negative report or a rejection revokes the pair's retained mirrors and sets a
watermark that later observations have to cover. Every call holds the registry's lock, prunes first
and reads the clocks several times; a mirror is what the registry reads of it. Times are in
nanoseconds.
-/

namespace Cl8yDex.FeePhase

structure Stamp where
  height : Option ℤ
  atUs : ℤ
  deriving DecidableEq

def heightCovers : Option ℤ → Option ℤ → Prop
  | some new, some old => old ≤ new
  | _, none => True
  | none, some _ => False

instance : (new old : Option ℤ) → Decidable (heightCovers new old)
  | some new, some old => inferInstanceAs (Decidable (old ≤ new))
  | some _, none => .isTrue trivial
  | none, none => .isTrue trivial
  | none, some _ => .isFalse id

def Stamp.covers (s older : Stamp) : Prop :=
  older.atUs ≤ s.atUs ∧ heightCovers s.height older.height

instance (s older : Stamp) : Decidable (s.covers older) := inferInstanceAs (Decidable (_ ∧ _))

/-- A reading of the wall clock and of the monotonic clock. -/
structure Reading where
  utc : ℤ
  instant : ℕ

/-- The readings of one call, in order. -/
abbrev Clock := ℕ → Reading

def Clock.after (clock : Clock) (n : ℕ) : Clock := fun i => clock (n + i)

def timestampMicros (time : ℤ) : ℤ := time / 1000

def timestampMillis (time : ℤ) : ℤ := time / 1000000

def snapshotAgeMs (now time : ℤ) : ℕ :=
  if now < time then u64Max else ((now - time) / 1000000).toNat

def isSnapshotStale (now time : ℤ) (maxStalenessMs : ℕ) : Prop :=
  maxStalenessMs < snapshotAgeMs now time

instance (now time : ℤ) (n : ℕ) : Decidable (isSnapshotStale now time n) :=
  inferInstanceAs (Decidable (_ < _))

def phaseBound : ℕ := 4 * 1000000000

def retentionAgeMs : ℕ := 20000

def maxComplete : ℕ := 128

def maxCompleteBytes : ℕ := 4 * 1024 * 1024

def maxCompleteOrders : ℕ := 4096

/-- What the registry reads of a mirror; `bytes` is its memory, if all its orders are in range, and
`compactBytes` the memory of a clone. -/
structure HopMirror where
  asset0AddrLen : ℕ
  asset1AddrLen : ℕ
  reserve0 : ℕ
  reserve1 : ℕ
  feeBps : ℕ
  blockHeight : Option ℤ
  snapshotAt : ℤ
  fresh : Bool
  bids : ℕ
  asks : ℕ
  bytes : Option ℕ
  compactBytes : ℕ

def HopMirror.clone (m : HopMirror) : HopMirror := { m with bytes := some m.compactBytes }

def HopMirror.stamp (m : HopMirror) : Stamp := ⟨m.blockHeight, timestampMicros m.snapshotAt⟩

structure Complete where
  mirror : HopMirror
  expiryMs : ℤ
  maxAgeMs : ℕ
  bytes : ℕ
  orders : ℕ

structure Phase where
  stamp : Stamp
  reserves : ℕ × ℕ
  pending : Bool
  deadline : ℕ

structure Entry where
  context : String
  qualified : Bool
  assets : ℤ × ℤ
  expiryMs : ℤ
  safetyAgeMs : ℕ
  contextVersion : ℕ
  owner : ℕ
  phase : Option Phase
  negative : Bool
  watermark : Option Stamp
  validated : Option Stamp
  published : Option Stamp
  poolPublished : Option Stamp
  qualifiedFee : Option ℕ
  complete : Option Complete
  poolComplete : Option Complete

section Prune

variable (e : Entry) (clock : Clock)

def i64Max : ℤ := 2 ^ 63 - 1

def saturatingAdd (a b : ℤ) : ℤ := max (-2 ^ 63) (min i64Max (a + b))

def liveTombstone (now : ℤ) : Prop :=
  e.negative = true ∧ ∃ stamp ∈ e.watermark,
    now < saturatingAdd (saturatingAdd (stamp.atUs / 1000) (min i64Max e.safetyAgeMs)) 2

def activeProvenance (now : ℤ) (instant : ℕ) : Prop :=
  liveTombstone e now ∨ ∃ phase ∈ e.phase, instant < phase.deadline

instance (now : ℤ) : Decidable (liveTombstone e now) :=
  inferInstanceAs (Decidable (_ ∧ ∃ stamp ∈ e.watermark, _ < _))

instance (now : ℤ) (instant : ℕ) : Decidable (activeProvenance e now instant) :=
  inferInstanceAs (Decidable (_ ∨ ∃ phase ∈ e.phase, _ < _))

def expirePhase (instant : ℕ) : Entry :=
  match e.phase with
  | none => e
  | some phase =>
      if phase.deadline ≤ instant then
        { e with
          phase := none
          negative := true
          watermark := some phase.stamp
          complete := none
          poolComplete := none }
      else e

def dropStale (now utc : ℤ) (c : Option Complete) : Option Complete :=
  c.filter fun c => ¬(c.expiryMs ≤ now ∨ isSnapshotStale utc c.mirror.snapshotAt c.maxAgeMs)

def pruned : Entry :=
  let now := timestampMillis (clock 0).utc
  let e := expirePhase e (clock 1).instant
  { e with
    complete := dropStale now (clock 2).utc e.complete
    poolComplete := dropStale now (clock 3).utc e.poolComplete }

/-- The entry after pruning; `none` when it is removed. -/
def prune : Option Entry :=
  let now := timestampMillis (clock 0).utc
  let e := pruned e clock
  if now < e.expiryMs ∨ activeProvenance e now (clock 4).instant then some e else none

end Prune

def mirrorCost (m : HopMirror) : Option (ℕ × ℕ) :=
  if m.reserve0 = 0 ∨ m.reserve1 = 0 ∨ 10000 < m.feeBps ∨ (¬ ∃ height ∈ m.blockHeight, 0 < height) ∨
      m.fresh = false ∨ 128 < m.asset0AddrLen ∨ 128 < m.asset1AddrLen ∨ 500 < m.bids ∨
      500 < m.asks then
    none
  else m.bytes.map fun bytes => (bytes, m.bids + m.asks)

structure Qualification where
  assets : ℤ × ℤ
  context : String
  expiryMs : ℤ
  maxAgeMs : ℕ
  mirror : Option HopMirror
  poolMirror : Option HopMirror

/-- How many mirrors are retained, their bytes and their orders. -/
structure Totals where
  count : ℕ
  bytes : ℕ
  orders : ℕ

def Totals.add (t : Totals) (c : Option Complete) : Totals :=
  match c with
  | none => t
  | some c => ⟨t.count + 1, t.bytes + c.bytes, t.orders + c.orders⟩

def Totals.fits (t : Totals) (bytes orders : ℕ) : Prop :=
  t.count < maxComplete ∧ t.bytes + bytes ≤ maxCompleteBytes ∧
    t.orders + orders ≤ maxCompleteOrders

instance (t : Totals) (bytes orders : ℕ) : Decidable (t.fits bytes orders) :=
  inferInstanceAs (Decidable (_ ∧ _ ∧ _))

section Qualify

variable (e : Entry) (q : Qualification) (poolView : Bool) (m : HopMirror) (utc : ℤ)

def publishedAt : Option Stamp := if poolView then e.poolPublished else e.published

/-- A lane does not take the mirror over. -/
def laneSkips : Prop :=
  e.negative = true ∨ (∃ published ∈ publishedAt e poolView, ¬ m.stamp.covers published) ∨
    ((poolView = true ∨ q.poolMirror.isNone) ∧
      ∃ validated ∈ e.validated, ¬ m.stamp.covers validated) ∨
    (∃ watermark ∈ e.watermark, ¬ m.stamp.covers watermark) ∨
    (poolView = false ∧ q.poolMirror.isSome ∧ e.qualifiedFee ≠ some m.feeBps) ∨
    isSnapshotStale utc m.snapshotAt (min q.maxAgeMs retentionAgeMs)

instance : Decidable (laneSkips e q poolView m utc) :=
  inferInstanceAs (Decidable (_ ∨ (∃ published ∈ publishedAt e poolView, _) ∨
    (_ ∧ ∃ validated ∈ e.validated, _) ∨ (∃ watermark ∈ e.watermark, _) ∨ (_ ∧ _ ∧ _) ∨ _))

/-- The observations of a lane after it took over a mirror of a positive book. -/
def publishLane : Entry :=
  if 0 < m.reserve0 ∧ 0 < m.reserve1 ∧ m.feeBps ≤ 10000 ∧ ∃ height ∈ m.blockHeight, 0 < height then
    { e with
      qualifiedFee := some m.feeBps
      validated := if ∀ validated ∈ e.validated, m.stamp.covers validated then some m.stamp
        else e.validated
      poolPublished := if poolView then some m.stamp else e.poolPublished
      published := if poolView then e.published else some m.stamp }
  else e

def saved : Option Complete := if poolView then e.poolComplete else e.complete

def save (c : Option Complete) : Entry :=
  if poolView then { e with poolComplete := c } else { e with complete := c }

/-- A mirror is retained where its cost is known and all retained mirrors fit. -/
def retainLane (others : Totals) : Entry :=
  if ∃ old ∈ saved e poolView, old.mirror.stamp = m.stamp then e
  else
    match mirrorCost m with
    | none => e
    | some (bytes, orders) =>
        let e := save e poolView none
        if ((others.add e.complete).add e.poolComplete).fits bytes orders then
          save e poolView (some
            ⟨m.clone, q.expiryMs, min q.maxAgeMs retentionAgeMs, m.compactBytes, orders⟩)
        else e

def qualifyLane (others : Totals) (mirror : Option HopMirror) : Entry :=
  match mirror with
  | none => e
  | some m =>
      if laneSkips e q poolView m utc then e
      else retainLane (publishLane e poolView m) q poolView m others

end Qualify

/-- The registry as one pair sees it: its entry and the counter all pairs share. -/
structure Registry where
  entry : Entry
  next : ℕ

def nextEpoch (n : ℕ) : Option ℕ := if n + 1 ≤ u64Max then some (n + 1) else none

def Entry.fresh (q : Qualification) (version : ℕ) : Entry where
  context := q.context
  qualified := true
  assets := q.assets
  expiryMs := q.expiryMs
  safetyAgeMs := q.maxAgeMs
  contextVersion := version
  owner := 0
  phase := none
  negative := false
  watermark := none
  validated := none
  published := none
  poolPublished := none
  qualifiedFee := none
  complete := none
  poolComplete := none

def resetContext (e : Entry) (q : Qualification) (version : ℕ) : Entry :=
  { e with
    context := q.context
    assets := q.assets
    contextVersion := version
    phase := none
    owner := 0
    complete := none
    poolComplete := none
    qualifiedFee := none }

/-- The pool's mirror comes first. -/
def qualifyLanes (e : Entry) (q : Qualification) (others : Totals) (clock : Clock) : Entry :=
  let e := { e with
    qualified := true
    expiryMs := q.expiryMs
    safetyAgeMs := max e.safetyAgeMs q.maxAgeMs }
  let e := qualifyLane e q true (clock 0).utc others q.poolMirror
  qualifyLane e q false (clock 1).utc others q.mirror

def contextChanged (e : Entry) (q : Qualification) : Prop :=
  e.context ≠ q.context ∨ e.assets ≠ q.assets

instance (e : Entry) (q : Qualification) : Decidable (contextChanged e q) :=
  inferInstanceAs (Decidable (_ ∨ _))

def qualifyOne (others : Totals) (clock : Clock) (r : Registry) (q : Qualification) :
    Option Registry :=
  if contextChanged r.entry q then do
    let version ← nextEpoch r.next
    return ⟨qualifyLanes (resetContext r.entry q version) q others clock, version⟩
  else return ⟨qualifyLanes r.entry q others clock, r.next⟩

/-- The first qualification of a pair. -/
def qualifyNew (others : Totals) (clock : Clock) (next : ℕ) (q : Qualification) :
    Option Registry := do
  let version ← nextEpoch next
  return ⟨qualifyLanes (resetContext (Entry.fresh q version) q version) q others clock, version⟩

/-- A pair that is not in the list stays while its provenance is active. `admitted` says that the
markers fit and the contexts are well formed. -/
def qualify (r : Registry) (clock : Clock) (qs : List Qualification) (admitted : Bool)
    (others : Totals) : Option Registry := do
  let e ← prune r.entry clock
  match qs with
  | [] =>
      let now := timestampMillis (clock 5).utc
      if activeProvenance e now (clock 6).instant then
        return { r with entry := { e with qualified := false } }
      else none
  | _ =>
      let r := { r with entry := { e with qualified := true } }
      if admitted then
        qs.zipIdx.foldlM (fun r q => qualifyOne others (clock.after (7 + 2 * q.2)) r q.1) r
      else return r

structure FeePhaseGuard where
  contextVersion : ℕ
  owner : ℕ
  stamp : Stamp
  deriving DecidableEq

/-- How `begin` ends. An observation that must be rejected is, after the lock was released. -/
inductive BeginResult
  | refused
  | mustReject
  | begun (guard : FeePhaseGuard)

/-- The entry after a phase has begun. -/
def Entry.beginPhase (e : Entry) (stamp : Stamp) (reserves : ℕ × ℕ) (owner instant : ℕ) : Entry :=
  { e with
    owner := owner
    phase := some ⟨stamp, reserves, true, instant + phaseBound⟩ }

def beginRefused (e : Entry) (stamp : Stamp) : Prop :=
  (∃ phase ∈ e.phase, ¬ stamp.covers phase.stamp) ∨ ∃ old ∈ e.validated, ¬ stamp.covers old

instance (e : Entry) (stamp : Stamp) : Decidable (beginRefused e stamp) :=
  inferInstanceAs (Decidable ((∃ phase ∈ e.phase, _) ∨ ∃ old ∈ e.validated, _))

def begin (r : Registry) (clock : Clock) (assets : ℤ × ℤ) (height : ℤ) (observedAt : ℤ)
    (reserves : ℕ × ℕ) : Option (Registry × BeginResult) :=
  if height ≤ 0 ∨ reserves.1 = 0 ∨ reserves.2 = 0 ∨ (clock 0).utc < observedAt then
    return (r, .mustReject)
  else do
    let e ← prune r.entry (clock.after 1)
    let incoming : Stamp := ⟨some height, timestampMicros observedAt⟩
    if e.qualified = false ∨ e.expiryMs ≤ timestampMillis (clock 6).utc then
      return (⟨e, r.next⟩, .refused)
    else if e.assets ≠ assets then return (⟨e, r.next⟩, .mustReject)
    else if beginRefused e incoming then return (⟨e, r.next⟩, .refused)
    else do
      let owner ← nextEpoch r.next
      return (⟨e.beginPhase incoming reserves owner (clock 7).instant, owner⟩,
        .begun ⟨e.contextVersion, owner, incoming⟩)

inductive Outcome
  | validated
  | transient
  | negative
  deriving DecidableEq

section Finish

variable (e : Entry) (g : FeePhaseGuard)

/-- A negative report counts unless a later validation stands against it. -/
def acceptsNegative : Prop :=
  e.contextVersion = g.contextVersion ∧ ∀ validated ∈ e.validated, g.stamp.covers validated

instance : Decidable (acceptsNegative e g) := inferInstanceAs (Decidable (_ ∧ ∀ v ∈ e.validated, _))

def finishNegative : Entry :=
  if e.negative ∧ e.watermark = some g.stamp then
    { e with phase := if e.owner = g.owner then none else e.phase }
  else
    { e with
      negative := true
      complete := none
      poolComplete := none
      watermark := if ∀ old ∈ e.watermark, g.stamp.covers old then some g.stamp else e.watermark
      phase := if e.owner = g.owner then none else e.phase }

def finishValidated : Entry :=
  if ∃ watermark ∈ e.watermark, ¬ g.stamp.covers watermark then e
  else { e with negative := false, validated := some g.stamp, phase := none }

def finishTransient : Entry :=
  { e with phase := e.phase.map fun phase => { phase with pending := false } }

def finishIn (outcome : Outcome) : Entry :=
  if e.contextVersion ≠ g.contextVersion then e
  else
    match outcome with
    | .negative => if acceptsNegative e g then finishNegative e g else e
    | .validated => if e.owner = g.owner then finishValidated e g else e
    | .transient => if e.owner = g.owner then finishTransient e else e

end Finish

def finish (r : Registry) (clock : Clock) (g : FeePhaseGuard) (outcome : Outcome) :
    Option Registry := do
  let e ← prune r.entry clock
  return { r with entry := finishIn e g outcome }

/-- Without a height, only the time of a rejection is compared. -/
def rejectCovers (rejected old : Stamp) : Prop :=
  old.atUs ≤ rejected.atUs ∧ (rejected.height = none ∨ rejected.covers old)

instance (rejected old : Stamp) : Decidable (rejectCovers rejected old) :=
  inferInstanceAs (Decidable (_ ∧ (_ ∨ _)))

def acceptsReject (e : Entry) (rejected : Stamp) : Prop :=
  (∀ validated ∈ e.validated, rejectCovers rejected validated) ∧
    ∀ watermark ∈ e.watermark, rejectCovers rejected watermark

instance (e : Entry) (rejected : Stamp) : Decidable (acceptsReject e rejected) :=
  inferInstanceAs (Decidable ((∀ v ∈ e.validated, _) ∧ ∀ w ∈ e.watermark, _))

def rejectIn (e : Entry) (rejected : Stamp) (owner : ℕ) : Entry :=
  if acceptsReject e rejected then
    { e with
      negative := true
      complete := none
      poolComplete := none
      phase := none
      owner := owner
      watermark := some rejected }
  else e

def reject (r : Registry) (clock : Clock) (height : Option ℤ) (observedAt : ℤ) :
    Option Registry := do
  let e ← prune r.entry clock
  let owner ← nextEpoch r.next
  return ⟨rejectIn e ⟨height, timestampMicros observedAt⟩ owner, owner⟩

section Queries

variable (e : Entry)

def permitsView (incoming : Stamp) (poolView : Bool) : Prop :=
  e.negative = false ∧ (∀ published ∈ publishedAt e poolView, incoming.covers published) ∧
    ∀ watermark ∈ e.watermark, incoming.covers watermark

instance (incoming : Stamp) (poolView : Bool) : Decidable (permitsView e incoming poolView) :=
  inferInstanceAs (Decidable (_ ∧ (∀ p ∈ publishedAt e poolView, _) ∧ ∀ w ∈ e.watermark, _))

structure RetainedViews where
  hybrid : Option (HopMirror × ℤ)
  pool : Option (HopMirror × ℤ)

def retain (phase : Phase) (now utc : ℤ) (c : Option Complete) : Option (HopMirror × ℤ) :=
  (c.filter fun c => now < min c.expiryMs e.expiryMs ∧
    ¬ isSnapshotStale utc c.mirror.snapshotAt c.maxAgeMs ∧ phase.stamp.covers c.mirror.stamp).map
    fun c => (c.mirror, min c.expiryMs e.expiryMs)

def retainedViews (clock : Clock) (context : String) (incoming : Stamp) (reserves : ℕ × ℕ) :
    Option RetainedViews := do
  let phase ← e.phase
  if e.qualified = false ∨ e.negative = true ∨ e.context ≠ context ∨
      phase.deadline ≤ (clock 0).instant ∨ phase.stamp ≠ incoming ∨ phase.reserves ≠ reserves then
    none
  else
    let now := timestampMillis (clock 1).utc
    let views : RetainedViews :=
      ⟨retain e phase now (clock 2).utc e.complete, retain e phase now (clock 3).utc e.poolComplete⟩
    if views.hybrid.isSome ∨ views.pool.isSome then some views else none

end Queries

end Cl8yDex.FeePhase
