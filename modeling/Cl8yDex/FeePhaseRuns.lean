import Cl8yDex.FeePhase
import Mathlib.Data.Int.ConditionallyCompleteOrder

/-!
# Runs on one entry

The calls that reach a pair's entry, the observations whose revocation was accepted, and the calls
after which the watermark still covers all of them: an expired phase, a rejection and a negative
report have to be in order with the watermark.
-/

namespace Cl8yDex.FeePhase

structure State where
  registry : Registry
  guards : List FeePhaseGuard
  accepted : List Stamp
  time : Reading

def State.entry (s : State) : Entry := s.registry.entry

/-- A call; `read` is any query and `elsewhere` a call on another pair, both of which prune. -/
inductive Action
  | qualify (qs : List Qualification) (admitted : Bool) (others : Totals)
  | begin (assets : ℤ × ℤ) (height observedAt : ℤ) (reserves : ℕ × ℕ)
  | finish (guard : FeePhaseGuard) (outcome : Outcome)
  | reject (height : Option ℤ) (observedAt : ℤ)
  | read
  | elsewhere (next : ℕ)

def BeginResult.guards : BeginResult → List FeePhaseGuard
  | .begun guard => [guard]
  | _ => []

/-- The stamp that a report or a rejection revokes, if the entry accepts it. -/
def Action.revokes (e : Entry) : Action → List Stamp
  | .finish guard .negative => if acceptsNegative e guard then [guard.stamp] else []
  | .reject height observedAt =>
      if acceptsReject e ⟨height, timestampMicros observedAt⟩ then
        [⟨height, timestampMicros observedAt⟩]
      else []
  | _ => []

def Action.apply (r : Registry) (guards : List FeePhaseGuard) (clock : Clock) :
    Action → Option (Registry × List FeePhaseGuard)
  | .qualify qs admitted others =>
      (FeePhase.qualify r clock qs admitted others).map fun r => (r, [])
  | .begin assets height observedAt reserves =>
      (FeePhase.begin r clock assets height observedAt reserves).map fun out =>
        (out.1, out.2.guards)
  | .finish guard outcome =>
      if guard ∈ guards then (FeePhase.finish r clock guard outcome).map fun r => (r, [])
      else none
  | .reject height observedAt => (FeePhase.reject r clock height observedAt).map fun r => (r, [])
  | .read => (prune r.entry clock).map fun e => (⟨e, r.next⟩, [])
  | .elsewhere next =>
      if r.next ≤ next then (prune r.entry clock).map fun e => (⟨e, next⟩, []) else none

/-- The state after a call; `none` when the entry is removed or the call panics. -/
def State.act (s : State) (clock : Clock) (a : Action) : Option State :=
  (a.apply s.registry s.guards clock).map fun out =>
    { registry := out.1
      guards := s.guards ++ out.2
      accepted := s.accepted ++ a.revokes (pruned s.entry clock)
      time := clock 15 }

/-- The readings a call prunes with. -/
def Action.pruneClock (clock : Clock) : Action → Clock
  | .begin .. => clock.after 1
  | _ => clock

/-- A phase that is due has a stamp that covers the watermark. -/
def ExpiresInOrder (e : Entry) (clock : Clock) : Prop :=
  ∀ phase ∈ e.phase, phase.deadline ≤ (clock 1).instant →
    ∀ watermark ∈ e.watermark, phase.stamp.covers watermark

/-- A rejection without a height meets no watermark with one, and a negative report is comparable
with the watermark. -/
def RevokesInOrder (e : Entry) : Action → Prop
  | .finish guard .negative => acceptsNegative e guard →
      ∀ watermark ∈ e.watermark, guard.stamp.covers watermark ∨ watermark.covers guard.stamp
  | .reject none observedAt => acceptsReject e ⟨none, timestampMicros observedAt⟩ →
      ∀ watermark ∈ e.watermark, watermark.height = none
  | _ => True

def InOrder (s : State) (clock : Clock) (a : Action) : Prop :=
  ExpiresInOrder s.entry (a.pruneClock clock) ∧ RevokesInOrder (pruned s.entry clock) a

/-- An allowed call at readings that do not go back. -/
inductive Step (allowed : State → Clock → Action → Prop) : State → State → Prop
  | act {s s' : State} {clock : Clock} {a : Action}
      (hutc : Monotone fun i => (clock i).utc) (hinstant : Monotone fun i => (clock i).instant)
      (hstart : s.time.utc ≤ (clock 0).utc ∧ s.time.instant ≤ (clock 0).instant)
      (hallowed : allowed s clock a) (hact : s.act clock a = some s') : Step allowed s s'

/-- The watermark covers all that was revoked, and the retained mirrors cover the watermark. -/
structure Fenced (e : Entry) (accepted : List Stamp) : Prop where
  watermark : ∀ stamp ∈ accepted, ∃ watermark ∈ e.watermark, watermark.covers stamp
  complete : ∀ c ∈ e.complete, ∀ watermark ∈ e.watermark, c.mirror.stamp.covers watermark
  poolComplete : ∀ c ∈ e.poolComplete, ∀ watermark ∈ e.watermark,
    c.mirror.stamp.covers watermark

/-- The watermark after a call covers the one before. -/
def Rises (e e' : Entry) : Prop :=
  ∀ watermark ∈ e.watermark, ∃ watermark' ∈ e'.watermark, watermark'.covers watermark

theorem heightCovers_trans {a b c : Option ℤ} (hab : heightCovers a b) (hbc : heightCovers b c) :
    heightCovers a c := by
  cases c with
  | none => cases a <;> trivial
  | some z =>
      cases b with
      | none => exact hbc.elim
      | some y =>
          cases a with
          | none => exact hab.elim
          | some x => exact le_trans (show z ≤ y from hbc) hab

theorem heightCovers_refl (a : Option ℤ) : heightCovers a a := by
  cases a with
  | none => trivial
  | some x => exact le_refl x

theorem Stamp.covers_refl (s : Stamp) : s.covers s := ⟨le_rfl, heightCovers_refl s.height⟩

theorem Stamp.covers.trans {a b c : Stamp} (hab : a.covers b) (hbc : b.covers c) : a.covers c :=
  ⟨hbc.1.trans hab.1, heightCovers_trans hab.2 hbc.2⟩

section Entries

variable {e e' : Entry} {accepted : List Stamp} {clock : Clock} {stamp : Stamp}
  {g : FeePhaseGuard} {outcome : Outcome} {q : Qualification} {others : Totals}

theorem Rises.of_eq (h : e'.watermark = e.watermark) : Rises e e' := by
  intro watermark hw
  exact ⟨watermark, h ▸ hw, watermark.covers_refl⟩

theorem Rises.trans {e'' : Entry} (h : Rises e e') (h' : Rises e' e'') : Rises e e'' := by
  intro watermark hw
  obtain ⟨w', hw', hcovers⟩ := h watermark hw
  obtain ⟨w'', hw'', hcovers'⟩ := h' w' hw'
  exact ⟨w'', hw'', hcovers'.trans hcovers⟩

theorem Fenced.rises (h : Fenced e accepted) (hrises : Rises e e') :
    ∀ stamp ∈ accepted, ∃ watermark ∈ e'.watermark, watermark.covers stamp := by
  intro stamp hs
  obtain ⟨w, hw, hcovers⟩ := h.watermark stamp hs
  obtain ⟨w', hw', hcovers'⟩ := hrises w hw
  exact ⟨w', hw', hcovers'.trans hcovers⟩

/-- The retained mirrors are among those before, or none. -/
theorem Fenced.congr (h : Fenced e accepted) (hw : e'.watermark = e.watermark)
    (hc : ∀ c ∈ e'.complete, c ∈ e.complete) (hp : ∀ c ∈ e'.poolComplete, c ∈ e.poolComplete) :
    Fenced e' accepted := by
  constructor
  · exact h.rises (.of_eq hw)
  · intro c hmem
    rw [hw]
    exact h.complete c (hc c hmem)
  · intro c hmem
    rw [hw]
    exact h.poolComplete c (hp c hmem)

/-- All mirrors are dropped and the watermark rises. -/
theorem Fenced.revoked (h : Fenced e accepted) (hrises : Rises e e') (hc : e'.complete = none)
    (hp : e'.poolComplete = none) : Fenced e' accepted := by
  constructor
  · exact h.rises hrises
  · intro c hmem
    rw [hc] at hmem
    cases hmem
  · intro c hmem
    rw [hp] at hmem
    cases hmem

theorem expirePhase_fenced (h : Fenced e accepted) (horder : ExpiresInOrder e clock) :
    Fenced (expirePhase e (clock 1).instant) accepted ∧
      Rises e (expirePhase e (clock 1).instant) := by
  unfold expirePhase
  split
  · exact ⟨h, .of_eq rfl⟩
  · rename_i phase hphase
    split_ifs with hdue
    · have hrises : Rises e { e with
          phase := none
          negative := true
          watermark := some phase.stamp
          complete := none
          poolComplete := none } := by
        intro watermark hw
        exact ⟨phase.stamp, rfl, horder phase hphase hdue watermark hw⟩
      exact ⟨h.revoked hrises rfl rfl, hrises⟩
    · exact ⟨h, .of_eq rfl⟩

theorem pruned_fenced (h : Fenced e accepted) (horder : ExpiresInOrder e clock) :
    Fenced (pruned e clock) accepted ∧ Rises e (pruned e clock) := by
  obtain ⟨hfenced, hrises⟩ := expirePhase_fenced h horder
  refine ⟨hfenced.congr rfl ?_ ?_, hrises.trans (.of_eq rfl)⟩
  · exact fun c hc => (Option.mem_filter_iff.1 hc).1
  · exact fun c hc => (Option.mem_filter_iff.1 hc).1

theorem prune_eq_some (h : prune e clock = some e') : e' = pruned e clock := by
  unfold prune at h
  dsimp only at h
  split_ifs at h
  exact (Option.some.inj h).symm

section Qualify

variable {poolView : Bool} {m : HopMirror} {utc : ℤ} {mirror : Option HopMirror}
  {c : Option Complete}

theorem watermark_save : (save e poolView c).watermark = e.watermark := by
  unfold save
  split <;> rfl

theorem Fenced.save (h : Fenced e accepted)
    (hc : ∀ x ∈ c, ∀ watermark ∈ e.watermark, x.mirror.stamp.covers watermark) :
    Fenced (save e poolView c) accepted := by
  unfold FeePhase.save
  split
  · exact ⟨h.watermark, h.complete, hc⟩
  · exact ⟨h.watermark, hc, h.poolComplete⟩

theorem publishLane_fenced (h : Fenced e accepted) :
    Fenced (publishLane e poolView m) accepted ∧
      (publishLane e poolView m).watermark = e.watermark := by
  unfold publishLane
  split
  · exact ⟨⟨h.watermark, h.complete, h.poolComplete⟩, rfl⟩
  · exact ⟨h, rfl⟩

/-- A mirror is retained only where it covers the watermark. -/
theorem retainLane_fenced (h : Fenced e accepted)
    (hm : ∀ watermark ∈ e.watermark, m.stamp.covers watermark) :
    Fenced (retainLane e q poolView m others) accepted ∧
      (retainLane e q poolView m others).watermark = e.watermark := by
  have hnone : ∀ x ∈ (none : Option Complete), ∀ watermark ∈ e.watermark,
      x.mirror.stamp.covers watermark := by
    intro x hx
    cases hx
  unfold retainLane
  split_ifs
  · exact ⟨h, rfl⟩
  · split
    · exact ⟨h, rfl⟩
    · rename_i bytes orders hcost
      dsimp only
      split_ifs
      · refine ⟨(h.save hnone).save ?_, watermark_save.trans watermark_save⟩
        intro x hx watermark hw
        rw [watermark_save] at hw
        cases hx
        exact hm watermark hw
      · exact ⟨h.save hnone, watermark_save⟩

theorem qualifyLane_fenced (h : Fenced e accepted) :
    Fenced (qualifyLane e q poolView utc others mirror) accepted ∧
      (qualifyLane e q poolView utc others mirror).watermark = e.watermark := by
  unfold qualifyLane
  split
  · exact ⟨h, rfl⟩
  · rename_i m
    split_ifs with hskips
    · exact ⟨h, rfl⟩
    · have hpublish : Fenced (publishLane e poolView m) accepted ∧
          (publishLane e poolView m).watermark = e.watermark := publishLane_fenced h
      obtain ⟨hpublished, heq⟩ := hpublish
      have hm : ∀ watermark ∈ (publishLane e poolView m).watermark, m.stamp.covers watermark := by
        intro watermark hw
        by_contra hne
        exact hskips (.inr (.inr (.inr (.inl ⟨watermark, heq ▸ hw, hne⟩))))
      obtain ⟨hretained, heq'⟩ := retainLane_fenced hpublished hm
      exact ⟨hretained, heq'.trans heq⟩

theorem qualifyLanes_fenced (h : Fenced e accepted) :
    Fenced (qualifyLanes e q others clock) accepted ∧
      (qualifyLanes e q others clock).watermark = e.watermark := by
  have hstart : Fenced { e with
      qualified := true
      expiryMs := q.expiryMs
      safetyAgeMs := max e.safetyAgeMs q.maxAgeMs } accepted :=
    ⟨h.watermark, h.complete, h.poolComplete⟩
  obtain ⟨hpool, heq⟩ := qualifyLane_fenced hstart
  obtain ⟨hhybrid, heq'⟩ := qualifyLane_fenced hpool
  exact ⟨hhybrid, heq'.trans heq⟩

theorem resetContext_fenced {version : ℕ} (h : Fenced e accepted) :
    Fenced (resetContext e q version) accepted :=
  h.revoked (.of_eq rfl) rfl rfl

end Qualify

theorem Fenced.accept (h : Fenced e accepted)
    (hstamp : ∃ watermark ∈ e.watermark, watermark.covers stamp) :
    Fenced e (accepted ++ [stamp]) := by
  refine ⟨?_, h.complete, h.poolComplete⟩
  intro s hs
  rcases List.mem_append.1 hs with hs | hs
  · exact h.watermark s hs
  · rw [List.mem_singleton.1 hs]
    exact hstamp

theorem finishNegative_fenced (h : Fenced e accepted)
    (horder : ∀ watermark ∈ e.watermark, g.stamp.covers watermark ∨ watermark.covers g.stamp) :
    Fenced (finishNegative e g) (accepted ++ [g.stamp]) ∧ Rises e (finishNegative e g) := by
  unfold finishNegative
  split
  · rename_i hsame
    have hrises : Rises e { e with phase := if e.owner = g.owner then none else e.phase } :=
      .of_eq rfl
    have hfenced : Fenced { e with phase := if e.owner = g.owner then none else e.phase }
        accepted := ⟨h.watermark, h.complete, h.poolComplete⟩
    exact ⟨hfenced.accept ⟨g.stamp, hsame.2, g.stamp.covers_refl⟩, hrises⟩
  · by_cases hcovers : ∀ old ∈ e.watermark, g.stamp.covers old
    · rw [if_pos hcovers]
      have hrises : Rises e { e with
          negative := true
          complete := none
          poolComplete := none
          watermark := some g.stamp
          phase := if e.owner = g.owner then none else e.phase } := by
        intro watermark hw
        exact ⟨g.stamp, rfl, hcovers watermark hw⟩
      exact ⟨(h.revoked hrises rfl rfl).accept ⟨g.stamp, rfl, g.stamp.covers_refl⟩, hrises⟩
    · rw [if_neg hcovers]
      have hrises : Rises e { e with
          negative := true
          complete := none
          poolComplete := none
          phase := if e.owner = g.owner then none else e.phase } := .of_eq rfl
      refine ⟨(h.revoked hrises rfl rfl).accept ?_, hrises⟩
      -- the report is older than the watermark, which stays
      obtain ⟨old, hne⟩ := not_forall.1 hcovers
      obtain ⟨hold, hne⟩ := Classical.not_imp.1 hne
      exact ⟨old, hold, (horder old hold).resolve_left hne⟩

theorem finishValidated_fenced (h : Fenced e accepted) :
    Fenced (finishValidated e g) accepted ∧ Rises e (finishValidated e g) := by
  unfold finishValidated
  split
  · exact ⟨h, .of_eq rfl⟩
  · exact ⟨⟨h.watermark, h.complete, h.poolComplete⟩, .of_eq rfl⟩

theorem finishIn_fenced (h : Fenced e accepted)
    (horder : RevokesInOrder e (.finish g outcome)) :
    Fenced (finishIn e g outcome) (accepted ++ (Action.finish g outcome).revokes e) ∧
      Rises e (finishIn e g outcome) := by
  by_cases hversion : e.contextVersion = g.contextVersion
  · unfold finishIn
    rw [if_neg (not_not.2 hversion)]
    cases outcome with
    | validated =>
        change Fenced _ (accepted ++ []) ∧ Rises e _
        rw [List.append_nil]
        dsimp only
        split
        · exact finishValidated_fenced h
        · exact ⟨h, .of_eq rfl⟩
    | transient =>
        change Fenced _ (accepted ++ []) ∧ Rises e _
        rw [List.append_nil]
        dsimp only
        split
        · exact ⟨⟨h.watermark, h.complete, h.poolComplete⟩, .of_eq rfl⟩
        · exact ⟨h, .of_eq rfl⟩
    | negative =>
        change Fenced _ (accepted ++ if acceptsNegative e g then [g.stamp] else []) ∧ Rises e _
        dsimp only
        by_cases haccepts : acceptsNegative e g
        · rw [if_pos haccepts, if_pos haccepts]
          exact finishNegative_fenced h (horder haccepts)
        · rw [if_neg haccepts, if_neg haccepts, List.append_nil]
          exact ⟨h, .of_eq rfl⟩
  · -- the guard was created under another context
    have hrevokes : (Action.finish g outcome).revokes e = [] := by
      cases outcome with
      | validated => rfl
      | transient => rfl
      | negative => exact if_neg fun haccepts => hversion haccepts.1
    rw [hrevokes, List.append_nil]
    unfold finishIn
    rw [if_pos hversion]
    exact ⟨h, .of_eq rfl⟩

theorem rejectIn_fenced {height : Option ℤ} {observedAt : ℤ} {owner : ℕ} (h : Fenced e accepted)
    (horder : RevokesInOrder e (.reject height observedAt)) :
    Fenced (rejectIn e ⟨height, timestampMicros observedAt⟩ owner)
        (accepted ++ (Action.reject height observedAt).revokes e) ∧
      Rises e (rejectIn e ⟨height, timestampMicros observedAt⟩ owner) := by
  set rejected : Stamp := ⟨height, timestampMicros observedAt⟩ with hrejected
  change Fenced _ (accepted ++ if acceptsReject e rejected then [rejected] else []) ∧ Rises e _
  unfold rejectIn
  by_cases haccepts : acceptsReject e rejected
  · rw [if_pos haccepts, if_pos haccepts]
    have hcovers : ∀ watermark ∈ e.watermark, rejected.covers watermark := by
      intro watermark hw
      obtain ⟨htime, hnone | hcovers⟩ := haccepts.2 watermark hw
      · refine ⟨htime, ?_⟩
        have hheight : height = none := hnone
        rw [hrejected, hheight] at haccepts
        rw [hheight] at horder
        rw [hnone, horder haccepts watermark hw]
        trivial
      · exact hcovers
    have hrises : Rises e { e with
        negative := true
        complete := none
        poolComplete := none
        phase := none
        owner := owner
        watermark := some rejected } := by
      intro watermark hw
      exact ⟨rejected, rfl, hcovers watermark hw⟩
    exact ⟨(h.revoked hrises rfl rfl).accept ⟨rejected, rfl, rejected.covers_refl⟩, hrises⟩
  · rw [if_neg haccepts, if_neg haccepts, List.append_nil]
    exact ⟨h, .of_eq rfl⟩

end Entries

end Cl8yDex.FeePhase
