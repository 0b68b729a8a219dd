import Cl8yDex.FeePhaseRuns

/-!
# Fee evidence fails closed

Every call in order keeps the entry fenced, so no later query lets an observation or a mirror pass
that does not cover what was revoked. A call out of order lowers the watermark.
-/

namespace Cl8yDex.FeePhase

open Relation

variable {r r' : Registry} {s s' st : State} {e e' : Entry} {accepted : List Stamp} {clock : Clock}
  {a : Action} {q : Qualification} {others : Totals}

theorem qualifyOne_fenced (h : Fenced r.entry accepted)
    (hok : qualifyOne others clock r q = some r') :
    Fenced r'.entry accepted ∧ r'.entry.watermark = r.entry.watermark := by
  unfold qualifyOne at hok
  split at hok
  · obtain ⟨version, -, hok⟩ := Option.bind_eq_some_iff.1 hok
    cases hok
    exact qualifyLanes_fenced (resetContext_fenced h)
  · cases hok
    exact qualifyLanes_fenced h

theorem qualifyAll_fenced {qs : List (Qualification × ℕ)} (h : Fenced r.entry accepted)
    (hok : qs.foldlM (fun r q => qualifyOne others (clock.after (7 + 2 * q.2)) r q.1) r =
      some r') : Fenced r'.entry accepted ∧ r'.entry.watermark = r.entry.watermark := by
  induction qs generalizing r with
  | nil =>
      cases hok
      exact ⟨h, rfl⟩
  | cons q qs ih =>
      rw [List.foldlM_cons] at hok
      obtain ⟨r₁, hfirst, hrest⟩ := Option.bind_eq_some_iff.1 hok
      obtain ⟨hfenced, heq⟩ := qualifyOne_fenced h hfirst
      obtain ⟨hfenced', heq'⟩ := ih hfenced hrest
      exact ⟨hfenced', heq'.trans heq⟩

theorem qualify_fenced {qs : List Qualification} {admitted : Bool} (h : Fenced r.entry accepted)
    (horder : ExpiresInOrder r.entry clock)
    (hok : qualify r clock qs admitted others = some r') :
    Fenced r'.entry accepted ∧ Rises r.entry r'.entry := by
  obtain ⟨hfenced, hrises⟩ := pruned_fenced h horder
  obtain ⟨e, he, hok⟩ := Option.bind_eq_some_iff.1 hok
  rw [← prune_eq_some he] at hfenced hrises
  cases qs with
  | nil =>
      dsimp only at hok
      split at hok
      · cases hok
        exact ⟨⟨hfenced.watermark, hfenced.complete, hfenced.poolComplete⟩, hrises⟩
      · cases hok
  | cons q qs =>
      dsimp only at hok
      have hstart : Fenced { e with qualified := true } accepted :=
        ⟨hfenced.watermark, hfenced.complete, hfenced.poolComplete⟩
      split at hok
      · have hall := qualifyAll_fenced (r := ⟨{ e with qualified := true }, r.next⟩) hstart hok
        exact ⟨hall.1, hrises.trans (.of_eq hall.2)⟩
      · cases hok
        exact ⟨hstart, hrises⟩

theorem begin_fenced {assets : ℤ × ℤ} {height observedAt : ℤ} {reserves : ℕ × ℕ}
    {out : BeginResult} (h : Fenced r.entry accepted)
    (horder : ExpiresInOrder r.entry (clock.after 1))
    (hok : FeePhase.begin r clock assets height observedAt reserves = some (r', out)) :
    Fenced r'.entry accepted ∧ Rises r.entry r'.entry := by
  unfold FeePhase.begin at hok
  split at hok
  · cases hok
    exact ⟨h, .of_eq rfl⟩
  · obtain ⟨hfenced, hrises⟩ := pruned_fenced h horder
    obtain ⟨e, he, hok⟩ := Option.bind_eq_some_iff.1 hok
    rw [← prune_eq_some he] at hfenced hrises
    dsimp only at hok
    split_ifs at hok
    · cases hok
      exact ⟨hfenced, hrises⟩
    · cases hok
      exact ⟨hfenced, hrises⟩
    · cases hok
      exact ⟨hfenced, hrises⟩
    · obtain ⟨owner, -, hok⟩ := Option.bind_eq_some_iff.1 hok
      cases hok
      exact ⟨⟨hfenced.watermark, hfenced.complete, hfenced.poolComplete⟩, hrises⟩

theorem pruned_query_fenced (h : Fenced e accepted) (horder : ExpiresInOrder e clock)
    (hok : prune e clock = some e') : Fenced e' accepted ∧ Rises e e' := by
  rw [prune_eq_some hok]
  exact pruned_fenced h horder

/-- One call in order keeps the entry fenced against what it accepts, too. -/
theorem act_fenced (h : Fenced s.entry s.accepted) (horder : InOrder s clock a)
    (hact : s.act clock a = some s') :
    Fenced s'.entry s'.accepted ∧ Rises s.entry s'.entry := by
  obtain ⟨hexpires, hrevokes⟩ := horder
  obtain ⟨⟨r', guards⟩, happly, rfl⟩ := Option.map_eq_some_iff.1 hact
  change Fenced r'.entry (s.accepted ++ a.revokes (pruned s.entry clock)) ∧
    Rises s.registry.entry r'.entry
  cases a with
  | qualify qs admitted others =>
      obtain ⟨_, hok, heq⟩ := Option.map_eq_some_iff.1 happly
      cases heq
      rw [show (Action.qualify qs admitted others).revokes _ = [] from rfl, List.append_nil]
      exact qualify_fenced h hexpires hok
  | begin assets height observedAt reserves =>
      obtain ⟨⟨_, _⟩, hok, heq⟩ := Option.map_eq_some_iff.1 happly
      cases heq
      rw [show (Action.begin assets height observedAt reserves).revokes _ = [] from rfl,
        List.append_nil]
      exact begin_fenced h hexpires hok
  | finish g outcome =>
      obtain ⟨_, happly⟩ := Option.ite_none_right_eq_some.1 happly
      obtain ⟨_, hok, heq⟩ := Option.map_eq_some_iff.1 happly
      cases heq
      obtain ⟨e, he, hok⟩ := Option.bind_eq_some_iff.1 hok
      cases hok
      obtain ⟨hfenced, hrises⟩ := pruned_fenced h hexpires
      obtain ⟨hfinish, hrises'⟩ := finishIn_fenced hfenced hrevokes
      rw [prune_eq_some he]
      exact ⟨hfinish, hrises.trans hrises'⟩
  | reject height observedAt =>
      obtain ⟨_, hok, heq⟩ := Option.map_eq_some_iff.1 happly
      cases heq
      obtain ⟨e, he, hok⟩ := Option.bind_eq_some_iff.1 hok
      obtain ⟨owner, -, hok⟩ := Option.bind_eq_some_iff.1 hok
      cases hok
      obtain ⟨hfenced, hrises⟩ := pruned_fenced h hexpires
      obtain ⟨hreject, hrises'⟩ := rejectIn_fenced hfenced hrevokes
      rw [prune_eq_some he]
      exact ⟨hreject, hrises.trans hrises'⟩
  | read =>
      obtain ⟨_, hok, heq⟩ := Option.map_eq_some_iff.1 happly
      cases heq
      rw [show Action.read.revokes _ = [] from rfl, List.append_nil]
      exact pruned_query_fenced h hexpires hok
  | elsewhere next =>
      obtain ⟨_, happly⟩ := Option.ite_none_right_eq_some.1 happly
      obtain ⟨_, hok, heq⟩ := Option.map_eq_some_iff.1 happly
      cases heq
      rw [show (Action.elsewhere next).revokes _ = [] from rfl, List.append_nil]
      exact pruned_query_fenced h hexpires hok

/-- A pair's entry as its first qualification leaves it. -/
def State.Begins (s : State) : Prop :=
  ∃ others clock next q, qualifyNew others clock next q = some s.registry ∧ s.guards = [] ∧
    s.accepted = []

theorem State.Begins.fenced (h : s.Begins) : Fenced s.entry s.accepted := by
  obtain ⟨others, clock, next, q, hnew, -, haccepted⟩ := h
  obtain ⟨version, -, hnew⟩ := Option.bind_eq_some_iff.1 hnew
  have hfresh : Fenced (Entry.fresh q version) [] := by
    constructor
    · intro stamp hs
      cases hs
    · intro c hc
      cases hc
    · intro c hc
      cases hc
  have hreset : Fenced (resetContext (Entry.fresh q version) q version) [] :=
    resetContext_fenced hfresh
  rw [haccepted, State.entry, ← Option.some.inj hnew]
  exact (qualifyLanes_fenced hreset).1

theorem run_fenced (hbegins : s.Begins) (hrun : ReflTransGen (Step InOrder) s st) :
    Fenced st.entry st.accepted := by
  induction hrun with
  | refl => exact hbegins.fenced
  | tail _ hstep ih =>
      cases hstep with
      | act _ _ _ horder hact => exact (act_fenced ih horder hact).1

/-- Revoked economics stay closed: the watermark covers every accepted revocation and only rises,
and neither an observation nor a retained mirror passes without covering them. -/
structure FailsClosed (st : State) : Prop where
  watermark : ∀ stamp ∈ st.accepted, ∃ watermark ∈ st.entry.watermark, watermark.covers stamp
  rises : ∀ clock a st', InOrder st clock a → st.act clock a = some st' →
    Rises st.entry st'.entry
  permits : ∀ clock e incoming poolView, ExpiresInOrder st.entry clock →
    prune st.entry clock = some e → permitsView e incoming poolView →
    ∀ stamp ∈ st.accepted, incoming.covers stamp
  retained : ∀ clock e context incoming reserves views, ExpiresInOrder st.entry clock →
    prune st.entry clock = some e →
    retainedViews e (clock.after 5) context incoming reserves = some views →
    ∀ view, view ∈ views.hybrid ∨ view ∈ views.pool →
    ∀ stamp ∈ st.accepted, view.1.stamp.covers stamp

theorem Fenced.permits (h : Fenced e accepted) {incoming : Stamp} {poolView : Bool}
    (hp : permitsView e incoming poolView) : ∀ stamp ∈ accepted, incoming.covers stamp := by
  intro stamp hs
  obtain ⟨watermark, hw, hcovers⟩ := h.watermark stamp hs
  exact (hp.2.2 watermark hw).trans hcovers

theorem mirror_of_retain {phase : Phase} {now utc : ℤ} {c : Option Complete}
    {view : HopMirror × ℤ} (hview : view ∈ retain e phase now utc c) :
    ∃ x ∈ c, x.mirror = view.1 := by
  obtain ⟨x, hx, rfl⟩ := Option.map_eq_some_iff.1 hview
  exact ⟨x, (Option.mem_filter_iff.1 hx).1, rfl⟩

theorem Fenced.retained (h : Fenced e accepted) {context : String} {incoming : Stamp}
    {reserves : ℕ × ℕ} {views : RetainedViews}
    (hviews : retainedViews e clock context incoming reserves = some views) {view : HopMirror × ℤ}
    (hview : view ∈ views.hybrid ∨ view ∈ views.pool) :
    ∀ stamp ∈ accepted, view.1.stamp.covers stamp := by
  intro stamp hs
  obtain ⟨watermark, hw, hcovers⟩ := h.watermark stamp hs
  obtain ⟨phase, -, hviews⟩ := Option.bind_eq_some_iff.1 hviews
  dsimp only at hviews
  split_ifs at hviews
  cases hviews
  rcases hview with hview | hview
  · obtain ⟨x, hx, heq⟩ := mirror_of_retain hview
    rw [← heq]
    exact (h.complete x hx watermark hw).trans hcovers
  · obtain ⟨x, hx, heq⟩ := mirror_of_retain hview
    rw [← heq]
    exact (h.poolComplete x hx watermark hw).trans hcovers

/-- In every run whose calls are in order, revoked fee evidence stays closed. -/
theorem fee_evidence_fails_closed (hbegins : s.Begins)
    (hrun : ReflTransGen (Step InOrder) s st) : FailsClosed st where
  watermark := (run_fenced hbegins hrun).watermark
  rises _ _ _ horder hact := (act_fenced (run_fenced hbegins hrun) horder hact).2
  permits _ _ _ _ horder hok hp :=
    (pruned_query_fenced (run_fenced hbegins hrun) horder hok).1.permits hp
  retained _ _ _ _ _ _ horder hok hviews _ hview :=
    (pruned_query_fenced (run_fenced hbegins hrun) horder hok).1.retained hviews hview

section Samples

instance : Decidable (ExpiresInOrder e clock) :=
  inferInstanceAs (Decidable (∀ phase ∈ e.phase, _ → ∀ watermark ∈ e.watermark, _))

instance : Decidable (RevokesInOrder e a) :=
  match a with
  | .finish guard .negative =>
      inferInstanceAs (Decidable (acceptsNegative e guard → ∀ watermark ∈ e.watermark, _ ∨ _))
  | .reject none observedAt =>
      inferInstanceAs (Decidable (acceptsReject e ⟨none, timestampMicros observedAt⟩ →
        ∀ watermark ∈ e.watermark, watermark.height = none))
  | .finish _ .validated => .isTrue trivial
  | .finish _ .transient => .isTrue trivial
  | .reject (some _) _ => .isTrue trivial
  | .qualify .. => .isTrue trivial
  | .begin .. => .isTrue trivial
  | .read => .isTrue trivial
  | .elsewhere _ => .isTrue trivial

instance : Decidable (InOrder s clock a) := inferInstanceAs (Decidable (_ ∧ _))

/-- The state after allowed calls, each at a reading that does not go back. -/
def State.acts (allowed : State → Clock → Action → Prop)
    [∀ s clock a, Decidable (allowed s clock a)] (s : State) (calls : List (Reading × Action)) :
    Option State :=
  calls.foldlM (fun s c =>
    if (s.time.utc ≤ c.1.utc ∧ s.time.instant ≤ c.1.instant) ∧ allowed s (fun _ => c.1) c.2 then
      s.act (fun _ => c.1) c.2
    else none) s

theorem State.acts_run {allowed : State → Clock → Action → Prop}
    [∀ s clock a, Decidable (allowed s clock a)] {calls : List (Reading × Action)}
    (h : s.acts allowed calls = some s') : ReflTransGen (Step allowed) s s' := by
  induction calls generalizing s with
  | nil =>
      cases h
      exact .refl
  | cons c calls ih =>
      unfold State.acts at h ih
      rw [List.foldlM_cons] at h
      obtain ⟨s₁, hfirst, hrest⟩ := Option.bind_eq_some_iff.1 h
      obtain ⟨⟨hstart, hallowed⟩, hact⟩ := Option.ite_none_right_eq_some.1 hfirst
      exact .head (.act monotone_const monotone_const hstart hallowed hact) (ih hrest)

def sampleQualification : Qualification := ⟨(1, 2), "reviewed", 100000, 20000, none, none⟩

def sampleState : State where
  registry := ⟨qualifyLanes (Entry.fresh sampleQualification 1) sampleQualification ⟨0, 0, 0⟩
    fun _ => ⟨0, 0⟩, 1⟩
  guards := []
  accepted := []
  time := ⟨0, 0⟩

theorem sampleState_begins : sampleState.Begins :=
  ⟨⟨0, 0, 0⟩, fun _ => ⟨0, 0⟩, 0, sampleQualification, rfl, rfl, rfl⟩

/-- A rejection at height 10, after which only a phase above it is validated. -/
theorem fee_evidence_fails_closed_sample : ∃ st : State,
    (st.accepted = [⟨some 10, 100⟩] ∧ st.entry.negative = false) ∧ FailsClosed st := by
  have hok : ((sampleState.acts InOrder
      [(⟨200000, 0⟩, .reject (some 10) 100000), (⟨200000, 0⟩, .begin (1, 2) 11 150000 (1, 1)),
        (⟨200000, 1⟩, .finish ⟨1, 3, ⟨some 11, 150⟩⟩ .validated)]).any fun st =>
      st.accepted = [⟨some 10, 100⟩] ∧ st.entry.negative = false) = true := by
    decide +kernel
  obtain ⟨st, hst, hvalues⟩ := (Option.any_eq_true _ _).1 hok
  exact ⟨st, of_decide_eq_true hvalues,
    fee_evidence_fails_closed sampleState_begins (State.acts_run hst)⟩

/-- A phase begun below the watermark times out and lowers it, and a later one reopens the pair for
an observation that the rejection had revoked. -/
theorem expired_phase_reopens : ∃ s st : State, s.Begins ∧
    ReflTransGen (Step fun _ _ _ => True) s st ∧ ¬ FailsClosed st := by
  have hok : ((sampleState.acts (fun _ _ _ => True)
      [(⟨200000, 0⟩, .reject (some 10) 100000), (⟨200000, 0⟩, .begin (1, 2) 5 50000 (1, 1)),
        (⟨200000, phaseBound⟩, .read),
        (⟨200000, phaseBound⟩, .begin (1, 2) 6 60000 (1, 1)),
        (⟨200000, phaseBound⟩, .finish ⟨1, 4, ⟨some 6, 60⟩⟩ .validated)]).any fun st =>
      (⟨some 10, 100⟩ ∈ st.accepted ∧ ExpiresInOrder st.entry fun _ => ⟨200000, phaseBound⟩) ∧
        (prune st.entry fun _ => ⟨200000, phaseBound⟩).any fun e =>
          permitsView e ⟨some 6, 60⟩ false) = true := by
    decide +kernel
  obtain ⟨st, hst, hvalues⟩ := (Option.any_eq_true _ _).1 hok
  obtain ⟨⟨haccepted, horder⟩, hpermits⟩ := of_decide_eq_true hvalues
  obtain ⟨e, he, hpermits⟩ := (Option.any_eq_true _ _).1 hpermits
  refine ⟨sampleState, st, sampleState_begins, State.acts_run hst, ?_⟩
  intro hclosed
  have hcovers := hclosed.permits _ e _ false horder he (of_decide_eq_true hpermits) _ haccepted
  exact absurd hcovers (by decide)

end Samples

end Cl8yDex.FeePhase
