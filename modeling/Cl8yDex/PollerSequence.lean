import Cl8yDex.PollerReorgs

/-!
# Heights in sequence

An undisturbed run commits each height once and in order, and stops at a reorg. A configured start
above block 1 is lost: with no stored checkpoint the first verification resynchronizes the cursor
to 0.
-/

namespace Cl8yDex.Poller

open Relation

variable {allowed : State → Event → Prop} {s s' st : State} {stored₀ : Option Checkpoint}
  {startBlock : Option ℤ} {chain : Chain} {latest : ℤ} {h blockHash : String} {w : Write}

/-- What a run of the poller has done by a state. -/
structure InSequence (stored₀ : Option Checkpoint) (startBlock : Option ℤ)
    (allowed : State → Event → Prop) (st : State) : Prop where
  start : ∀ S, stored₀ = none → startBlock = some S → ∀ pre w post, st.log = pre ++ w :: post →
    (∀ x ∈ pre, x.byPoller = false) → w.byPoller = true → w.after.height = S
  above : ∀ w ∈ st.log, w.byPoller = true → w.after.height = w.seen + 1
  unskipped : ∀ w ∈ st.log, w.byPoller = true → w.after.height = w.before.height + 1
  linked : st.log.IsChain fun x y => y.before = x.after
  once : ∀ pre seg post, st.log = pre ++ seg ++ post → (∀ w ∈ seg, ¬ w.rewinds) →
    ((seg.filter Write.byPoller).map fun w => w.after.height).Pairwise (· < ·)
  halts : ∀ pre w post, st.log = pre ++ w :: post → w.crosses → ∀ x ∈ post, x.byPoller = false
  caught : ∀ w ∈ st.log, w.crosses → ¬ st.phase.over → ∃ h, st.Stale h
  detects : ∀ latest h canonical, st.phase = .comparing latest h →
    st.chain.hash st.cursor = some canonical → h ≠ canonical →
    Step allowed st { st with phase := .ended (.reorgDetected st.cursor h canonical) } ∧
      ∀ st', Step allowed st st' → ¬ st'.phase.committing
  ended : ∀ outcome, st.phase = .ended outcome → ∀ st', Step allowed st st' →
    st'.phase = .ended outcome ∧ ∀ w ∈ st'.log, w.byPoller = true → w ∈ st.log

theorem Recorded.start (hr : Recorded stored₀ startBlock s)
    (hstart : getLastIndexedHeight stored₀ = 0 → ∀ S ∈ startBlock, S ≤ 1) {S : ℤ}
    (hnone : stored₀ = none) (hS : startBlock = some S) {pre post : List Write}
    (hlog : s.log = pre ++ w :: post) (hpre : ∀ x ∈ pre, x.byPoller = false)
    (hw : w.byPoller = true) : w.after.height = S := by
  have hcursor : startCursor stored₀ startBlock = S - 1 := by
    rw [hnone, hS]
    rfl
  have hle : S ≤ 1 := hstart (by rw [hnone]; rfl) S hS
  have hfirst := hr.first (by omega) pre w post hlog hpre hw
  omega

theorem mismatch_stops {canonical : String}
    (hphase : s.phase = .comparing latest h) (hhash : s.chain.hash s.cursor = some canonical)
    (hne : h ≠ canonical) (hstep : Step allowed s s') : ¬ s'.phase.committing := by
  cases hstep with
  | matched hphase' hhash' =>
      rw [hphase] at hphase'
      cases hphase'
      rw [hhash] at hhash'
      exact absurd (Option.some.inj hhash').symm hne
  | unchanged hphase' | fetch hphase' | retry hphase' | commit hphase' | poll hphase' =>
      rw [hphase] at hphase'
      cases hphase'
  | replaced | moved =>
      change ¬ s.phase.committing
      rw [hphase]
      exact id
  | _ => exact id

theorem ended_stays {outcome : Outcome}
    (hphase : s.phase = .ended outcome) (hstep : Step allowed s s') :
    s'.phase = .ended outcome ∧ ∀ w ∈ s'.log, w.byPoller = true → w ∈ s.log := by
  cases hstep with
  | failed hrunning => exact absurd hphase (hrunning outcome)
  | cancelled hrunning => exact absurd hphase (hrunning outcome)
  | replaced => exact ⟨hphase, fun w hw _ => hw⟩
  | moved =>
      refine ⟨hphase, fun w hw hpoller => ?_⟩
      rcases List.mem_append.1 hw with hw | hw
      · exact hw
      · rw [List.mem_singleton.1 hw] at hpoller
        cases hpoller
  | poll hphase' | unchanged hphase' | resync hphase' | compare hphase' | matched hphase'
  | reorg hphase' | reverify hphase' | fetch hphase' | retry hphase' | commit hphase'
  | commitFailed hphase' =>
      rw [hphase] at hphase'
      cases hphase'

/-- In an undisturbed run that does not start at a block above 1, the poller commits each height
once, in order, and does not go on above a replaced block. -/
theorem poller_in_sequence
    (hstart : getLastIndexedHeight stored₀ = 0 → ∀ S ∈ startBlock, S ≤ 1)
    (hrun : ReflTransGen (Step Undisturbed) (.initial chain stored₀ startBlock) st) :
    InSequence stored₀ startBlock Undisturbed st := by
  obtain ⟨-, hr⟩ := run_recorded hrun
  have hh := run_halting hrun
  constructor
  · exact fun S hnone hS pre w post hlog hpre hw => hr.start hstart hnone hS hlog hpre hw
  · exact fun w hw hpoller => (hr.follows w hw hpoller).above
  · exact fun w hw hpoller => (hr.follows w hw hpoller).next
  · exact hr.linked
  · intro pre seg post hlog hrewinds
    have hlinked := hr.linked
    rw [hlog] at hlinked
    apply commits_increase hlinked.left_of_append.right_of_append _ hrewinds
    intro w hw
    apply hr.follows w
    rw [hlog]
    exact List.mem_append_left _ (List.mem_append_right _ hw)
  · exact fun pre w post hlog hw => (hh.halted pre w post hlog hw).1
  · intro w hw hcrosses hrunning
    apply hh.stale _ hrunning
    by_contra hcrossed
    exact hh.not_crosses hrunning hcrossed hw hcrosses
  · intro latest h canonical hphase hhash hne
    exact ⟨.reorg hphase hhash hne, fun st' hstep => mismatch_stops hphase hhash hne hstep⟩
  · exact fun outcome hphase st' hstep => ended_stays hphase hstep

/-- Block 1 is committed from a fresh cursor. -/
def State.firstBlock (s : State) (blockHash : String) : State :=
  State.commit { s with
      phase := .ingesting s.chain.tip blockHash
      seen := getLastIndexedHeight s.stored }
    blockHash (nextPhase (s.cursor + 1) s.chain.tip)

theorem firstBlock_run (hphase : s.phase = .polling) (hcursor : s.cursor = 0)
    (hhash : s.chain.hash 1 = some blockHash)
    (hallowed : ∀ s : State, s.cursor = 0 → allowed s .fetched) :
    ReflTransGen (Step allowed) s (s.firstBlock blockHash) := by
  have htip : s.cursor < s.chain.tip := by
    have := (s.chain.range 1).1 (by rw [hhash]; rfl)
    omega
  have hpoll : Step allowed s { s with phase := .verifying s.chain.tip } := by
    have hnext : nextPhase s.cursor s.chain.tip = .verifying s.chain.tip := if_pos htip
    have hstep : Step allowed s { s with phase := nextPhase s.cursor s.chain.tip } := .poll hphase
    rw [hnext] at hstep
    exact hstep
  have hverify : verifyCheckpoint s.stored s.cursor = .unchanged := by
    rw [hcursor]
    rfl
  have hnextHash : s.chain.hash (s.cursor + 1) = some blockHash := by
    rw [hcursor]
    exact hhash
  apply ReflTransGen.tail
  · apply ReflTransGen.tail
    · exact (ReflTransGen.single hpoll).tail (.unchanged rfl hverify)
    · exact .fetch rfl hnextHash (hallowed _ hcursor)
  · exact .commit rfl

/-- A chain on which every block has the same hash. -/
def Chain.upTo (tip : ℤ) : Chain where
  tip := tip
  hash h := if 1 ≤ h ∧ h ≤ tip then some "block" else none
  range h := by
    split_ifs with hrange
    · exact iff_of_true rfl hrange
    · exact iff_of_false Bool.false_ne_true hrange
  nonempty h := by
    split_ifs <;> decide

/-- The block above a verified cursor is fetched. -/
def State.ingesting (s : State) (latest : ℤ) (blockHash : String) : State :=
  { s with phase := .ingesting latest blockHash, seen := getLastIndexedHeight s.stored }

theorem verified_run (hphase : s.phase = .verifying latest)
    (hverify : verifyCheckpoint s.stored s.cursor = .compare h)
    (hhash : s.chain.hash s.cursor = some h)
    (hnext : s.chain.hash (s.cursor + 1) = some blockHash) :
    ReflTransGen (Step Undisturbed) s (s.ingesting latest blockHash) := by
  have hon : s.storedOn s.chain := by
    intro _ h' hstored
    rw [(verifyCheckpoint_compare hverify).2.2] at hstored
    rw [← hstored]
    exact hhash
  have hcompare : ReflTransGen (Step Undisturbed) s _ := .single (.compare hphase hverify)
  have hmatched := hcompare.tail (.matched rfl hhash)
  exact hmatched.tail (.fetch rfl hnext hon)

/-- Blocks of the hash `a` below a height, and of the hash `b` from there to the tip. -/
def Chain.forked (tip fork : ℤ) : Chain where
  tip := tip
  hash h := if 1 ≤ h ∧ h ≤ tip then some (if h < fork then "a" else "b") else none
  range h := by
    split_ifs with hrange
    · exact iff_of_true rfl hrange
    · exact iff_of_true rfl hrange
    · exact iff_of_false Bool.false_ne_true hrange
  nonempty h := by
    split_ifs <;> decide

/-- Two heights of the first chain are stored, and the third is fetched. -/
def thirdFetched : State :=
  ((((State.initial (.forked 3 4) none (some 1)).firstBlock "a").ingesting 3 "a").commit "a"
    (.verifying 3)).ingesting 3 "a"

theorem thirdFetched_run : ReflTransGen (Step Undisturbed)
    (.initial (.forked 3 4) none (some 1)) thirdFetched := by
  have hfirst : ReflTransGen (Step Undisturbed) (.initial (.forked 3 4) none (some 1))
      ((State.initial (.forked 3 4) none (some 1)).firstBlock "a") :=
    firstBlock_run rfl rfl rfl fun s hcursor hpos => absurd hcursor hpos.ne'
  have hsecond := hfirst.trans (verified_run rfl rfl rfl rfl)
  exact (hsecond.tail (.commit rfl)).trans (verified_run rfl rfl rfl rfl)

/-- The third block is committed although the chain was replaced from the second block on; the next
verification ends the run. -/
theorem poller_in_sequence_sample : ∃ st : State,
    st.log.map (fun w => w.after.height) = [1, 2, 3] ∧ (∃ w ∈ st.log, w.crosses) ∧
    st.phase = .ended (.reorgDetected 3 "a" "b") ∧
    InSequence none (some 1) Undisturbed st := by
  have hreplaced : Step Undisturbed thirdFetched { thirdFetched with chain := .forked 4 2 } :=
    .replaced (.inr (by decide))
  have hcommitted := (thirdFetched_run.tail hreplaced).tail (.commit rfl)
  have hpolled := hcommitted.tail (.poll rfl)
  have hended := (hpolled.tail (.compare rfl rfl)).tail (.reorg rfl rfl (by decide))
  refine ⟨_, rfl, ?_, rfl, poller_in_sequence ?_ hended⟩
  · refine ⟨_, List.mem_append_right _ (List.mem_singleton_self _), rfl, by decide, "a", rfl, ?_⟩
    decide
  · intro _ S hS
    cases hS
    decide

/-- The cursor of a fresh indexer that was configured to start at block 100, after its first
verification. -/
def resynced : State := { State.initial (.upTo 200) none (some 100) with cursor := 0 }

theorem resynced_run :
    ReflTransGen (Step allowed) (.initial (.upTo 200) none (some 100)) resynced := by
  have hpoll : Step allowed (.initial (.upTo 200) none (some 100))
      { State.initial (.upTo 200) none (some 100) with phase := .verifying 200 } := .poll rfl
  exact (ReflTransGen.single hpoll).tail (.resync rfl rfl)

/-- With no stored checkpoint the database height 0 is not the configured cursor, so the indexer
goes back to block 1. -/
theorem configured_start_lost : ∃ (chain : Chain) (st : State),
    ReflTransGen (Step fun _ _ => True) (.initial chain none (some 100)) st ∧
      ¬ InSequence none (some 100) (fun _ _ => True) st := by
  refine ⟨.upTo 200, resynced.firstBlock "block", ?_, fun hsequence => ?_⟩
  · exact resynced_run.trans (firstBlock_run rfl rfl rfl fun _ _ => trivial)
  · have hfirst := hsequence.start 100 rfl rfl [] _ [] rfl (fun x hx => by cases hx) rfl
    change (1 : ℤ) = 100 at hfirst
    omega

end Cl8yDex.Poller
