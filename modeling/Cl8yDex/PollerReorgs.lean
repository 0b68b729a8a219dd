import Cl8yDex.PollerRuns

/-!
# What the poller has written

The writes of an undisturbed run follow each other one height at a time, and between two rewinds the
committed heights increase.
-/

namespace Cl8yDex.Poller

open Relation

variable {s s' st : State} {stored₀ : Option Checkpoint} {startBlock : Option ℤ} {chain : Chain}
  {latest : ℤ} {h blockHash : String} {phase : Phase} {w : Write} {log : List Write}

/-- A commit is one height above what was stored and what was verified. -/
structure Write.Follows (w : Write) : Prop where
  next : w.after.height = w.before.height + 1
  above : w.after.height = w.seen + 1

structure Recorded (stored₀ : Option Checkpoint) (startBlock : Option ℤ) (s : State) : Prop where
  linked : s.log.IsChain fun x y => y.before = x.after
  last : ∀ w ∈ s.log.getLast?, w.after = getIndexerCheckpoint s.stored
  follows : ∀ w ∈ s.log, w.byPoller = true → w.Follows
  unwritten : (∀ w ∈ s.log, w.byPoller = false) → startCursor stored₀ startBlock ≤ 0 →
    s.cursor = startCursor stored₀ startBlock
  first : startCursor stored₀ startBlock ≤ 0 → ∀ pre w post, s.log = pre ++ w :: post →
    (∀ x ∈ pre, x.byPoller = false) → w.byPoller = true →
    w.after.height = startCursor stored₀ startBlock + 1

theorem Recorded.congr (hr : Recorded stored₀ startBlock s) (hlog : s'.log = s.log)
    (hstored : s'.stored = s.stored) (hcursor : s'.cursor = s.cursor) :
    Recorded stored₀ startBlock s' := by
  constructor
  · rw [hlog]
    exact hr.linked
  · rw [hlog, hstored]
    exact hr.last
  · rw [hlog]
    exact hr.follows
  · rw [hlog, hcursor]
    exact hr.unwritten
  · rw [hlog]
    exact hr.first

/-- Where a written entry stands after one more write. -/
theorem concat_eq_append_cons {x : Write} {pre post : List Write}
    (heq : log ++ [x] = pre ++ w :: post) :
    post = [] ∧ w = x ∧ log = pre ∨ ∃ rest, post = rest ++ [x] ∧ log = pre ++ w :: rest := by
  rcases List.eq_nil_or_concat post with rfl | ⟨rest, y, rfl⟩
  · obtain ⟨hlog, hx⟩ := List.append_inj' heq rfl
    cases hx
    exact .inl ⟨rfl, rfl, hlog⟩
  · rw [List.concat_eq_append, ← List.cons_append, ← List.append_assoc] at heq
    obtain ⟨hlog, hx⟩ := List.append_inj' heq rfl
    cases hx
    exact .inr ⟨rest, List.concat_eq_append, hlog⟩

theorem Recorded.write (hr : Recorded stored₀ startBlock s) (hlog : s'.log = s.log ++ [w])
    (hbefore : w.before = getIndexerCheckpoint s.stored)
    (hafter : w.after = getIndexerCheckpoint s'.stored)
    (hfollows : w.byPoller = true → w.Follows)
    (hunwritten : w.byPoller = false → startCursor stored₀ startBlock ≤ 0 →
      s.cursor = startCursor stored₀ startBlock → s'.cursor = s.cursor)
    (hfirst : w.byPoller = true → w.after.height = s.cursor + 1) :
    Recorded stored₀ startBlock s' := by
  constructor
  · rw [hlog, List.isChain_append]
    refine ⟨hr.linked, List.isChain_singleton _, ?_⟩
    intro x hx y hy
    cases hy
    rw [hbefore, hr.last x hx]
  · rw [hlog, List.getLast?_concat]
    intro x hx
    cases hx
    exact hafter
  · rw [hlog]
    intro x hx
    rcases List.mem_append.1 hx with hx | hx
    · exact hr.follows x hx
    · rw [List.mem_singleton.1 hx]
      exact hfollows
  · rw [hlog]
    intro hothers hle
    have hcursor := hr.unwritten (fun x hx => hothers x (List.mem_append_left _ hx)) hle
    have hw := hothers w (List.mem_append_right _ (List.mem_singleton_self w))
    exact (hunwritten hw hle hcursor).trans hcursor
  · intro hle pre x post heq hpre hx
    rw [hlog] at heq
    rcases concat_eq_append_cons heq with ⟨-, rfl, rfl⟩ | ⟨rest, -, hold⟩
    · rw [← hr.unwritten hpre hle]
      exact hfirst hx
    · exact hr.first hle pre x rest hold hpre hx

theorem Recorded.commit (hr : Recorded stored₀ startBlock s) (hs : Verified s)
    (hphase : s.phase = .ingesting latest blockHash) :
    Recorded stored₀ startBlock (s.commit blockHash phase) := by
  have hcursor := hs.cursor_eq hphase
  have hverified : s.phase.verified := by
    rw [hphase]
    trivial
  apply hr.write rfl rfl rfl
  · intro _
    constructor
    · exact congrArg (· + 1) hcursor.symm
    · exact congrArg (· + 1) (hcursor.symm.trans (hs.seen hverified).1.symm)
  · intro hw
    cases hw
  · exact fun _ => rfl

theorem Step.recorded (hstep : Step Undisturbed s s') (hs : Verified s)
    (hr : Recorded stored₀ startBlock s) : Recorded stored₀ startBlock s' := by
  cases hstep with
  | commit hphase => exact hr.commit hs hphase
  | commitFailed hphase => exact hr.commit hs hphase
  | moved =>
      apply hr.write rfl rfl rfl
      · intro hpoller
        cases hpoller
      · exact fun _ _ _ => rfl
      · intro hpoller
        cases hpoller
  | resync _ hverify =>
      constructor
      · exact hr.linked
      · exact hr.last
      · exact hr.follows
      · intro hothers hle
        have hcursor := hr.unwritten hothers hle
        have hpos := (verifyCheckpoint_resync hverify).1
        omega
      · exact hr.first
  | _ => exact hr.congr rfl rfl rfl

theorem initial_recorded : Recorded stored₀ startBlock (.initial chain stored₀ startBlock) := by
  constructor
  · exact List.isChain_nil
  · intro w hw
    cases hw
  · intro w hw
    cases hw
  · exact fun _ _ => rfl
  · intro _ pre w post hlog
    exact absurd hlog.symm (List.append_ne_nil_of_right_ne_nil _ (List.cons_ne_nil _ _))

theorem run_recorded
    (hrun : ReflTransGen (Step Undisturbed) (.initial chain stored₀ startBlock) st) :
    Verified st ∧ Recorded stored₀ startBlock st := by
  induction hrun with
  | refl => exact ⟨initial_verified, initial_recorded⟩
  | tail _ hstep ih => exact ⟨hstep.verified ih.1, hstep.recorded ih.1 ih.2⟩

/-- Later writes are above earlier ones, as far as no writer rewinds. -/
def Above (x y : Write) : Prop :=
  x.after.height ≤ y.after.height ∧ (y.byPoller = true → x.after.height < y.after.height)

instance : Trans Above Above Above where
  trans {_ _ _} hxy hyz := ⟨hxy.1.trans hyz.1, fun hz => hxy.1.trans_lt (hyz.2 hz)⟩

theorem above_of_linked {x y : Write} (hlink : y.before = x.after)
    (hfollows : y.byPoller = true → y.Follows) (hy : ¬ y.rewinds) : Above x y := by
  cases hpoller : y.byPoller with
  | true =>
      have hnext := (hfollows hpoller).next
      rw [hlink] at hnext
      exact ⟨by omega, fun _ => by omega⟩
  | false =>
      refine ⟨?_, fun hc => ?_⟩
      · by_contra hlt
        exact hy ⟨hpoller, by rw [hlink]; omega⟩
      · rw [hpoller] at hc
        cases hc

theorem commits_increase (hlinked : log.IsChain fun x y => y.before = x.after)
    (hfollows : ∀ w ∈ log, w.byPoller = true → w.Follows) (hrewinds : ∀ w ∈ log, ¬ w.rewinds) :
    ((log.filter Write.byPoller).map fun w => w.after.height).Pairwise (· < ·) := by
  have hchain : log.IsChain Above :=
    hlinked.imp_of_mem_imp fun x y _ hy hlink =>
      above_of_linked hlink (hfollows y hy) (hrewinds y hy)
  rw [List.pairwise_map, List.pairwise_filter]
  exact (List.isChain_iff_pairwise.1 hchain).imp fun habove _ hy => habove.2 hy

end Cl8yDex.Poller

/-!
## Reorgs and the order of the heights

A commit above a replaced block leaves a checkpoint that the chain no longer has, so the next
verification ends the run.
-/

namespace Cl8yDex.Poller

open Relation

variable {allowed : State → Event → Prop} {s s' st : State} {stored₀ : Option Checkpoint}
  {startBlock : Option ℤ} {chain : Chain} {latest : ℤ} {h blockHash : String} {phase : Phase}
  {w : Write} {log : List Write}

/-- The next verification reads a hash that the chain does not have at the cursor. -/
structure State.Stale (s : State) (h : String) : Prop where
  verify : verifyCheckpoint s.stored s.cursor = .compare h
  replaced : s.chain.hash s.cursor ≠ some h
  waiting : ¬ s.phase.committing

structure Halting (s : State) : Prop where
  stale : s.crossed → ¬ s.phase.over → ∃ h, s.Stale h
  halted : ∀ pre w post, s.log = pre ++ w :: post → w.crosses →
    (∀ x ∈ post, x.byPoller = false) ∧ (post = [] ∨ s.phase.over)

theorem verifyCheckpoint_of_hash {stored : Option Checkpoint} {height : ℤ} (hpos : 0 < height)
    (heq : getLastIndexedHeight stored = height)
    (hhash : (getIndexerCheckpoint stored).hash = some h) :
    verifyCheckpoint stored height = .compare h := by
  have heq' : (getIndexerCheckpoint stored).height = height := heq
  unfold verifyCheckpoint
  dsimp only
  rw [if_neg (not_le.2 hpos), if_neg (not_not.2 heq'), hhash]

/-- A step that writes nothing and keeps the cursor. -/
theorem Halting.congr (hh : Halting s) (hlog : s'.log = s.log)
    (hover : s.phase.over → s'.phase.over)
    (hstale : s.crossed → ¬ s'.phase.over → ∃ h, s'.Stale h) : Halting s' := by
  constructor
  · intro hcrossed hrunning
    apply hstale _ hrunning
    unfold State.crossed at hcrossed ⊢
    rwa [hlog] at hcrossed
  · intro pre w post heq hw
    rw [hlog] at heq
    obtain ⟨hothers, hpost⟩ := hh.halted pre w post heq hw
    exact ⟨hothers, hpost.imp_right hover⟩

/-- Nothing is left to be halted before a write of a run that goes on. -/
theorem Halting.not_crosses (hh : Halting s) (hrunning : ¬ s.phase.over) (hcrossed : ¬ s.crossed)
    (hw : w ∈ s.log) : ¬ w.crosses := by
  intro hcrosses
  obtain ⟨pre, post, heq⟩ := List.append_of_mem hw
  rcases (hh.halted pre w post heq hcrosses).2 with rfl | hover
  · apply hcrossed
    refine ⟨w, ?_, hcrosses⟩
    rw [heq, List.getLast?_concat]
    rfl
  · exact hrunning hover

theorem Halting.write (hh : Halting s) (hrunning : ¬ s.phase.over) (hcrossed : ¬ s.crossed)
    (hlog : s'.log = s.log ++ [w]) (hstale : w.crosses → ¬ s'.phase.over → ∃ h, s'.Stale h) :
    Halting s' := by
  constructor
  · rintro ⟨x, hx, hcrosses⟩
    rw [hlog, List.getLast?_concat] at hx
    cases hx
    exact hstale hcrosses
  · intro pre x post heq hx
    rw [hlog] at heq
    rcases concat_eq_append_cons heq with ⟨rfl, -, -⟩ | ⟨rest, -, hold⟩
    · exact ⟨fun y hy => absurd hy (List.not_mem_nil), .inl rfl⟩
    · have hmem : x ∈ s.log := by
        rw [hold]
        exact List.mem_append_right _ (List.mem_cons_self ..)
      exact absurd hx (hh.not_crosses hrunning hcrossed hmem)

/-- A run whose last commit is above a replaced block does not commit again. -/
theorem Halting.not_crossed (hh : Halting s) (hc : s.phase.committing) : ¬ s.crossed := by
  intro hcrossed
  have hrunning : ¬ s.phase.over := by
    intro hover
    cases hphase : s.phase <;> rw [hphase] at hover hc
    all_goals first | exact hover | exact hc
  obtain ⟨h, hstale⟩ := hh.stale hcrossed hrunning
  exact hstale.waiting hc

theorem Halting.commit (hh : Halting s) (hs : Verified s)
    (hphase : s.phase = .ingesting latest blockHash) (hidle : phase.idle) :
    Halting (s.commit blockHash phase) := by
  have hc : s.phase.committing := by
    rw [hphase]
    trivial
  have hrunning : ¬ s.phase.over := by
    rw [hphase]
    exact id
  obtain ⟨hpos, hne, hkept⟩ := hs.ingesting latest blockHash hphase
  have hcursor := hs.cursor_eq hphase
  apply hh.write hrunning (hh.not_crossed hc) rfl
  rintro ⟨-, hbefore, h, hh, hparent⟩ -
  have hreplaced : s.chain.hash (s.cursor + 1) ≠ some blockHash := by
    rcases hkept with hon | hreplaced
    · exact absurd (hon (hbefore.trans_eq hcursor) h hh) hparent
    · exact hreplaced
  have hstored : (getIndexerCheckpoint (setIndexerCheckpoint (s.cursor + 1) blockHash)).hash =
      some blockHash := by
    have hfilter : (some blockHash).filter (fun h => decide (h ≠ "")) = some blockHash :=
      Option.filter_eq_some_iff.2 ⟨rfl, decide_eq_true hne⟩
    exact hfilter
  refine ⟨blockHash, ?_, hreplaced, ?_⟩
  · apply verifyCheckpoint_of_hash _ rfl hstored
    change 0 < s.cursor + 1
    omega
  · intro hcommitting
    exact Phase.idle_verified hidle (Phase.committing_verified hcommitting)

theorem Halting.keeps (hh : Halting s) (hlog : s'.log = s.log) (hstored : s'.stored = s.stored)
    (hcursor : s'.cursor = s.cursor) (hchain : s'.chain = s.chain) (hidle : ¬ s'.phase.committing)
    (hrunning : ¬ s.phase.over) : Halting s' := by
  apply hh.congr hlog (fun hover => absurd hover hrunning)
  intro hcrossed _
  obtain ⟨h, hstale⟩ := hh.stale hcrossed hrunning
  refine ⟨h, ?_, ?_, hidle⟩
  · rw [hstored, hcursor]
    exact hstale.verify
  · rw [hchain, hcursor]
    exact hstale.replaced

theorem Halting.replaced {chain : Chain} (hh : Halting s) (hkeeps : KeepsVerified s chain) :
    Halting { s with chain := chain } := by
  apply Halting.congr hh
  · rfl
  · exact id
  intro hcrossed hrunning
  obtain ⟨h, hstale⟩ := hh.stale hcrossed hrunning
  refine ⟨h, hstale.verify, ?_, hstale.waiting⟩
  have hhash := (verifyCheckpoint_compare hstale.verify).2.2
  change chain.hash s.cursor ≠ some h
  rw [← hhash]
  unfold KeepsVerified at hkeeps
  split at hkeeps
  · rename_i hphase
    exact absurd (by rw [hphase]; trivial) hstale.waiting
  · rename_i hphase
    exact absurd (by rw [hphase]; trivial) hrunning
  · exact hkeeps hcrossed

theorem Halting.moved {c : Checkpoint} (hh : Halting s) (hallowed : Undisturbed s (.moved c)) :
    Halting (s.move c) := by
  rcases Classical.em s.phase.over with hover | hrunning
  · constructor
    · exact fun _ hrunning => absurd hover hrunning
    · intro pre w post heq hw
      refine ⟨?_, .inr hover⟩
      rcases concat_eq_append_cons heq with ⟨rfl, -, -⟩ | ⟨rest, rfl, hold⟩
      · exact fun x hx => absurd hx (List.not_mem_nil)
      · intro x hx
        rcases List.mem_append.1 hx with hx | hx
        · exact (hh.halted pre w rest hold hw).1 x hx
        · rw [List.mem_singleton.1 hx]
  · obtain hover | ⟨-, -, hcrossed⟩ := hallowed
    · exact absurd hover hrunning
    · apply hh.write hrunning hcrossed rfl
      rintro ⟨hpoller, -⟩
      cases hpoller

theorem Step.halting (hstep : Step Undisturbed s s') (hs : Verified s) (hh : Halting s) :
    Halting s' := by
  cases hstep with
  | poll hphase =>
      refine hh.keeps rfl rfl rfl rfl ?_ ?_
      · exact fun hc => Phase.idle_verified nextPhase_idle (Phase.committing_verified hc)
      · rw [hphase]
        exact id
  | unchanged hphase hverify =>
      refine hh.congr rfl (by rw [hphase]; exact False.elim) ?_
      intro hcrossed _
      obtain ⟨h, hstale⟩ := hh.stale hcrossed (by rw [hphase]; exact id)
      rw [hstale.verify] at hverify
      cases hverify
  | resync hphase hverify =>
      refine hh.congr rfl (by rw [hphase]; exact False.elim) ?_
      intro hcrossed _
      obtain ⟨h, hstale⟩ := hh.stale hcrossed (by rw [hphase]; exact id)
      rw [hstale.verify] at hverify
      cases hverify
  | compare hphase =>
      refine hh.keeps rfl rfl rfl rfl id ?_
      rw [hphase]
      exact id
  | @matched latest stored hphase hhash =>
      refine hh.congr rfl (by rw [hphase]; exact False.elim) ?_
      intro hcrossed _
      obtain ⟨h, hstale⟩ := hh.stale hcrossed (by rw [hphase]; exact id)
      have hstored := (verifyCheckpoint_compare hstale.verify).2.2
      rw [(hs.comparing latest stored hphase).2] at hstored
      cases hstored
      exact absurd hhash hstale.replaced
  | reorg => exact hh.congr rfl (fun _ => trivial) (fun _ hrunning => absurd trivial hrunning)
  | reverify hphase =>
      refine hh.keeps rfl rfl rfl rfl id ?_
      rw [hphase]
      exact id
  | fetch hphase =>
      refine hh.congr rfl (by rw [hphase]; exact False.elim) ?_
      intro hcrossed _
      exact absurd hcrossed (hh.not_crossed (by rw [hphase]; trivial))
  | retry hphase =>
      refine hh.congr rfl (by rw [hphase]; exact False.elim) ?_
      intro hcrossed _
      exact absurd hcrossed (hh.not_crossed (by rw [hphase]; trivial))
  | commit hphase => exact hh.commit hs hphase nextPhase_idle
  | commitFailed hphase => exact hh.commit hs hphase trivial
  | failed => exact hh.congr rfl (fun _ => trivial) (fun _ hrunning => absurd trivial hrunning)
  | cancelled => exact hh.congr rfl (fun _ => trivial) (fun _ hrunning => absurd trivial hrunning)
  | replaced hallowed => exact hh.replaced hallowed
  | moved hallowed => exact hh.moved hallowed

theorem initial_halting : Halting (.initial chain stored₀ startBlock) := by
  constructor
  · rintro ⟨w, hw, -⟩
    cases hw
  · intro pre w post hlog
    exact absurd hlog.symm (List.append_ne_nil_of_right_ne_nil _ (List.cons_ne_nil _ _))

theorem run_halting
    (hrun : ReflTransGen (Step Undisturbed) (.initial chain stored₀ startBlock) st) :
    Halting st := by
  induction hrun with
  | refl => exact initial_halting
  | tail hrun hstep ih => exact hstep.halting (run_recorded hrun).1 ih

end Cl8yDex.Poller
