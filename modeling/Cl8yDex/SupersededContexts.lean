import Cl8yDex.VersionRuns

/-!
# Superseded wallet contexts

A publication that was captured before a wallet was recorded under a new number does not
bring its own context of that wallet back, whatever happens in between.
-/

namespace Cl8yDex.ActorVersions

open Store

section Reconciliation

variable {g : Store} {ns actor : String} {proof : Proof}

/-- The captured number of a wallet is still its number, and a wallet captured without one
has seen no change of the namespace. -/
def Current (g : Store) (ns actor : String) (proof : Proof) : Prop :=
  (g.entry ns actor).map Entry.version = proof.entries[actor]?.join ∧
    (proof.entries[actor]?.join.isSome ∨ proof.revision = g.revision ns)

def replacement (g : Store) (ns actor : String) : Option Context :=
  ((g.entry ns actor).map Entry.context).or (g.published ns actor)

theorem reconcileActor_other {actors : Contexts} {other : String} (hne : actor ≠ other) :
    (g.reconcileActor ns proof actors other)[actor]? = actors[actor]? := by
  have hcompare : compare other actor ≠ .eq := fun heq =>
    hne (Std.LawfulEqCmp.eq_of_compare heq).symm
  unfold reconcileActor
  dsimp only
  split
  · rfl
  · split
    · rw [Std.TreeMap.getElem?_insert, if_neg hcompare]
    · rw [Std.TreeMap.getElem?_erase, if_neg hcompare]

theorem reconcileActor_self {actors : Contexts} (hstale : ¬ Current g ns actor proof) :
    (g.reconcileActor ns proof actors actor)[actor]? = replacement g ns actor := by
  unfold Current at hstale
  unfold reconcileActor
  dsimp only
  rw [if_neg hstale]
  split
  case h_1 context hcontext =>
    rw [Std.TreeMap.getElem?_insert_self]
    exact hcontext.symm
  case h_2 hnone =>
    rw [Std.TreeMap.getElem?_erase_self]
    exact hnone.symm

theorem foldl_reconcile (hstale : ¬ Current g ns actor proof) (keys : List String) :
    ∀ actors : Contexts, (actor ∈ keys ∨ actors[actor]? = replacement g ns actor) →
      (keys.foldl (g.reconcileActor ns proof) actors)[actor]? = replacement g ns actor := by
  induction keys with
  | nil =>
    intro actors h
    exact h.resolve_left List.not_mem_nil
  | cons key keys ih =>
    intro actors h
    rw [List.foldl_cons]
    apply ih
    by_cases heq : actor = key
    · subst heq
      exact Or.inr (reconcileActor_self hstale)
    · rw [reconcileActor_other heq]
      exact h.imp_left fun hmem => (List.mem_cons.mp hmem).resolve_left heq

/-- Inserting a block leaves another wallet alone or evicts it. -/
theorem insertActor_blocked {actors inserted : Contexts} {blocked : String}
    (h : insertActor actors blocked (0, true) = .ok inserted) :
    inserted[actor]? = actors[actor]? ∨ inserted[actor]? = none ∨
      (actor = blocked ∧ inserted[actor]? = some (0, true)) := by
  have hinsert : ∀ kept : Contexts, (kept.insert blocked ((0, true) : Context))[actor]? =
      kept[actor]? ∨ (actor = blocked ∧
        (kept.insert blocked ((0, true) : Context))[actor]? = some (0, true)) := by
    intro kept
    rw [Std.TreeMap.getElem?_insert]
    split
    case isTrue heq => exact Or.inr ⟨(Std.LawfulEqCmp.eq_of_compare heq).symm, rfl⟩
    case isFalse => exact Or.inl rfl
  unfold insertActor at h
  split at h
  · split at h
    case h_1 victim _ =>
      cases h
      rcases hinsert (actors.erase victim) with hkept | hblocked
      · rw [hkept, Std.TreeMap.getElem?_erase]
        split
        · exact Or.inr (Or.inl rfl)
        · exact Or.inl rfl
      · exact Or.inr (Or.inr hblocked)
    case h_2 => cases h
  · cases h
    rcases hinsert actors with hkept | hblocked
    · exact Or.inl hkept
    · exact Or.inr (Or.inr hblocked)

theorem foldlM_blocked (blocks : List String) :
    ∀ actors final : Contexts,
      blocks.foldlM (fun actors actor => insertActor actors actor (0, true)) actors = .ok final →
      final[actor]? = actors[actor]? ∨ final[actor]? = none ∨
        (actor ∈ blocks ∧ final[actor]? = some (0, true)) := by
  induction blocks with
  | nil =>
    intro actors final h
    cases h
    exact Or.inl rfl
  | cons blocked blocks ih =>
    intro actors final h
    rw [List.foldlM_cons] at h
    cases hinsert : insertActor actors blocked (0, true) with
    | error error =>
      rw [hinsert] at h
      cases h
    | ok inserted =>
      rw [hinsert] at h
      rcases ih inserted final h with hkept | hnone | ⟨hmem, hblocked⟩
      · rw [hkept]
        exact (insertActor_blocked hinsert).imp_right (Or.imp_right fun ⟨heq, hvalue⟩ =>
          ⟨heq ▸ List.mem_cons_self, hvalue⟩)
      · exact Or.inr (Or.inl hnone)
      · exact Or.inr (Or.inr ⟨List.mem_cons_of_mem _ hmem, hblocked⟩)

/-- What a commit publishes for a wallet whose number has moved. -/
theorem commit_replaces {actors committed : Contexts} (hmem : actor ∈ actors)
    (hstale : ¬ Current g ns actor proof)
    (h : (g.commit ns actors proof).2 = some committed) :
    committed[actor]? = replacement g ns actor ∨ committed[actor]? = none ∨
      (actor ∈ g.blocks ns ∧ committed[actor]? = some (0, true)) := by
  unfold commit at h
  split at h
  · cases h
  · split at h
    · cases h
    · split at h
      case h_1 snapshot hreconcile =>
        cases h
        unfold reconcile at hreconcile
        dsimp only at hreconcile
        have hfold := foldl_reconcile hstale actors.keys actors
          (Or.inl (Std.TreeMap.mem_keys.mpr hmem))
        cases hblocks : (g.blocks ns).foldlM
            (fun actors actor => insertActor actors actor (0, true))
            (actors.keys.foldl (g.reconcileActor ns proof) actors) with
        | error error =>
          rw [hblocks] at hreconcile
          cases hreconcile
        | ok final =>
          rw [hblocks] at hreconcile
          cases hreconcile
          rw [← hfold]
          exact foldlM_blocked (g.blocks ns) _ final hblocks
      case h_2 => cases h

end Reconciliation

/-- The states of the store in any interleaving of the events. -/
inductive Reached : Store → Prop
  | start : Reached {}
  | step {g g' : Store} (event : Event) :
    Reached g → event.Iterates g → event.run g = some g' → Reached g'

/-- What happens after `captured`: the context recorded last for the wallet, if any, and
whether the wallet has been given a new number. -/
inductive Since (captured : Store) (ns actor : String) :
    Store → Option Context → Prop → Prop
  | start : Since captured ns actor captured none False
  | step {g g' : Store} {latest : Option Context} {renumbered : Prop} (event : Event) :
    Since captured ns actor g latest renumbered → event.Iterates g → event.run g = some g' →
      Since captured ns actor g' ((event.records g ns actor).or latest)
        (renumbered ∨ ∃ entry, g'.entry ns actor = some entry ∧
          g.nextActorVersion < entry.version)

theorem Reached.bounded {g : Store} (h : Reached g) (ns actor : String) :
    ∀ entry, g.entry ns actor = some entry → entry.version ≤ g.nextActorVersion := by
  induction h with
  | start =>
    intro entry hentry
    simp [Store.entry] at hentry
  | step event _ hiterates hrun ih =>
    intro entry' h'
    have hsees := event.sees hrun hiterates ns actor
    rcases hsees.version entry' h' with ⟨entry, hentry, hversion⟩ | ⟨-, hle⟩
    · rw [← hversion]
      exact (ih entry hentry).trans hsees.advances.counter
    · exact hle

theorem Reached.numbered {g : Store} (h : Reached g) : g.Numbered := by
  induction h with
  | start => rfl
  | step event _ hiterates hrun ih => exact (event.sees hrun hiterates "" "").advances.numbered ih

theorem Since.reached {captured g : Store} {ns actor : String} {latest : Option Context}
    {renumbered : Prop} (h : Since captured ns actor g latest renumbered)
    (hcaptured : Reached captured) : Reached g := by
  induction h with
  | start => exact hcaptured
  | step event _ hiterates hrun ih => exact Reached.step event ih hiterates hrun

theorem Since.counter {captured g : Store} {ns actor : String} {latest : Option Context}
    {renumbered : Prop} (h : Since captured ns actor g latest renumbered) :
    captured.nextActorVersion ≤ g.nextActorVersion := by
  induction h with
  | start => exact le_refl _
  | step event _ hiterates hrun ih =>
    exact ih.trans (event.sees hrun hiterates ns actor).advances.counter

/-- A wallet that was given a new number never has an old one again. -/
theorem Since.renumbered {captured g : Store} {ns actor : String} {latest : Option Context}
    {renumbered : Prop} (h : Since captured ns actor g latest renumbered) (hnew : renumbered) :
    ∀ entry, g.entry ns actor = some entry → captured.nextActorVersion < entry.version := by
  induction h with
  | start => exact hnew.elim
  | step event hsince hiterates hrun ih =>
    intro entry' h'
    have hcounter := hsince.counter
    rcases (event.sees hrun hiterates ns actor).version entry' h' with
      ⟨entry, hentry, hversion⟩ | ⟨hfresh, -⟩
    · rcases hnew with hbefore | ⟨issued, hissued, hnow⟩
      · rw [← hversion]
        exact ih hbefore entry hentry
      · rw [h'] at hissued
        cases hissued
        omega
    · omega

theorem Since.latest {captured g : Store} {ns actor : String} {latest : Option Context}
    {renumbered : Prop} (h : Since captured ns actor g latest renumbered) :
    ∀ entry context, g.entry ns actor = some entry → latest = some context →
      entry.context = context := by
  induction h with
  | start =>
    intro entry context _ hlatest
    cases hlatest
  | step event _ hiterates hrun ih =>
    intro entry' context h' hlatest
    rcases (event.sees hrun hiterates ns actor).context entry' h' with
      hrecorded | ⟨hnone, entry, hentry, hcontext, -⟩
    · rw [hrecorded] at hlatest
      exact Option.some.inj hlatest
    · rw [hnone] at hlatest
      rw [← hcontext]
      exact ih entry context hentry hlatest

theorem capture_entry (g : Store) (ns : String) {actor : String} {actors : Contexts}
    (hmem : actor ∈ actors) :
    (g.capture ns actors).entries[actor]?.join = (g.entry ns actor).map Entry.version := by
  obtain ⟨context, hcontext⟩ := Option.isSome_iff_exists.mp
    (Std.TreeMap.mem_iff_isSome_getElem?.mp hmem)
  simp [capture, hcontext]

/-- A publication captured before a wallet was given a new number: the commit takes what was
recorded last, or what is published, or drops the wallet, or has it blocked, and no number
is issued twice. -/
theorem superseded_not_restored {captured g : Store} {ns actor : String} {actors : Contexts}
    {held latest : Context} {renumbered : Prop} (hcaptured : Reached captured)
    (hheld : actors[actor]? = some held)
    (hsince : Since captured ns actor g (some latest) renumbered) (hnew : renumbered)
    (hkept : (g.entry ns actor).isSome ∨ (captured.entry ns actor).isSome ∨
      g.revision ns ≠ captured.revision ns) (fees : Std.TreeMap String ℕ) :
    g.issued.Nodup ∧ ∀ committed,
      (g.commit ns actors { captured.capture ns actors with feeQueries := fees }).2 =
        some committed →
      committed[actor]? = some latest ∨ committed[actor]? = g.published ns actor ∨
        committed[actor]? = none ∨
        (actor ∈ g.blocks ns ∧ committed[actor]? = some (0, true)) := by
  constructor
  · exact numbered_nodup (hsince.reached hcaptured).numbered
  intro committed hcommit
  have hmem : actor ∈ actors := by
    rw [Std.TreeMap.mem_iff_isSome_getElem?, hheld]
    rfl
  have hproof := capture_entry captured ns hmem
  have hstale : ¬ Current g ns actor
      { captured.capture ns actors with feeQueries := fees } := by
    rintro ⟨hversion, hrevision⟩
    dsimp only at hversion hrevision
    rw [hproof] at hversion hrevision
    cases hentry : g.entry ns actor with
    | some entry =>
      rw [hentry, Option.map_some] at hversion
      obtain ⟨old, hold, heq⟩ := Option.map_eq_some_iff.mp hversion.symm
      have hbound := hcaptured.bounded ns actor old hold
      have hfresh := hsince.renumbered hnew entry hentry
      omega
    | none =>
      rw [hentry, Option.map_none] at hversion
      rw [← hversion] at hrevision
      have hsame : captured.revision ns = g.revision ns :=
        hrevision.resolve_left Bool.false_ne_true
      rcases hkept with hsome | hsome | hmoved
      · rw [hentry] at hsome
        cases hsome
      · rw [Option.map_eq_none_iff.mp hversion.symm] at hsome
        cases hsome
      · exact hmoved hsame.symm
  rcases commit_replaces hmem hstale hcommit with hreplaced | hnone | hblocked
  · cases hentry : g.entry ns actor with
    | some entry =>
      have hcontext := hsince.latest entry latest hentry rfl
      rw [replacement, hentry, Option.map_some, Option.some_or, hcontext] at hreplaced
      exact Or.inl hreplaced
    | none =>
      rw [replacement, hentry, Option.map_none, Option.none_or] at hreplaced
      exact Or.inr (Or.inl hreplaced)
  · exact Or.inr (Or.inr (Or.inl hnone))
  · exact Or.inr (Or.inr (Or.inr hblocked))

section Samples

/-- The store an event leaves, where it does not panic. -/
def Event.next (g : Store) (event : Event) (h : (event.run g).isSome) : Store :=
  (event.run g).get h

theorem Event.run_eq_next {g : Store} {event : Event} (h : (event.run g).isSome) :
    event.run g = some (event.next g h) := (Option.some_get h).symm

def sampleContexts (discount : ℕ) : Contexts :=
  Std.TreeMap.ofList [("wallet", (discount, false))]

def samplePublish : Event := .publish "market" (some ⟨sampleContexts 400, 0⟩)

def samplePublished : Store := samplePublish.next {} rfl

def sampleGuard : Event := .observe "market" "wallet" (0, false) false

theorem sampleGuard_runs : (sampleGuard.run samplePublished).isSome := by decide +kernel

def sampleGuarded : Store := sampleGuard.next samplePublished sampleGuard_runs

def sampleFee : Event := .beginFee "market" "wallet" 1

theorem sampleFee_runs : (sampleFee.run sampleGuarded).isSome := by decide +kernel

def sampleReading : Store := sampleFee.next sampleGuarded sampleFee_runs

def sampleCompletion : Event := .complete "market" "wallet" 1 2 (some 400)

theorem sampleCompletion_runs : (sampleCompletion.run sampleReading).isSome := by decide +kernel

def sampleRead : Store := sampleCompletion.next sampleReading sampleCompletion_runs

theorem sampleGuarded_reached : Reached sampleGuarded :=
  Reached.step sampleGuard
    (Reached.step samplePublish Reached.start trivial (Event.run_eq_next _))
    trivial (Event.run_eq_next _)

/-- A fee read that confirms the published discount issues no number: the publication that
was captured before it brings its own discount back. -/
theorem confirmed_fee_superseded :
    Reached sampleGuarded ∧
    (∃ renumbered, Since sampleGuarded "market" "wallet" sampleRead (some (400, false))
      renumbered) ∧
    sampleRead.published "market" "wallet" = some (400, false) ∧
    sampleRead.blocks "market" = [] ∧
    ((sampleRead.commit "market" (sampleContexts 800)
      (sampleGuarded.capture "market" (sampleContexts 800))).2.map fun committed =>
        committed["wallet"]?) = some (some (800, false)) := by
  have hrecords : (sampleCompletion.records sampleReading "market" "wallet").or
      ((sampleFee.records sampleGuarded "market" "wallet").or none) = some (400, false) := by
    decide +kernel
  have hsince : ∃ renumbered, Since sampleGuarded "market" "wallet" sampleRead
      (some (400, false)) renumbered := by
    rw [← hrecords]
    exact ⟨_, Since.step sampleCompletion
      (Since.step sampleFee Since.start trivial (Event.run_eq_next _))
      trivial (Event.run_eq_next _)⟩
  exact ⟨sampleGuarded_reached, hsince, by decide +kernel, by decide +kernel, by decide +kernel⟩

theorem superseded_not_restored_sample :
    Reached samplePublished ∧
    (∃ renumbered, Since samplePublished "market" "wallet" sampleGuarded (some (0, false))
      renumbered ∧ renumbered) ∧
    ∀ committed, (sampleGuarded.commit "market" (sampleContexts 800)
        { samplePublished.capture "market" (sampleContexts 800) with feeQueries := ∅ }).2 =
          some committed →
      committed["wallet"]? = some (0, false) ∨
        committed["wallet"]? = sampleGuarded.published "market" "wallet" ∨
        committed["wallet"]? = none ∨
        ("wallet" ∈ sampleGuarded.blocks "market" ∧ committed["wallet"]? = some (0, true)) := by
  have hreached : Reached samplePublished :=
    Reached.step samplePublish Reached.start trivial (Event.run_eq_next _)
  have hentry : sampleGuarded.entry "market" "wallet" = some ⟨1, (0, false), 0⟩ := by
    decide +kernel
  have hrecords : (sampleGuard.records samplePublished "market" "wallet").or none =
      some (0, false) := by decide +kernel
  have hsince : ∃ renumbered, Since samplePublished "market" "wallet" sampleGuarded
      (some (0, false)) renumbered ∧ renumbered := by
    rw [← hrecords]
    exact ⟨_, Since.step sampleGuard Since.start trivial (Event.run_eq_next _),
      Or.inr ⟨_, hentry, by decide +kernel⟩⟩
  refine ⟨hreached, hsince, ?_⟩
  obtain ⟨renumbered, hrun, hnew⟩ := hsince
  have hheld : (sampleContexts 800)["wallet"]? = some (800, false) := by decide +kernel
  exact (superseded_not_restored hreached hheld hrun hnew
    (Or.inl (by rw [hentry]; rfl)) ∅).2

end Samples

end Cl8yDex.ActorVersions
