import Cl8yDex.VersionSteps

/-!
# A complete inventory

A complete inventory writes every listed wallet under its old number, where the context is
the recorded one, or a new one, and keeps the omitted wallets as conservative tombstones.
-/

namespace Cl8yDex.ActorVersions.Store

variable {g g' : Store} {ns : String} {actors : Contexts} {old : Namespace}
  {listed : List (String × Context)} {olds : List (String × Entry)}

/-- The entries written so far for the wallets of `listed`, starting at `g`. -/
structure Lists (g : Store) (old : Namespace) (listed : List (String × Context))
    (state : Std.TreeMap String Entry × Store) : Prop where
  advances : Advances g state.2
  versions : state.2.actorVersions = g.actorVersions
  covered : ∀ wallet ∈ listed, (state.1[wallet.1]?).isSome
  source : ∀ (actor : String) (entry' : Entry), state.1[actor]? = some entry' →
    (actor, entry'.context) ∈ listed ∧
      ((∃ entry, old.entries[actor]? = some entry ∧ entry.version = entry'.version) ∨
        (g.nextActorVersion < entry'.version ∧ entry'.version ≤ state.2.nextActorVersion))

theorem Lists.start (g : Store) (old : Namespace) : Lists g old [] (∅, g) where
  advances := Advances.refl g
  versions := rfl
  covered _ h := by cases h
  source actor entry' h := by simp at h

theorem listActor_cases {state next : Std.TreeMap String Entry × Store}
    {wallet : String × Context} (h : listActor old state wallet = some next) :
    ∃ version, next.1 = state.1.insert wallet.1 ⟨version, wallet.2, 0⟩ ∧
      Advances state.2 next.2 ∧ next.2.actorVersions = state.2.actorVersions ∧
      ((∃ entry, old.entries[wallet.1]? = some entry ∧ entry.version = version) ∨
        (state.2.nextActorVersion < version ∧ version ≤ next.2.nextActorVersion)) := by
  unfold listActor at h
  obtain ⟨⟨version, g₁⟩, hnumbered, hnext⟩ := Option.map_eq_some_iff.mp h
  cases hnext
  refine ⟨version, rfl, ?_⟩
  split at hnumbered
  case h_1 entry hkept =>
    cases hnumbered
    rw [Option.filter_eq_some_iff] at hkept
    exact ⟨Advances.refl _, rfl, Or.inl ⟨entry, hkept.1, rfl⟩⟩
  case h_2 =>
    have hspec := issue_spec hnumbered
    refine ⟨hspec.advances, hspec.versions, Or.inr ?_⟩
    have := hspec.version_eq
    have := hspec.counter_eq
    dsimp only
    omega

theorem Lists.step {state next : Std.TreeMap String Entry × Store} {wallet : String × Context}
    (hlists : Lists g old listed state) (h : listActor old state wallet = some next) :
    Lists g old (listed ++ [wallet]) next := by
  obtain ⟨version, hentries, hadvances, hversions, hversion⟩ := listActor_cases h
  constructor
  · exact hlists.advances.trans hadvances
  · exact hversions.trans hlists.versions
  · intro other hmem
    rw [hentries, Std.TreeMap.getElem?_insert]
    split
    · rfl
    · rename_i hne
      rcases List.mem_append.mp hmem with hmem | hmem
      · exact hlists.covered other hmem
      · cases List.mem_singleton.mp hmem
        exact absurd Std.ReflCmp.compare_self hne
  · intro actor entry' hentry
    rw [hentries, Std.TreeMap.getElem?_insert] at hentry
    split at hentry
    · rename_i heq
      obtain rfl := Std.LawfulEqCmp.eq_of_compare heq
      cases hentry
      refine ⟨by simp, hversion.imp_right fun hfresh => ?_⟩
      exact ⟨lt_of_le_of_lt hlists.advances.counter hfresh.1, hfresh.2⟩
    · obtain ⟨hmem, hsource⟩ := hlists.source actor entry' hentry
      refine ⟨List.mem_append_left _ hmem, hsource.imp_right fun hfresh => ?_⟩
      exact ⟨hfresh.1, hfresh.2.trans hadvances.counter⟩

theorem foldlM_lists (rest : List (String × Context)) :
    ∀ (done : List (String × Context)) (state final : Std.TreeMap String Entry × Store),
      Lists g old done state → rest.foldlM (listActor old) state = some final →
      Lists g old (done ++ rest) final := by
  induction rest with
  | nil =>
    intro done state final hlists h
    cases h
    simpa using hlists
  | cons wallet rest ih =>
    intro done state final hlists h
    rw [List.foldlM_cons] at h
    obtain ⟨next, hstep, hrest⟩ := Option.bind_eq_some_iff.mp h
    have hall := ih _ next final (hlists.step hstep) hrest
    simpa using hall

/-- A tombstone takes the place of no entry. -/
theorem foldl_tombstones (changed : Bool) (revision : ℕ) (olds : List (String × Entry)) :
    ∀ (entries : Std.TreeMap String Entry) (actor : String) (entry' : Entry),
      (olds.foldl (keepTombstone changed revision) entries)[actor]? = some entry' →
      entries[actor]? = some entry' ∨
        (entries[actor]? = none ∧ entry'.context = (0, false) ∧
          ∃ entry, (actor, entry) ∈ olds ∧
            entry'.version = if changed then revision else entry.version) := by
  induction olds with
  | nil =>
    intro entries actor entry' h
    exact Or.inl h
  | cons old olds ih =>
    intro entries actor entry' h
    rw [List.foldl_cons] at h
    rcases ih _ actor entry' h with hkept | ⟨hnone, hcontext, entry, hmem, hversion⟩
    · unfold keepTombstone at hkept
      split at hkept
      · exact Or.inl hkept
      · rw [Std.TreeMap.getElem?_insertIfNew] at hkept
        split at hkept
        case isTrue hnew =>
          cases hkept
          obtain rfl := Std.LawfulEqCmp.eq_of_compare hnew.1
          exact Or.inr ⟨Std.TreeMap.getElem?_eq_none hnew.2, rfl, old.2, by simp, rfl⟩
        case isFalse => exact Or.inl hkept
    · refine Or.inr ⟨?_, hcontext, entry, List.mem_cons_of_mem _ hmem, hversion⟩
      unfold keepTombstone at hnone
      split at hnone
      · exact hnone
      · rw [Std.TreeMap.getElem?_insertIfNew] at hnone
        split at hnone
        · cases hnone
        · exact hnone

/-- An accepted inventory: a revision that is new if anything changed, the listed wallets,
then the tombstones. -/
theorem inventory_cases {result : Except CapacityError Unit}
    (h : g.authoritativeInventory ns actors listed olds = some (g', result)) :
    (g' = g.markActorCapacityExhausted ns ∧ result = .error .exhausted) ∨
    ∃ (changed : Bool) (revision : ℕ) (start : Store) (state : Std.TreeMap String Entry × Store)
      (n : Namespace), result = .ok () ∧ Advances g start ∧ start.actorVersions = g.actorVersions ∧
      (changed = true → g.nextActorVersion < revision ∧ revision ≤ start.nextActorVersion) ∧
      Lists start (g.actorVersions[ns]?.getD {}) listed state ∧
      n.entries = olds.foldl (keepTombstone changed revision) state.1 ∧
      g' = { state.2 with actorVersions := state.2.actorVersions.insert ns n } := by
  unfold authoritativeInventory at h
  split at h
  · cases h
    exact Or.inl ⟨rfl, rfl⟩
  · obtain ⟨⟨revision, start⟩, hrevision, h⟩ := Option.bind_eq_some_iff.mp h
    obtain ⟨state, hlisted, h⟩ := Option.bind_eq_some_iff.mp h
    cases h
    refine Or.inr ⟨g.inventoryChanged ns actors, revision, start, state,
      ⟨revision, olds.foldl (keepTombstone (g.inventoryChanged ns actors) revision) state.1⟩,
      rfl, ?_⟩
    have hlists := foldlM_lists listed [] _ state
      (Lists.start start (g.actorVersions[ns]?.getD {})) hlisted
    rw [List.nil_append] at hlists
    split at hrevision
    case isTrue hchanged =>
      have hspec := issue_spec hrevision
      refine ⟨hspec.advances, hspec.versions, fun _ => ?_, hlists, rfl, rfl⟩
      have := hspec.version_eq
      have := hspec.counter_eq
      omega
    case isFalse hsame =>
      cases hrevision
      exact ⟨Advances.refl _, rfl, fun h => absurd h hsame, hlists, rfl, rfl⟩

theorem inventory_moves {result : Except CapacityError Unit}
    (h : g.authoritativeInventory ns actors listed olds = some (g', result))
    (holds : olds.Perm (g.actorVersions[ns]?.getD {}).entries.toList) (other wallet : String) :
    Moves g g' other wallet (other = ns ∧ result = .ok ()) := by
  rcases inventory_cases h with ⟨rfl, -⟩ |
    ⟨changed, revision, start, state, n, hok, hstart, hversions, hrevision, hlists, hn, rfl⟩
  · exact Moves.same (mark_advances g ns) (mark_entry g ns other wallet)
  · have hadvances : Advances g
        { state.2 with actorVersions := state.2.actorVersions.insert ns n } :=
      (hstart.trans hlists.advances).trans (Advances.of_eq rfl rfl)
    by_cases hns : other = ns
    · subst hns
      refine ⟨hadvances, fun entry' h' => ?_, fun hnot => absurd ⟨rfl, hok⟩ hnot⟩
      rw [entry_insert_self, hn] at h'
      rcases foldl_tombstones changed revision olds state.1 wallet entry' h' with
        hwritten | ⟨-, -, entry, hmem, hversion⟩
      · obtain ⟨-, ⟨entry, hentry, hsame⟩ | ⟨hfresh, hle⟩⟩ := hlists.source wallet entry' hwritten
        · exact Or.inl ⟨entry, by rw [entry_eq_getD]; exact hentry, hsame⟩
        · exact Or.inr ⟨lt_of_le_of_lt hstart.counter hfresh, hle⟩
      · cases changed with
        | true =>
          rw [if_pos rfl] at hversion
          have hbounds := hrevision rfl
          have hcounter := hlists.advances.counter
          exact Or.inr ⟨by omega, by dsimp only; omega⟩
        | false =>
          have hentry := holds.mem_iff.mp hmem
          rw [Std.TreeMap.mem_toList_iff_getElem?_eq_some] at hentry
          exact Or.inl ⟨entry, by rw [entry_eq_getD]; exact hentry, hversion.symm⟩
    · apply Moves.same hadvances
      rw [entry_insert_other hns]
      exact entry_congr (hlists.versions.trans hversions) other wallet

/-- After an accepted inventory a wallet has its listed context, an omitted one none of its
privileges. -/
theorem inventory_context {entry' : Entry} {actor : String}
    (h : g.authoritativeInventory ns actors listed olds = some (g', .ok ()))
    (hlisted : listed.Perm actors.toList) (hentry : g'.entry ns actor = some entry') :
    entry'.context = actors[actor]?.getD (0, false) := by
  rcases inventory_cases h with ⟨-, hfailed⟩ |
    ⟨changed, revision, start, state, n, -, -, -, -, hlists, hn, rfl⟩
  · cases hfailed
  · rw [entry_insert_self, hn] at hentry
    rcases foldl_tombstones changed revision olds state.1 actor entry' hentry with
      hwritten | ⟨hnone, hcontext, -⟩
    · have hmem := hlisted.mem_iff.mp (hlists.source actor entry' hwritten).1
      rw [Std.TreeMap.mem_toList_iff_getElem?_eq_some] at hmem
      rw [hmem]
      rfl
    · have homitted : actors[actor]? = none := by
        cases hactor : actors[actor]? with
        | none => rfl
        | some context =>
          have hmem : (actor, context) ∈ listed :=
            hlisted.mem_iff.mpr (Std.TreeMap.mem_toList_iff_getElem?_eq_some.mpr hactor)
          have hcovered := hlists.covered _ hmem
          rw [hnone] at hcovered
          cases hcovered
      rw [homitted]
      exact hcontext

end Cl8yDex.ActorVersions.Store

/-!
## Interleaved observations

Guard reads, fee reads, complete inventories and commits as events, with whatever else
replaces the published wallets and the early blocks between them, and what one event leaves
of a wallet in terms of what it records.
-/

namespace Cl8yDex.ActorVersions

open Store

inductive Event
  | observe (ns actor : String) (context : Context) (changed : Bool)
  | beginFee (ns actor : String) (version : ℕ)
  | complete (ns actor : String) (version query : ℕ) (discount : Option ℕ)
  | inventory (ns : String) (actors : Contexts) (listed : List (String × Context))
    (olds : List (String × Entry))
  | commit (ns : String) (actors : Contexts) (proof : Proof)
  | publish (ns : String) (snapshot : Option Snapshot)
  | block (ns : String) (blocks : List String)

namespace Event

/-- The store after the event; `none` is the panic of an exhausted counter. -/
def run (g : Store) : Event → Option Store
  | observe ns actor context changed => (g.observe ns actor context changed).map Prod.fst
  | beginFee ns actor version => (g.beginFee ns actor version).map Prod.fst
  | complete ns actor version query discount =>
    (g.complete ns actor version query discount).map Prod.fst
  | inventory ns actors listed olds =>
    (g.authoritativeInventory ns actors listed olds).map Prod.fst
  | commit ns actors proof => some (g.commit ns actors proof).1
  | publish ns (some snapshot) => some { g with snapshots := g.snapshots.insert ns snapshot }
  | publish ns none => some { g with snapshots := g.snapshots.erase ns }
  | block ns blocks => some { g with earlyActorBlocks := g.earlyActorBlocks.insert ns blocks }

/-- An inventory visits the wallets of both maps once each, in any order. -/
def Iterates (g : Store) : Event → Prop
  | inventory ns actors listed olds =>
    listed.Perm actors.toList ∧ olds.Perm (g.actorVersions[ns]?.getD {}).entries.toList
  | _ => True

/-- The context an event records for a wallet: an observation or a fee completion that is
accepted, or what a complete inventory lists, conservative for a wallet it omits. -/
def records (g : Store) (ns actor : String) : Event → Option Context
  | observe other wallet context changed =>
    match g.observe other wallet context changed with
    | some (_, .ok _) => if ns = other ∧ actor = wallet then some context else none
    | _ => none
  | complete other wallet version query discount =>
    match g.complete other wallet version query discount with
    | some (_, .ok (some _)) =>
      if ns = other ∧ actor = wallet then some (discount.getD 0, false) else none
    | _ => none
  | inventory other actors listed olds =>
    match g.authoritativeInventory other actors listed olds with
    | some (_, .ok _) => if ns = other then some (actors[actor]?.getD (0, false)) else none
    | _ => none
  | _ => none

end Event

theorem commit_moves (g : Store) (ns : String) (actors : Contexts) (proof : Proof)
    (other wallet : String) (named : Prop) :
    Moves g (g.commit ns actors proof).1 other wallet named := by
  unfold commit
  split
  · exact Moves.same (Advances.refl g) rfl
  · split
    · exact Moves.same (Advances.refl g) rfl
    · split
      · exact Moves.same (Advances.of_eq rfl rfl) rfl
      · exact Moves.same (mark_advances g ns) (mark_entry g ns other wallet)

/-- The numbers and contexts one event leaves, in terms of what it records. -/
structure Sees (g g' : Store) (ns actor : String) (recorded : Option Context) : Prop where
  advances : Advances g g'
  version : ∀ entry', g'.entry ns actor = some entry' →
    (∃ entry, g.entry ns actor = some entry ∧ entry.version = entry'.version) ∨
      (g.nextActorVersion < entry'.version ∧ entry'.version ≤ g'.nextActorVersion)
  context : ∀ entry', g'.entry ns actor = some entry' →
    recorded = some entry'.context ∨ (recorded = none ∧ ∃ entry,
      g.entry ns actor = some entry ∧ entry.context = entry'.context ∧
        entry.version = entry'.version)

theorem Sees.of_unnamed {g g' : Store} {ns actor : String} {named : Prop}
    (h : Moves g g' ns actor named) (hnot : ¬ named) : Sees g g' ns actor none where
  advances := h.advances
  version := h.version
  context entry' h' := Or.inr ⟨rfl, h.unnamed hnot entry' h'⟩

theorem Sees.of_named {g g' : Store} {ns actor : String} {named : Prop} {context : Context}
    (h : Moves g g' ns actor named)
    (hcontext : ∀ entry', g'.entry ns actor = some entry' → entry'.context = context) :
    Sees g g' ns actor (some context) where
  advances := h.advances
  version := h.version
  context entry' h' := Or.inl (congrArg some (hcontext entry' h').symm)

theorem context_of_map {g : Store} {ns actor : String} {context : Context} {entry' : Entry}
    (h : (g.entry ns actor).map Entry.context = some context)
    (h' : g.entry ns actor = some entry') : entry'.context = context := by
  rw [h'] at h
  exact Option.some.inj h

theorem observe_sees {g g' : Store} {other wallet : String} {context : Context}
    {changed : Bool} (h : (Event.observe other wallet context changed).run g = some g')
    (ns actor : String) :
    Sees g g' ns actor ((Event.observe other wallet context changed).records g ns actor) := by
  obtain ⟨⟨g₁, result⟩, hrun, rfl⟩ := Option.map_eq_some_iff.mp h
  have hmoves := observe_moves hrun ns actor
  simp only [Event.records, hrun]
  cases result with
  | error error =>
    apply Sees.of_unnamed hmoves
    rintro ⟨-, -, version, hok⟩
    cases hok
  | ok version =>
    dsimp only
    split
    case isTrue hnamed =>
      obtain ⟨rfl, rfl⟩ := hnamed
      exact Sees.of_named hmoves fun entry' h' => context_of_map (observe_context rfl hrun) h'
    case isFalse hnot =>
      exact Sees.of_unnamed hmoves fun hnamed => hnot ⟨hnamed.1, hnamed.2.1⟩

theorem complete_sees {g g' : Store} {other wallet : String} {version query : ℕ}
    {discount : Option ℕ}
    (h : (Event.complete other wallet version query discount).run g = some g')
    (ns actor : String) :
    Sees g g' ns actor
      ((Event.complete other wallet version query discount).records g ns actor) := by
  obtain ⟨⟨g₁, result⟩, hrun, rfl⟩ := Option.map_eq_some_iff.mp h
  have hmoves := complete_moves hrun ns actor
  simp only [Event.records, hrun]
  split
  case h_1 number heq =>
    cases heq
    split
    case isTrue hnamed =>
      obtain ⟨rfl, rfl⟩ := hnamed
      exact Sees.of_named hmoves fun entry' h' => context_of_map (complete_context hrun) h'
    case isFalse hnot =>
      exact Sees.of_unnamed hmoves fun hnamed => hnot ⟨hnamed.1, hnamed.2.1⟩
  case h_2 hnot =>
    apply Sees.of_unnamed hmoves
    rintro ⟨-, -, number, rfl⟩
    exact hnot _ _ rfl

theorem inventory_sees {g g' : Store} {other : String} {actors : Contexts}
    {listed : List (String × Context)} {olds : List (String × Entry)}
    (h : (Event.inventory other actors listed olds).run g = some g')
    (hlisted : listed.Perm actors.toList)
    (holds : olds.Perm (g.actorVersions[other]?.getD {}).entries.toList) (ns actor : String) :
    Sees g g' ns actor ((Event.inventory other actors listed olds).records g ns actor) := by
  obtain ⟨⟨g₁, result⟩, hrun, rfl⟩ := Option.map_eq_some_iff.mp h
  have hmoves := inventory_moves hrun holds ns actor
  simp only [Event.records, hrun]
  cases result with
  | error error =>
    apply Sees.of_unnamed hmoves
    rintro ⟨-, hok⟩
    cases hok
  | ok =>
    dsimp only
    split
    case isTrue hnamed =>
      subst hnamed
      exact Sees.of_named hmoves fun entry' h' => inventory_context hrun hlisted h'
    case isFalse hnot => exact Sees.of_unnamed hmoves fun hnamed => hnot hnamed.1

theorem Event.sees {g g' : Store} (event : Event) (h : event.run g = some g')
    (hiterates : event.Iterates g) (ns actor : String) :
    Sees g g' ns actor (event.records g ns actor) := by
  cases event with
  | observe => exact observe_sees h ns actor
  | beginFee =>
    obtain ⟨⟨g₁, result⟩, hrun, rfl⟩ := Option.map_eq_some_iff.mp h
    exact Sees.of_unnamed (beginFee_moves hrun ns actor) id
  | complete => exact complete_sees h ns actor
  | inventory => exact inventory_sees h hiterates.1 hiterates.2 ns actor
  | commit other actors proof =>
    cases h
    exact Sees.of_unnamed (commit_moves g other actors proof ns actor False) id
  | publish other snapshot =>
    have hsame : Advances g g' ∧ g'.entry ns actor = g.entry ns actor := by
      cases snapshot <;> cases h <;> exact ⟨Advances.of_eq rfl rfl, rfl⟩
    exact Sees.of_unnamed (Moves.same hsame.1 hsame.2) id
  | block =>
    cases h
    exact Sees.of_unnamed (Moves.same (Advances.of_eq rfl rfl) rfl) id

end Cl8yDex.ActorVersions
