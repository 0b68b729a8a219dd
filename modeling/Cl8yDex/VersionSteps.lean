import Mathlib.Data.List.Nodup
import Cl8yDex.ActorVersions

/-!
# What one event does to a wallet's entry

Every operation either leaves a wallet's number alone or gives it one issued in the same
operation, and an operation that does not name the wallet changes neither its number nor
its context; at most it drops the entry.
-/

namespace Cl8yDex.ActorVersions

namespace Store

/-- The history is the list of all numbers up to the counter. -/
def Numbered (g : Store) : Prop := g.issued = (List.range' 1 g.nextActorVersion).reverse

theorem numbered_nodup {g : Store} (h : g.Numbered) : g.issued.Nodup := by
  rw [h, List.nodup_reverse]
  exact List.nodup_range'

/-- The counter has moved on and the history with it. -/
structure Advances (g g' : Store) : Prop where
  counter : g.nextActorVersion ≤ g'.nextActorVersion
  numbered : g.Numbered → g'.Numbered

theorem Advances.refl (g : Store) : Advances g g := ⟨le_refl _, id⟩

theorem Advances.trans {g h k : Store} (first : Advances g h) (next : Advances h k) :
    Advances g k :=
  ⟨first.counter.trans next.counter, next.numbered ∘ first.numbered⟩

theorem Advances.of_eq {g g' : Store} (hnext : g'.nextActorVersion = g.nextActorVersion)
    (hissued : g'.issued = g.issued) : Advances g g' := by
  constructor
  · exact hnext.ge
  · intro h
    rw [Numbered, hissued, hnext]
    exact h

/-- What issuing a number changes. -/
structure IssuedAs (g : Store) (version : ℕ) (g' : Store) : Prop where
  version_eq : version = g.nextActorVersion + 1
  counter_eq : g'.nextActorVersion = g.nextActorVersion + 1
  advances : Advances g g'
  versions : g'.actorVersions = g.actorVersions
  snapshots : g'.snapshots = g.snapshots
  early : g'.earlyActorBlocks = g.earlyActorBlocks

theorem issue_spec {g g' : Store} {version : ℕ} (h : g.issue = some (version, g')) :
    IssuedAs g version g' := by
  unfold issue at h
  dsimp only at h
  split at h
  · cases h
    refine ⟨rfl, rfl, ⟨Nat.le_succ _, fun hnumbered => ?_⟩, rfl, rfl, rfl⟩
    simp only [Numbered] at hnumbered ⊢
    rw [hnumbered, List.range'_concat]
    simp [Nat.add_comm]
  · cases h

theorem entry_congr {g g' : Store} (h : g'.actorVersions = g.actorVersions)
    (ns actor : String) : g'.entry ns actor = g.entry ns actor := by
  rw [entry, entry, h]

section Insertion

variable {g : Store} {ns : String} {n : Namespace}

theorem entry_insert_self (actor : String) :
    ({ g with actorVersions := g.actorVersions.insert ns n } : Store).entry ns actor =
      n.entries[actor]? := by
  simp [entry]

theorem entry_insert_other {other : String} (hne : other ≠ ns) (actor : String) :
    ({ g with actorVersions := g.actorVersions.insert ns n } : Store).entry other actor =
      g.entry other actor := by
  simp [entry, Std.TreeMap.getElem?_insert, Ne.symm hne]

theorem entry_eq_getD (actor : String) :
    g.entry ns actor = (g.actorVersions[ns]?.getD {}).entries[actor]? := by
  unfold entry
  cases g.actorVersions[ns]? with
  | none => simp
  | some n => rfl

end Insertion

@[simp] theorem mark_entry (g : Store) (marked ns actor : String) :
    (g.markActorCapacityExhausted marked).entry ns actor = g.entry ns actor := by
  unfold markActorCapacityExhausted
  split <;> rfl

theorem mark_advances (g : Store) (ns : String) :
    Advances g (g.markActorCapacityExhausted ns) := by
  unfold markActorCapacityExhausted
  split <;> exact Advances.of_eq rfl rfl

/-- An event from `g` to `g'`, as one wallet sees it: its number is kept or newly issued, and
unless the event `named` the wallet its context is kept too. -/
structure Moves (g g' : Store) (ns actor : String) (named : Prop) : Prop where
  advances : Advances g g'
  version : ∀ entry', g'.entry ns actor = some entry' →
    (∃ entry, g.entry ns actor = some entry ∧ entry.version = entry'.version) ∨
      (g.nextActorVersion < entry'.version ∧ entry'.version ≤ g'.nextActorVersion)
  unnamed : ¬ named → ∀ entry', g'.entry ns actor = some entry' →
    ∃ entry, g.entry ns actor = some entry ∧ entry.context = entry'.context ∧
      entry.version = entry'.version

/-- An event that keeps or drops the wallet's entry. -/
theorem Moves.kept {g g' : Store} {ns actor : String} {named : Prop}
    (hadvances : Advances g g')
    (hkept : ∀ entry', g'.entry ns actor = some entry' →
      ∃ entry, g.entry ns actor = some entry ∧ entry.context = entry'.context ∧
        entry.version = entry'.version) : Moves g g' ns actor named where
  advances := hadvances
  version entry' h := by
    obtain ⟨entry, hentry, -, hversion⟩ := hkept entry' h
    exact Or.inl ⟨entry, hentry, hversion⟩
  unnamed _ := hkept

theorem Moves.same {g g' : Store} {ns actor : String} {named : Prop}
    (hadvances : Advances g g') (hsame : g'.entry ns actor = g.entry ns actor) :
    Moves g g' ns actor named :=
  Moves.kept hadvances fun entry' h => ⟨entry', hsame ▸ h, rfl, rfl⟩

theorem collect_some {g : Store} {ns actor other : String} {n : Namespace} {entry : Entry}
    (h : (g.collect ns actor n).entries[other]? = some entry) :
    n.entries[other]? = some entry := by
  unfold collect at h
  split at h
  · dsimp only at h
    rw [Std.TreeMap.getElem?_filter', Option.filter_eq_some_iff] at h
    exact h.1
  · exact h

/-- What `observe` leaves for a wallet other than the observed one. -/
theorem observe_other {g : Store} {ns actor other : String} {n : Namespace} {entry new : Entry}
    (hne : other ≠ actor)
    (h : ((g.collect ns actor n).entries.insert actor new)[other]? = some entry) :
    n.entries[other]? = some entry := by
  rw [Std.TreeMap.getElem?_insert, if_neg] at h
  · exact collect_some h
  · intro heq
    exact hne (Std.LawfulEqCmp.eq_of_compare heq).symm

/-- The outcome of `observe`: refused with the namespace at most collected, or the wallet's
entry written under its old number or a new one. -/
theorem observe_cases {g g' : Store} {ns actor : String} {context : Context} {changed : Bool}
    {result : Except CapacityError ℕ}
    (h : g.observe ns actor context changed = some (g', result)) :
    (result = .error .exhausted ∧ Advances g g' ∧
      (g'.actorVersions = g.actorVersions ∨
        g'.actorVersions = g.actorVersions.insert ns
          (g.collect ns actor (g.actorVersions[ns]?.getD {})) ∧ g'.entry ns actor = none)) ∨
    ∃ version revision fee,
      result = .ok version ∧ Advances g g' ∧
      ((∃ entry, g.entry ns actor = some entry ∧ entry.version = version) ∨
        (g.nextActorVersion < version ∧ version ≤ g'.nextActorVersion)) ∧
      g'.actorVersions = g.actorVersions.insert ns ⟨revision,
        (g.collect ns actor (g.actorVersions[ns]?.getD {})).entries.insert actor
          ⟨version, context, fee⟩⟩ := by
  unfold observe at h
  split at h
  · cases h
    exact Or.inl ⟨rfl, Advances.of_eq rfl rfl, Or.inl rfl⟩
  · dsimp only at h
    generalize hn : g.collect ns actor (g.actorVersions[ns]?.getD {}) = n at h ⊢
    split at h
    case isTrue hfull =>
      cases h
      have hinserted : Advances g { g with actorVersions := g.actorVersions.insert ns n } :=
        Advances.of_eq rfl rfl
      refine Or.inl ⟨rfl, hinserted.trans (mark_advances _ _), Or.inr ⟨?_, ?_⟩⟩
      · unfold markActorCapacityExhausted
        split <;> rfl
      · rw [mark_entry, entry_insert_self]
        exact Std.TreeMap.getElem?_eq_none hfull.2
    case isFalse =>
      obtain ⟨⟨version, h₁⟩, hnumbered, hresult⟩ := Option.map_eq_some_iff.mp h
      cases hresult
      refine Or.inr ⟨version,
        if changed || n.entries[actor]?.any (fun entry => entry.context ≠ context) then version
        else n.revision, n.entries[actor]?.elim 0 Entry.feeQuery, rfl, ?_⟩
      have hissue : ∀ {v : ℕ} {g₁ : Store}, g.issue = some (v, g₁) →
          Advances g g₁ ∧ (g.nextActorVersion < v ∧ v ≤ g₁.nextActorVersion) ∧
            g₁.actorVersions = g.actorVersions := by
        intro v g₁ hissue
        have hspec := issue_spec hissue
        refine ⟨hspec.advances, ?_, hspec.versions⟩
        have := hspec.version_eq
        have := hspec.counter_eq
        omega
      split at hnumbered
      case h_1 entry hentry =>
        split at hnumbered
        · obtain ⟨hadvances, hfresh, hsame⟩ := hissue hnumbered
          exact ⟨hadvances.trans (Advances.of_eq rfl rfl), Or.inr hfresh, by rw [hsame]⟩
        · cases hnumbered
          refine ⟨Advances.of_eq rfl rfl, Or.inl ⟨entry, ?_, rfl⟩, rfl⟩
          rw [entry_eq_getD]
          exact collect_some (hn ▸ hentry)
      case h_2 =>
        obtain ⟨hadvances, hfresh, hsame⟩ := hissue hnumbered
        exact ⟨hadvances.trans (Advances.of_eq rfl rfl), Or.inr hfresh, by rw [hsame]⟩

theorem entry_of_versions {g g' : Store} {ns : String} {n : Namespace}
    (h : g'.actorVersions = g.actorVersions.insert ns n) (other actor : String) :
    g'.entry other actor = if other = ns then n.entries[actor]? else g.entry other actor := by
  have hcongr : g'.entry other actor =
      ({ g with actorVersions := g.actorVersions.insert ns n } : Store).entry other actor :=
    entry_congr (by rw [h]) other actor
  rw [hcongr]
  split
  case isTrue heq => rw [heq, entry_insert_self]
  case isFalse hne => exact entry_insert_other hne actor

theorem observe_moves {g g' : Store} {ns actor : String} {context : Context} {changed : Bool}
    {result : Except CapacityError ℕ}
    (h : g.observe ns actor context changed = some (g', result)) (other wallet : String) :
    Moves g g' other wallet (other = ns ∧ wallet = actor ∧ ∃ version, result = .ok version) := by
  rcases observe_cases h with ⟨-, hadvances, hsame | ⟨hcollected, -⟩⟩ |
    ⟨version, revision, fee, hok, hadvances, hversion, hwritten⟩
  · exact Moves.same hadvances (entry_congr hsame other wallet)
  · apply Moves.kept hadvances
    intro entry' h'
    rw [entry_of_versions hcollected] at h'
    split at h'
    case isTrue heq =>
      subst heq
      exact ⟨entry', by rw [entry_eq_getD]; exact collect_some h', rfl, rfl⟩
    case isFalse => exact ⟨entry', h', rfl, rfl⟩
  · have hentry := entry_of_versions hwritten other wallet
    by_cases hnamed : other = ns ∧ wallet = actor
    · obtain ⟨rfl, rfl⟩ := hnamed
      rw [if_pos rfl, Std.TreeMap.getElem?_insert_self] at hentry
      refine ⟨hadvances, fun entry' h' => ?_, fun hnot => absurd ⟨rfl, rfl, version, hok⟩ hnot⟩
      rw [hentry] at h'
      cases h'
      exact hversion
    · apply Moves.kept hadvances
      intro entry' h'
      rw [hentry] at h'
      split at h'
      case isTrue heq =>
        subst heq
        have hother := observe_other (fun hw => hnamed ⟨rfl, hw⟩) h'
        exact ⟨entry', by rw [entry_eq_getD]; exact hother, rfl, rfl⟩
      case isFalse => exact ⟨entry', h', rfl, rfl⟩

/-- The wallet that was observed has the observed context, if it has an entry. -/
theorem observe_context {g g' : Store} {ns actor : String} {context : Context} {changed : Bool}
    {result : Except CapacityError ℕ} {version : ℕ} (hresult : result = .ok version)
    (h : g.observe ns actor context changed = some (g', result)) :
    (g'.entry ns actor).map Entry.context = some context := by
  rcases observe_cases h with ⟨hfailed, -, -⟩ | ⟨_, _, _, -, -, -, hwritten⟩
  · rw [hfailed] at hresult
    cases hresult
  · rw [entry_of_versions hwritten, if_pos rfl, Std.TreeMap.getElem?_insert_self]
    rfl

section Fees

variable {g g' : Store} {ns actor : String}

theorem setEntry_entry {old : Entry} (new : Entry) (hold : g.entry ns actor = some old)
    (other wallet : String) :
    (g.setEntry ns actor new).entry other wallet =
      if other = ns ∧ wallet = actor then some new else g.entry other wallet := by
  unfold setEntry
  obtain ⟨n, hn, -⟩ := Option.bind_eq_some_iff.mp hold
  simp only [hn]
  by_cases hns : other = ns
  · subst hns
    rw [entry_insert_self]
    by_cases hwallet : wallet = actor
    · subst hwallet
      simp
    · rw [if_neg (fun h => hwallet h.2), Std.TreeMap.getElem?_insert, if_neg]
      · simp [entry, hn]
      · intro heq
        exact hwallet (Std.LawfulEqCmp.eq_of_compare heq).symm
  · rw [entry_insert_other hns, if_neg (fun h => hns h.1)]

theorem setEntry_advances (new : Entry) : Advances g (g.setEntry ns actor new) := by
  unfold setEntry
  split <;> exact Advances.of_eq rfl rfl

/-- Writing an entry that keeps the number moves no other wallet. -/
theorem setEntry_moves {old : Entry} (new : Entry) (hold : g.entry ns actor = some old)
    (hversion : old.version = new.version) (other wallet : String) :
    Moves g (g.setEntry ns actor new) other wallet (other = ns ∧ wallet = actor) := by
  have hentry := setEntry_entry new hold other wallet
  by_cases hnamed : other = ns ∧ wallet = actor
  · obtain ⟨rfl, rfl⟩ := hnamed
    rw [if_pos ⟨rfl, rfl⟩] at hentry
    refine ⟨setEntry_advances new, fun entry' h' => ?_, fun hnot => absurd ⟨rfl, rfl⟩ hnot⟩
    rw [hentry] at h'
    cases h'
    exact Or.inl ⟨old, hold, hversion⟩
  · rw [if_neg hnamed] at hentry
    exact Moves.same (setEntry_advances new) hentry

theorem beginFee_moves {version : ℕ} {result : Option ℕ}
    (h : g.beginFee ns actor version = some (g', result)) (other wallet : String) :
    Moves g g' other wallet False := by
  unfold beginFee at h
  split at h
  case h_1 entry hentry =>
    split at h
    · cases h
      exact Moves.same (Advances.refl g) rfl
    · obtain ⟨⟨query, h₁⟩, hissue, hresult⟩ := Option.map_eq_some_iff.mp h
      cases hresult
      have hspec := issue_spec hissue
      have hold : h₁.entry ns actor = some entry :=
        (entry_congr hspec.versions ns actor).trans hentry
      apply Moves.kept (hspec.advances.trans (setEntry_advances _))
      intro entry' h'
      rw [setEntry_entry _ hold] at h'
      split at h'
      case isTrue hnamed =>
        cases h'
        obtain ⟨rfl, rfl⟩ := hnamed
        exact ⟨entry, hentry, rfl, rfl⟩
      case isFalse =>
        rw [entry_congr hspec.versions] at h'
        exact ⟨entry', h', rfl, rfl⟩
  case h_2 =>
    cases h
    exact Moves.same (Advances.refl g) rfl

theorem Moves.then_same {h : Store} {named : Prop} {other wallet : String}
    (hmoves : Moves g h other wallet named) (hadvances : Advances h g')
    (hsame : g'.entry other wallet = h.entry other wallet) : Moves g g' other wallet named where
  advances := hmoves.advances.trans hadvances
  version entry' h' := by
    rcases hmoves.version entry' (hsame ▸ h') with hkept | ⟨hfresh, hle⟩
    · exact Or.inl hkept
    · exact Or.inr ⟨hfresh, hle.trans hadvances.counter⟩
  unnamed hnot entry' h' := hmoves.unnamed hnot entry' (hsame ▸ h')

theorem acceptFee_moves {context : Context} {changed : Bool} {result : Except CapacityError ℕ}
    (h : g.acceptFee ns actor context changed = some (g', result)) (other wallet : String) :
    Moves g g' other wallet (other = ns ∧ wallet = actor ∧ ∃ version, result = .ok version) := by
  unfold acceptFee at h
  split at h
  · exact observe_moves h other wallet
  · obtain ⟨old, hold, hresult⟩ := Option.map_eq_some_iff.mp h
    cases hresult
    have hmoves := setEntry_moves { old with context } hold rfl other wallet
    exact ⟨hmoves.advances, hmoves.version, fun hnot =>
      hmoves.unnamed fun hnamed => hnot ⟨hnamed.1, hnamed.2, old.version, rfl⟩⟩

theorem acceptFee_context {context : Context} {changed : Bool} {version : ℕ}
    (h : g.acceptFee ns actor context changed = some (g', .ok version)) :
    (g'.entry ns actor).map Entry.context = some context := by
  unfold acceptFee at h
  split at h
  · exact observe_context rfl h
  · obtain ⟨old, hold, hresult⟩ := Option.map_eq_some_iff.mp h
    cases hresult
    rw [setEntry_entry _ hold, if_pos ⟨rfl, rfl⟩]
    rfl

theorem insertActor_unblocked (actors : Contexts) (actor : String) (discount : ℕ) :
    ∃ inserted, insertActor actors actor (discount, false) = .ok inserted := by
  unfold insertActor
  split
  · split
    · exact ⟨_, rfl⟩
    · exact ⟨_, rfl⟩
  · exact ⟨_, rfl⟩

/-- The completion of a fee read is its acceptance as far as the entries are concerned. -/
theorem complete_accepts {version query : ℕ} {discount : Option ℕ}
    {result : Except CapacityError (Option ℕ)}
    (h : g.complete ns actor version query discount = some (g', result)) :
    (g' = g ∧ result = .ok none) ∨
    ∃ (accepted : Store) (changed : Bool) (outcome : Except CapacityError ℕ),
      g.acceptFee ns actor (discount.getD 0, false) changed = some (accepted, outcome) ∧
      Advances accepted g' ∧ g'.actorVersions = accepted.actorVersions ∧
      result = outcome.map some := by
  unfold complete at h
  split at h
  · cases h
    exact Or.inl ⟨rfl, rfl⟩
  · obtain ⟨⟨accepted, outcome⟩, haccept, hresult⟩ := Option.map_eq_some_iff.mp h
    refine Or.inr ⟨accepted, _, outcome, haccept, ?_⟩
    cases outcome with
    | error =>
      cases hresult
      exact ⟨Advances.refl _, rfl, rfl⟩
    | ok number =>
      cases hprevious : g.snapshots[ns]? with
      | none =>
        simp only [hprevious] at hresult
        cases hresult
        exact ⟨Advances.refl _, rfl, rfl⟩
      | some previous =>
        obtain ⟨inserted, hinserted⟩ :=
          insertActor_unblocked previous.actors actor (discount.getD 0)
        simp only [hprevious, hinserted] at hresult
        split at hresult
        · cases hresult
          exact ⟨Advances.of_eq rfl rfl, rfl, rfl⟩
        · cases hresult
          exact ⟨Advances.refl _, rfl, rfl⟩

theorem complete_moves {version query : ℕ} {discount : Option ℕ}
    {result : Except CapacityError (Option ℕ)}
    (h : g.complete ns actor version query discount = some (g', result))
    (other wallet : String) :
    Moves g g' other wallet
      (other = ns ∧ wallet = actor ∧ ∃ number, result = .ok (some number)) := by
  rcases complete_accepts h with ⟨rfl, -⟩ |
    ⟨accepted, changed, outcome, haccept, hadvances, hversions, hresult⟩
  · exact Moves.same (Advances.refl _) rfl
  · have hmoves := (acceptFee_moves haccept other wallet).then_same hadvances
      (entry_congr hversions other wallet)
    refine ⟨hmoves.advances, hmoves.version, fun hnot => hmoves.unnamed fun hnamed => hnot ?_⟩
    obtain ⟨hns, hwallet, number, hok⟩ := hnamed
    exact ⟨hns, hwallet, number, by rw [hresult, hok]; rfl⟩

theorem complete_context {version query number : ℕ} {discount : Option ℕ}
    (h : g.complete ns actor version query discount = some (g', .ok (some number))) :
    (g'.entry ns actor).map Entry.context = some (discount.getD 0, false) := by
  rcases complete_accepts h with ⟨-, hnone⟩ |
    ⟨accepted, changed, outcome, haccept, -, hversions, hresult⟩
  · cases hnone
  · cases outcome with
    | error => cases hresult
    | ok accepted => rw [entry_congr hversions, acceptFee_context haccept]

end Fees

end Store

end Cl8yDex.ActorVersions
