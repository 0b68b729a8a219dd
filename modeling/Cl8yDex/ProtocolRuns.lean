import Cl8yDex.TokenEvidence

/-!
# Runs of merges and inheritances

A token observation that is merged, inherits, or is inherited from, in any order. The
observations counted as merged in are the ones a step really offers: the protocol entries
alone where an older, incompatible policy arrives, and what is carried over where another
token is inherited.
-/

namespace Cl8yDex.TokenEvidence

open TokenObservation

variable {token result merged previous : TokenObservation}
  {seen extra : List (String × ActorObservation)} {page : Actors} {now : ℤ}

theorem Guarded.start (hbounded : token.actors.size ≤ maxActorContexts) :
    Guarded token token.actors.toList where
  bounded := hbounded
  recorded _ _ hold := Std.TreeMap.mem_toList_iff_getElem?_eq_some.mpr hold
  guarded _ observation hmem hprotocol :=
    Or.inr (Or.inl ⟨observation, Std.TreeMap.mem_toList_iff_getElem?_eq_some.mp hmem,
      hprotocol, le_refl _⟩)

theorem Guarded.of_actors (h : Guarded merged seen) (hactors : result.actors = merged.actors)
    (hzero : merged.Quarantined → result.Quarantined) : Guarded result seen where
  bounded := hactors ▸ h.bounded
  recorded actor old hold := h.recorded actor old (hactors ▸ hold)
  guarded actor observation hmem hprotocol := by
    rcases h.guarded actor observation hmem hprotocol with hmark | ⟨old, hold, hheld⟩ | hcleared
    · exact Or.inl (hzero hmark)
    · exact Or.inr (Or.inl ⟨old, hactors ▸ hold, hheld⟩)
    · exact Or.inr (Or.inr hcleared)

/-- A quarantined token owes nothing but its bound. -/
theorem Guarded.marked (h : Guarded merged seen) (hsub : seen ⊆ extra)
    (hactors : result.actors = merged.actors) (hzero : result.Quarantined) :
    Guarded result extra where
  bounded := hactors ▸ h.bounded
  recorded actor old hold := hsub (h.recorded actor old (hactors ▸ hold))
  guarded _ _ _ _ := Or.inl hzero

/-- The token's own entries merged over others: what it owed before it still owes. -/
theorem Guarded.extend (h : Guarded token seen)
    (hnew : Guarded result (extra ++ token.actors.toList))
    (hzero : token.Quarantined → result.Quarantined) : Guarded result (seen ++ extra) := by
  have hsub : extra ++ token.actors.toList ⊆ seen ++ extra := by
    apply List.append_subset.mpr
    constructor
    · exact List.subset_append_right _ _
    · intro entry hmem
      apply List.mem_append_left
      exact h.recorded _ _ (Std.TreeMap.mem_toList_iff_getElem?_eq_some.mp hmem)
  refine ⟨hnew.bounded, fun actor old hold => hsub (hnew.recorded actor old hold), ?_⟩
  intro actor observation hmem hprotocol
  rcases List.mem_append.mp hmem with hmem | hmem
  · rcases h.guarded actor observation hmem hprotocol with hmark | ⟨old, hold, hold', hle⟩ |
      hcleared
    · exact Or.inl (hzero hmark)
    · have hlisted : (actor, old) ∈ extra ++ token.actors.toList :=
        List.mem_append_right _ (Std.TreeMap.mem_toList_iff_getElem?_eq_some.mpr hold)
      rcases hnew.guarded actor old hlisted hold' with hmark | ⟨kept, hkept, hprot, hlater⟩ |
        hcleared
      · exact Or.inl hmark
      · exact Or.inr (Or.inl ⟨kept, hkept, hprot, hle.trans hlater⟩)
      · exact Or.inr (Or.inr ((hcleared.earlier hle).mono hsub))
    · exact Or.inr (Or.inr (hcleared.mono (List.subset_append_left _ _)))
  · rcases hnew.guarded actor observation (List.mem_append_left _ hmem) hprotocol with
      hmark | hheld | hcleared
    · exact Or.inl hmark
    · exact Or.inr (Or.inl hheld)
    · exact Or.inr (Or.inr (hcleared.mono hsub))

section Inheritance

theorem inherited_some {actor : String} {old : ActorObservation}
    (h : (token.inherited now previous)[actor]? = some old) :
    previous.actors[actor]? = some old := by
  rw [inherited, Std.TreeMap.getElem?_filter', Option.filter_eq_some_iff] at h
  exact h.1

theorem inherited_protocol {actor : String} {old : ActorObservation}
    (h : previous.actors[actor]? = some old) (hprotocol : old.protocol = true) :
    (token.inherited now previous)[actor]? = some old := by
  rw [inherited, Std.TreeMap.getElem?_filter', Option.filter_eq_some_iff]
  exact ⟨h, by simp [hprotocol]⟩

theorem inherited_bounded (h : previous.actors.size ≤ maxActorContexts) :
    (token.inherited now previous).size ≤ maxActorContexts :=
  Std.TreeMap.size_filter_le_size.trans h

theorem inherited_untied (h : tied previous.actors page = false) :
    tied (token.inherited now previous) page = false := by
  rw [tied, List.any_eq_false] at h ⊢
  intro entry hmem hany
  obtain ⟨old, hold, htie⟩ := (Option.any_eq_true _ _).mp hany
  apply h entry hmem
  exact (Option.any_eq_true _ _).mpr ⟨old, inherited_some hold, htie⟩

end Inheritance

section Marking

variable {newer : TokenObservation}

theorem mergeActor_quarantined {actor : String} {observation : ActorObservation}
    (hzero : token.Quarantined) : (token.mergeActor actor observation).Quarantined := by
  unfold mergeActor
  split
  · exact hzero
  · split
    · split
      · exact insertIfRoom_observedAtMs.trans hzero
      · split
        · exact insertIfRoom_observedAtMs
        · exact hzero
    · exact insertIfRoom_observedAtMs.trans hzero

theorem mergeActorObservations_quarantined (hzero : token.Quarantined) :
    (token.mergeActorObservations page).Quarantined :=
  List.foldlRecOn page.toList _ hzero fun _ hzero _ _ => mergeActor_quarantined hzero

theorem inherit_actors :
    (token.inheritWalletContexts now previous).actors =
      (mergeActorObservations { token with actors := token.inherited now previous }
        token.actors).actors := by
  simp only [inheritWalletContexts]
  split <;> rfl

theorem inherit_quarantined_of_merged
    (hzero : (mergeActorObservations { token with actors := token.inherited now previous }
      token.actors).Quarantined) :
    (token.inheritWalletContexts now previous).Quarantined := by
  simp only [inheritWalletContexts]
  split
  · rfl
  · exact hzero

theorem inherit_quarantined (hzero : token.Quarantined) :
    (token.inheritWalletContexts now previous).Quarantined := by
  apply inherit_quarantined_of_merged
  apply mergeActorObservations_quarantined
  exact hzero

theorem inherit_quarantined_of_previous (hzero : previous.Quarantined) :
    (token.inheritWalletContexts now previous).Quarantined := by
  have hmark : previous.observedAtMs = 0 := hzero
  simp only [inheritWalletContexts, if_pos hmark]
  rfl

theorem merge_incompatible (h : token.compatible newer = false) :
    (token.merge now newer).actors = (if token.observedAtMs ≤ newer.observedAtMs then
        newer.inheritWalletContexts now token
      else token.mergeActorObservations (newer.actors.filter fun _ actor => actor.protocol)).actors
      := by
  simp only [merge, h, Bool.not_false, if_true]
  split_ifs <;> rfl

theorem merge_quarantined (hzero : token.Quarantined) (htime : 0 ≤ newer.observedAtMs) :
    (token.merge now newer).Quarantined := by
  have hmark : token.observedAtMs = 0 := hzero
  unfold merge
  split
  · simp only [hmark, true_or, if_true]
    rfl
  · have hmerged : (mergeActorObservations { token with pairs := token.pairs ∪ newer.pairs }
        newer.actors).Quarantined := mergeActorObservations_quarantined hzero
    simp only [Quarantined] at hmerged ⊢
    rw [hmerged]
    exact min_eq_left htime

end Marking

section Keeping

variable {newer : TokenObservation}

theorem Guarded.inherited (h : Guarded previous seen) (hlive : ¬ previous.Quarantined) :
    Guarded { token with actors := token.inherited now previous } seen where
  bounded := inherited_bounded h.bounded
  recorded actor old hold := h.recorded actor old (inherited_some hold)
  guarded actor observation hmem hprotocol := by
    rcases h.guarded actor observation hmem hprotocol with hmark | ⟨old, hold, hprot, hle⟩ |
      hcleared
    · exact absurd hmark hlive
    · exact Or.inr (Or.inl ⟨old, inherited_protocol hold hprot, hprot, hle⟩)
    · exact Or.inr (Or.inr hcleared)

theorem inherited_subset (h : Guarded previous seen) :
    (token.inherited now previous).toList ⊆ seen := by
  intro entry hmem
  exact h.recorded _ _ (inherited_some (Std.TreeMap.mem_toList_iff_getElem?_eq_some.mp hmem))

/-- A fresh token that inherits: what was owed before is still owed, quarantine included. -/
theorem inherit_keeps_previous (h : Guarded previous seen)
    (htie : tied previous.actors token.actors = false) :
    Guarded (token.inheritWalletContexts now previous) (seen ++ token.actors.toList) := by
  have huntied : tied (token.inherited now previous) token.actors = false :=
    inherited_untied htie
  by_cases hlive : previous.Quarantined
  · have hstart : Guarded { token with actors := token.inherited now previous }
        (token.inherited now previous).toList :=
      Guarded.start (inherited_bounded h.bounded)
    apply (mergeActorObservations_keeps hstart huntied).marked _ inherit_actors
      (inherit_quarantined_of_previous hlive)
    exact List.append_subset.mpr
      ⟨fun _ hmem => List.mem_append_left _ (inherited_subset h hmem),
        List.subset_append_right _ _⟩
  · exact (mergeActorObservations_keeps (h.inherited hlive) huntied).of_actors inherit_actors
      inherit_quarantined_of_merged

/-- A token that takes over the entries of another under its own. -/
theorem inherit_keeps (h : Guarded token seen)
    (hbounded : previous.actors.size ≤ maxActorContexts)
    (htie : tied previous.actors token.actors = false) :
    Guarded (token.inheritWalletContexts now previous)
      (seen ++ (token.inherited now previous).toList) := by
  have hstart : Guarded { token with actors := token.inherited now previous }
      (token.inherited now previous).toList :=
    Guarded.start (inherited_bounded hbounded)
  have hmerged := mergeActorObservations_keeps hstart (inherited_untied htie)
  exact h.extend (hmerged.of_actors inherit_actors inherit_quarantined_of_merged)
    inherit_quarantined

theorem untied_protocol (held : Actors) :
    tied held (newer.actors.filter fun _ actor => actor.protocol) = false := by
  rw [tied, List.any_eq_false]
  intro entry hmem hany
  obtain ⟨old, -, htie⟩ := (Option.any_eq_true _ _).mp hany
  rw [Std.TreeMap.mem_toList_iff_getElem?_eq_some, Std.TreeMap.getElem?_filter',
    Option.filter_eq_some_iff] at hmem
  simp [hmem.2] at htie

theorem merge_compatible_keeps (h : Guarded token seen) (hsame : token.compatible newer = true)
    (htime : 0 ≤ newer.observedAtMs) (htie : tied token.actors newer.actors = false) :
    Guarded (token.merge now newer) (seen ++ newer.actors.toList) := by
  have hbase : Guarded { token with pairs := token.pairs ∪ newer.pairs } seen :=
    h.of_actors rfl id
  have hmerged := mergeActorObservations_keeps hbase htie
  apply hmerged.of_actors
  · simp [merge, hsame]
  · intro hzero
    simp only [merge, hsame, Bool.not_true, Bool.false_eq_true, if_false, Quarantined] at hzero ⊢
    rw [hzero]
    exact min_eq_left htime

theorem merge_newer_keeps (h : Guarded token seen) (hother : token.compatible newer = false)
    (horder : token.observedAtMs ≤ newer.observedAtMs)
    (htie : tied token.actors newer.actors = false) :
    Guarded (token.merge now newer) (seen ++ newer.actors.toList) := by
  have hmerged : Guarded (newer.inheritWalletContexts now token) (seen ++ newer.actors.toList) :=
    inherit_keeps_previous h htie
  apply hmerged.of_actors
  · rw [merge_incompatible hother, if_pos horder]
  · intro hzero
    simp only [merge, hother, Bool.not_false, if_true, if_pos horder]
    split
    · rfl
    · exact hzero

theorem merge_older_keeps (h : Guarded token seen) (hother : token.compatible newer = false)
    (horder : ¬ token.observedAtMs ≤ newer.observedAtMs) :
    Guarded (token.merge now newer)
      (seen ++ (newer.actors.filter fun _ actor => actor.protocol).toList) := by
  apply (mergeActorObservations_keeps h (untied_protocol token.actors)).of_actors
  · rw [merge_incompatible hother, if_neg horder]
  · intro hzero
    simp only [merge, hother, Bool.not_false, if_true, if_neg horder]
    split
    · rfl
    · exact hzero

end Keeping

inductive Step
  | merge (now : ℤ) (newer : TokenObservation)
  | inherit (now : ℤ) (previous : TokenObservation)
  | publish (now : ℤ) (fresh : TokenObservation)

namespace Step

def after (token : TokenObservation) : Step → TokenObservation
  | merge now newer => token.merge now newer
  | inherit now previous => token.inheritWalletContexts now previous
  | publish now fresh => fresh.inheritWalletContexts now token

/-- The observations a step merges into those the token already answers for. -/
def offers (token : TokenObservation) : Step → Actors
  | merge _ newer =>
    if token.compatible newer ∨ token.observedAtMs ≤ newer.observedAtMs then newer.actors
    else newer.actors.filter fun _ actor => actor.protocol
  | inherit now previous => token.inherited now previous
  | publish _ fresh => fresh.actors

/-- No plain observation of the step has the wallet and the time of a protocol entry it is
merged over, no merged token carries a time before 1970, and an inherited one holds no more
wallets than the capacity allows. -/
def Regular (token : TokenObservation) : Step → Prop
  | merge _ newer => 0 ≤ newer.observedAtMs ∧
    (token.compatible newer ∨ token.observedAtMs ≤ newer.observedAtMs →
      tied token.actors newer.actors = false)
  | inherit _ previous => previous.actors.size ≤ maxActorContexts ∧
    tied previous.actors token.actors = false
  | publish _ fresh => tied token.actors fresh.actors = false

theorem keeps (step : Step) (h : Guarded token seen) (hregular : step.Regular token) :
    Guarded (step.after token) (seen ++ (step.offers token).toList) := by
  cases step with
  | merge now newer =>
    obtain ⟨htime, htie⟩ := hregular
    simp only [after, offers]
    split
    case isTrue hfull =>
      cases hsame : token.compatible newer with
      | true => exact merge_compatible_keeps h hsame htime (htie hfull)
      | false =>
        have horder : token.observedAtMs ≤ newer.observedAtMs := by simpa [hsame] using hfull
        exact merge_newer_keeps h hsame horder (htie hfull)
    case isFalse hpart =>
      rw [not_or] at hpart
      exact merge_older_keeps h (by simpa using hpart.1) hpart.2
  | inherit now previous => exact inherit_keeps h hregular.1 hregular.2
  | publish now fresh => exact inherit_keeps_previous h hregular

end Step

/-- The tokens reached from `first` by regular steps, with the observations merged in. -/
inductive Reached (first : TokenObservation) :
    TokenObservation → List (String × ActorObservation) → Prop
  | first : Reached first first first.actors.toList
  | step {token : TokenObservation} {seen : List (String × ActorObservation)} (step : Step) :
    Reached first token seen → step.Regular token →
      Reached first (step.after token) (seen ++ (step.offers token).toList)

theorem Reached.guarded {first : TokenObservation} (h : Reached first token seen)
    (hbounded : first.actors.size ≤ maxActorContexts) : Guarded token seen := by
  induction h with
  | first => exact Guarded.start hbounded
  | step step _ hregular ih => exact step.keeps ih hregular

theorem rates_of_held {actor : String} {time : ℤ} (h : Held token actor time) (pair : String) :
    token.rates now (some actor) pair = none := by
  obtain ⟨old, hold, hprotocol, -⟩ := h
  unfold rates
  split
  · rfl
  · simp [hold, hprotocol]

/-- In every run of regular steps a protocol address that was merged in gets no rates until
a later observation of it as a plain wallet is merged in or the token is quarantined, a
quarantined token stays so under every merge and inheritance, and no page evicts a protocol
address. -/
theorem protocol_fails_closed {first token : TokenObservation}
    {seen : List (String × ActorObservation)} (hfirst : first.actors.size ≤ maxActorContexts)
    (hreached : Reached first token seen) :
    (∀ actor observation, (actor, observation) ∈ seen → observation.protocol = true →
      token.Quarantined ∨ Cleared seen actor observation.observedAtMs ∨
        ∀ now pair, token.rates now (some actor) pair = none) ∧
    (token.Quarantined → ∀ now other,
      (0 ≤ other.observedAtMs → (token.merge now other).Quarantined) ∧
      (token.inheritWalletContexts now other).Quarantined ∧
      (other.inheritWalletContexts now token).Quarantined) ∧
    token.actors.size ≤ maxActorContexts ∧
    ∀ (ledger : TokenObservation) (page : Actors) (actor : String) (old : ActorObservation),
      ledger.actors.size ≤ maxActorContexts → ledger.actors[actor]? = some old →
      old.protocol = true →
      (ledger.mergeActorObservations page).actors[actor]? = some old ∨
        ∃ new, page[actor]? = some new ∧ old.observedAtMs ≤ new.observedAtMs ∧
          (new.protocol = true →
            (ledger.mergeActorObservations page).actors[actor]? = some new) := by
  have hguarded := hreached.guarded hfirst
  refine ⟨?_, ?_, hguarded.bounded, ?_⟩
  · intro actor observation hmem hprotocol
    rcases hguarded.guarded actor observation hmem hprotocol with hzero | hheld | hcleared
    · exact Or.inl hzero
    · exact Or.inr (Or.inr fun _ pair => rates_of_held hheld pair)
    · exact Or.inr (Or.inl hcleared)
  · intro hzero now other
    exact ⟨merge_quarantined hzero, inherit_quarantined hzero,
      inherit_quarantined_of_previous hzero⟩
  · intro ledger page actor old hbounded hold hprotocol
    exact mergeActorObservations_kept hbounded hold hprotocol

section Samples

def sampleActor (blocked : Bool) (time : ℤ) : ActorObservation :=
  ⟨time, blocked, false, some 0⟩

def sampleToken (time : ℤ) (blocked : Bool) : TokenObservation :=
  ⟨"policy", 1, 250, 500, time, none, {"pair"},
    Std.TreeMap.ofList [("wallet", sampleActor blocked time)]⟩

theorem sampleToken_toList (time : ℤ) (blocked : Bool) :
    (sampleToken time blocked).actors.toList = [("wallet", sampleActor blocked time)] := rfl

/-- A plain observation of the same time restores the rates of a protocol address. -/
theorem equal_time_clears :
    ¬ ((sampleToken 5 true).merge 6 (sampleToken 5 false)).Quarantined ∧
    ¬ Cleared ((sampleToken 5 true).actors.toList ++ (sampleToken 5 false).actors.toList)
      "wallet" 5 ∧
    ((sampleToken 5 true).merge 6 (sampleToken 5 false)).rates 6 (some "wallet") "pair" =
      some (500, 250) := by
  refine ⟨?_, ?_, by decide +kernel⟩
  · unfold Quarantined
    decide +kernel
  · rintro ⟨clear, hmem, -, hlater⟩
    simp only [sampleToken_toList, List.cons_append, List.nil_append, List.mem_cons,
      Prod.mk.injEq, true_and, List.not_mem_nil, or_false] at hmem
    rcases hmem with rfl | rfl <;> exact absurd hlater (by decide)

theorem protocol_fails_closed_sample :
    (sampleToken 5 true).actors.size ≤ maxActorContexts ∧
    Step.Regular (sampleToken 5 true) (.merge 6 (sampleToken 4 false)) ∧
    (((sampleToken 5 true).merge 6 (sampleToken 4 false)).Quarantined ∨
      Cleared ((sampleToken 5 true).actors.toList ++ (sampleToken 4 false).actors.toList)
        "wallet" 5 ∨
      ∀ now pair, ((sampleToken 5 true).merge 6 (sampleToken 4 false)).rates now (some "wallet")
        pair = none) := by
  have hbounded : (sampleToken 5 true).actors.size ≤ maxActorContexts := by decide +kernel
  have hregular : Step.Regular (sampleToken 5 true) (.merge 6 (sampleToken 4 false)) :=
    ⟨by decide, fun _ => by decide +kernel⟩
  refine ⟨hbounded, hregular, ?_⟩
  exact (protocol_fails_closed hbounded (Reached.step (.merge 6 (sampleToken 4 false))
    Reached.first hregular)).1 "wallet" (sampleActor true 5) (List.mem_append_left _
      (by rw [sampleToken_toList]; exact List.mem_cons_self)) rfl

end Samples

end Cl8yDex.TokenEvidence
