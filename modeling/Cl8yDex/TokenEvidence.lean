import Std.Data.TreeMap.Lemmas
import Mathlib.Data.List.MinMax
import Mathlib.Data.Prod.Lex
import Mathlib.Data.Finset.Basic
import Mathlib.Data.String.Basic
import Mathlib.Order.Defs.LinearOrder

/-!
# Scheduled observations of a community token

The evidence about one token that a local quote relies on: its policy, the time of the
observation, and for each observed wallet whether the token treats it as a protocol
address. Observations arrive from separately scheduled pages, so they are merged and
inherited in an order that is not the order of their times.
-/

namespace Cl8yDex.TokenEvidence

structure ActorObservation where
  observedAtMs : ℤ
  protocol : Bool
  manager : Bool
  balance : Option ℕ
  deriving DecidableEq

abbrev Actors := Std.TreeMap String ActorObservation

structure TokenObservation where
  policyIdentity : String
  codeId : ℕ
  buyBps : ℕ
  sellBps : ℕ
  observedAtMs : ℤ
  maxWallet : Option ℕ
  pairs : Finset String
  actors : Actors

def maxActorContexts : ℕ := 2048

/-- The signing window of a local quote, half an hour. -/
def configTtlMs : ℤ := 30 * 60 * 1000

def ActorObservation.freshAt (observation : ActorObservation) (now : ℤ) : Bool :=
  observation.observedAtMs ≤ now ∧ now - observation.observedAtMs < configTtlMs

namespace TokenObservation

/-- The same policy, as `merge` and `inherit_wallet_contexts` compare it. -/
def compatible (token other : TokenObservation) : Bool :=
  token.policyIdentity = other.policyIdentity ∧ token.codeId = other.codeId ∧
    token.buyBps = other.buyBps ∧ token.sellBps = other.sellBps ∧
    token.maxWallet = other.maxWallet

/-- Times are compared as numbers. -/
local instance timeOrder : Preorder ℤ := Int.instLinearOrder.toPreorder

/-- The oldest wallet that may be evicted: a protocol address never is. -/
def victim (token : TokenObservation) : Option String :=
  ((token.actors.toList.filter fun entry => !entry.2.protocol).argmin fun entry =>
    toLex (entry.2.observedAtMs, entry.1)).map Prod.fst

def insertIfRoom (token : TokenObservation) (actor : String)
    (observation : ActorObservation) : TokenObservation :=
  if token.actors.size < maxActorContexts ∨ actor ∈ token.actors then
    { token with actors := token.actors.insert actor observation }
  else token

/-- The body of the loop of `merge_actor_observations`. -/
def mergeActor (token : TokenObservation) (actor : String)
    (observation : ActorObservation) : TokenObservation :=
  if token.actors[actor]?.any (fun old => observation.observedAtMs < old.observedAtMs) then
    token
  else if actor ∉ token.actors ∧ maxActorContexts ≤ token.actors.size then
    match token.victim with
    | some victim =>
      insertIfRoom { token with actors := token.actors.erase victim } actor observation
    | none =>
      if observation.protocol then
        insertIfRoom { token with observedAtMs := 0 } actor observation
      else token
  else insertIfRoom token actor observation

def mergeActorObservations (token : TokenObservation) (observations : Actors) :
    TokenObservation :=
  observations.toList.foldl (fun token entry => token.mergeActor entry.1 entry.2) token

/-- The entries of `previous` that a token takes over before its own are merged in. -/
def inherited (token : TokenObservation) (now : ℤ) (previous : TokenObservation) : Actors :=
  previous.actors.filter fun _ observation =>
    observation.protocol || (token.compatible previous && observation.freshAt now)

def inheritWalletContexts (token : TokenObservation) (now : ℤ) (previous : TokenObservation) :
    TokenObservation :=
  let fresh := token.actors
  let token := mergeActorObservations
    { token with actors := token.inherited now previous } fresh
  if previous.observedAtMs = 0 then { token with observedAtMs := 0 } else token

def merge (token : TokenObservation) (now : ℤ) (newer : TokenObservation) : TokenObservation :=
  if !token.compatible newer then
    let quarantined := token.observedAtMs = 0 ∨ newer.observedAtMs = 0
    let merged :=
      if token.observedAtMs ≤ newer.observedAtMs then newer.inheritWalletContexts now token
      else token.mergeActorObservations (newer.actors.filter fun _ actor => actor.protocol)
    if quarantined then { merged with observedAtMs := 0 } else merged
  else
    let merged := mergeActorObservations
      { token with pairs := token.pairs ∪ newer.pairs } newer.actors
    { merged with observedAtMs := min merged.observedAtMs newer.observedAtMs }

/-- The sell and buy rates a quote may use for `actor` on `pair`. -/
def rates (token : TokenObservation) (now : ℤ) (actor : Option String) (pair : String) :
    Option (ℕ × ℕ) :=
  if now < token.observedAtMs ∨ configTtlMs ≤ now - token.observedAtMs ∨
      pair ∉ token.pairs then none
  else do
    let exempt ← match actor with
      | some actor => do
        let observed ← token.actors[actor]?
        if observed.protocol || !observed.freshAt now then none else some observed.manager
      | none => some false
    some (if exempt then (0, 0) else (token.sellBps, token.buyBps))

/-- The capacity marker: no time at all, so that no quote is fresh. -/
def Quarantined (token : TokenObservation) : Prop := token.observedAtMs = 0

end TokenObservation

end Cl8yDex.TokenEvidence

/-!
## Protocol evidence under merging

What one offered observation does to the wallets of a token, what a whole page of them
does, and from these the invariant that every merge and inheritance keeps: a protocol
address that was once observed keeps its entry until a later observation clears it, or the
token is quarantined.
-/

namespace Cl8yDex.TokenEvidence

namespace TokenObservation

variable {token newer previous : TokenObservation} {actor other : String}
  {observation old : ActorObservation}

theorem victim_plain {victim : String} (h : token.victim = some victim) :
    ∃ old, token.actors[victim]? = some old ∧ old.protocol = false := by
  obtain ⟨entry, hentry, rfl⟩ := Option.map_eq_some_iff.mp h
  have hmem := List.argmin_mem hentry
  rw [List.mem_filter, Std.TreeMap.mem_toList_iff_getElem?_eq_some] at hmem
  exact ⟨entry.2, hmem.1, by simpa using hmem.2⟩

theorem victim_mem {victim : String} (h : token.victim = some victim) :
    victim ∈ token.actors := by
  obtain ⟨old, hold, -⟩ := victim_plain h
  rw [Std.TreeMap.mem_iff_isSome_getElem?, hold]
  rfl

section Insertion

theorem insertIfRoom_observedAtMs :
    (token.insertIfRoom actor observation).observedAtMs = token.observedAtMs := by
  unfold insertIfRoom
  split <;> rfl

theorem insertIfRoom_other (hne : other ≠ actor) :
    (token.insertIfRoom actor observation).actors[other]? = token.actors[other]? := by
  unfold insertIfRoom
  split
  · simp [Std.TreeMap.getElem?_insert, Ne.symm hne]
  · rfl

theorem insertIfRoom_bounded (h : token.actors.size ≤ maxActorContexts) :
    (token.insertIfRoom actor observation).actors.size ≤ maxActorContexts := by
  unfold insertIfRoom
  split
  case isTrue hroom =>
    simp only [Std.TreeMap.size_insert]
    split
    · exact h
    · rename_i hnew
      have := hroom.resolve_right hnew
      omega
  case isFalse => exact h

theorem insertIfRoom_self (hroom : token.actors.size < maxActorContexts ∨ actor ∈ token.actors) :
    (token.insertIfRoom actor observation).actors[actor]? = some observation := by
  unfold insertIfRoom
  rw [if_pos hroom]
  exact Std.TreeMap.getElem?_insert_self

end Insertion

/-- What offering one observation of `actor` does: other wallets are left alone or, if they
are no protocol address, evicted, and the wallet itself keeps a newer entry, takes the
offered one, or is refused, which a protocol address never is without quarantine. -/
structure Offered (token : TokenObservation) (actor : String) (observation : ActorObservation)
    (result : TokenObservation) : Prop where
  bounded : result.actors.size ≤ maxActorContexts
  time : result.observedAtMs = token.observedAtMs ∨ result.observedAtMs = 0
  others : ∀ other, other ≠ actor → ∀ old, result.actors[other]? = some old →
    token.actors[other]? = some old
  kept : ∀ other, other ≠ actor → ∀ old, token.actors[other]? = some old →
    old.protocol = true → result.actors[other]? = some old
  self : (∃ old, token.actors[actor]? = some old ∧
      observation.observedAtMs < old.observedAtMs ∧ result.actors[actor]? = some old) ∨
    ((∀ old, token.actors[actor]? = some old → old.observedAtMs ≤ observation.observedAtMs) ∧
      result.actors[actor]? = some observation) ∨
    (token.actors[actor]? = none ∧ result.actors[actor]? = none ∧
      (observation.protocol = true → result.observedAtMs = 0))

/-- An insertion that finds room, after the eviction of a wallet that is no protocol address. -/
theorem Offered.inserted {ledger : TokenObservation}
    (hbounded : ledger.actors.size ≤ maxActorContexts)
    (htime : ledger.observedAtMs = token.observedAtMs)
    (hothers : ∀ (other : String) (old : ActorObservation),
      ledger.actors[other]? = some old → token.actors[other]? = some old)
    (hkept : ∀ (other : String) (old : ActorObservation), token.actors[other]? = some old →
      old.protocol = true → ledger.actors[other]? = some old)
    (hnewest : ∀ old, token.actors[actor]? = some old →
      old.observedAtMs ≤ observation.observedAtMs)
    (hroom : ledger.actors.size < maxActorContexts ∨ actor ∈ ledger.actors) :
    Offered token actor observation (ledger.insertIfRoom actor observation) where
  bounded := insertIfRoom_bounded hbounded
  time := Or.inl (insertIfRoom_observedAtMs.trans htime)
  others other hne old h := by
    rw [insertIfRoom_other hne] at h
    exact hothers other old h
  kept other hne old h hprotocol := by
    rw [insertIfRoom_other hne]
    exact hkept other old h hprotocol
  self := Or.inr (Or.inl ⟨hnewest, insertIfRoom_self hroom⟩)

theorem erase_room {victim : String} (hmem : victim ∈ token.actors)
    (hbounded : token.actors.size ≤ maxActorContexts) :
    (token.actors.erase victim).size < maxActorContexts := by
  rw [Std.TreeMap.size_erase, if_pos (Std.TreeMap.contains_iff_mem.mpr hmem)]
  have hpositive : 0 < maxActorContexts := by decide
  omega

theorem erase_others {victim : String} (h : (token.actors.erase victim)[other]? = some old) :
    token.actors[other]? = some old := by
  rw [Std.TreeMap.getElem?_erase] at h
  split at h
  · cases h
  · exact h

theorem erase_kept {victim : String} (hvictim : token.victim = some victim)
    (h : token.actors[other]? = some old) (hprotocol : old.protocol = true) :
    (token.actors.erase victim)[other]? = some old := by
  obtain ⟨evicted, hevicted, hplain⟩ := victim_plain hvictim
  rw [Std.TreeMap.getElem?_erase, if_neg]
  · exact h
  · intro heq
    obtain rfl := Std.LawfulEqCmp.eq_of_compare heq
    rw [h] at hevicted
    obtain rfl := Option.some.inj hevicted
    rw [hprotocol] at hplain
    cases hplain

/-- A full map with nobody to evict: the wallet is refused, and a protocol address
quarantines the token. -/
theorem Offered.refused {result : TokenObservation}
    (hbounded : token.actors.size ≤ maxActorContexts)
    (hnew : token.actors[actor]? = none) (hactors : result.actors = token.actors)
    (htime : result.observedAtMs = token.observedAtMs ∨ result.observedAtMs = 0)
    (hmark : observation.protocol = true → result.observedAtMs = 0) :
    Offered token actor observation result where
  bounded := hactors ▸ hbounded
  time := htime
  others _ _ _ h := hactors ▸ h
  kept _ _ _ h _ := hactors ▸ h
  self := Or.inr (Or.inr ⟨hnew, hactors ▸ hnew, hmark⟩)

theorem mergeActor_offered (hbounded : token.actors.size ≤ maxActorContexts) :
    Offered token actor observation (token.mergeActor actor observation) := by
  unfold mergeActor
  split
  case isTrue hskip =>
    obtain ⟨old, hold, hlater⟩ := (Option.any_eq_true _ _).mp hskip
    exact ⟨hbounded, Or.inl rfl, fun _ _ _ h => h, fun _ _ _ h _ => h,
      Or.inl ⟨old, hold, by simpa using hlater, hold⟩⟩
  case isFalse hskip =>
    have hnewest : ∀ old, token.actors[actor]? = some old →
        old.observedAtMs ≤ observation.observedAtMs := by
      intro old hold
      by_contra hlater
      apply hskip
      simp only [hold, Option.any_some, decide_eq_true_eq]
      omega
    split
    case isTrue hfull =>
      have hnew : token.actors[actor]? = none := Std.TreeMap.getElem?_eq_none hfull.1
      split
      case h_1 victim hvictim =>
        have hroom := erase_room (victim_mem hvictim) hbounded
        exact Offered.inserted hroom.le rfl (fun other old h => erase_others h)
          (fun other old h hprotocol => erase_kept hvictim h hprotocol) hnewest (Or.inl hroom)
      case h_2 hnone =>
        split
        case isTrue hprotocol =>
          have hstays : insertIfRoom { token with observedAtMs := 0 } actor observation =
              { token with observedAtMs := 0 } :=
            if_neg (not_or.mpr ⟨not_lt.mpr hfull.2, hfull.1⟩)
          rw [hstays]
          exact Offered.refused hbounded hnew rfl (Or.inr rfl) fun _ => rfl
        case isFalse hplain =>
          exact Offered.refused hbounded hnew rfl (Or.inl rfl) fun h => absurd h hplain
    case isFalse hroom =>
      apply Offered.inserted hbounded rfl (fun _ _ h => h) (fun _ _ h _ => h) hnewest
      by_cases hmem : actor ∈ token.actors
      · exact Or.inr hmem
      · exact Or.inl (not_le.mp fun hfull => hroom ⟨hmem, hfull⟩)

end TokenObservation

section Pages

open TokenObservation

variable {token result : TokenObservation} {seen : List (String × ActorObservation)}
  {actor : String} {observation old : ActorObservation}

/-- A later observation of `actor` that is no protocol address is among those seen. -/
def Cleared (seen : List (String × ActorObservation)) (actor : String) (time : ℤ) : Prop :=
  ∃ clear, (actor, clear) ∈ seen ∧ clear.protocol = false ∧ time < clear.observedAtMs

def Held (token : TokenObservation) (actor : String) (time : ℤ) : Prop :=
  ∃ old, token.actors[actor]? = some old ∧ old.protocol = true ∧ time ≤ old.observedAtMs

/-- What a token keeps of the observations merged into it. -/
structure Guarded (token : TokenObservation) (seen : List (String × ActorObservation)) :
    Prop where
  bounded : token.actors.size ≤ maxActorContexts
  recorded : ∀ actor old, token.actors[actor]? = some old → (actor, old) ∈ seen
  guarded : ∀ actor observation, (actor, observation) ∈ seen → observation.protocol = true →
    token.Quarantined ∨ Held token actor observation.observedAtMs ∨
      Cleared seen actor observation.observedAtMs

theorem Cleared.mono {more : List (String × ActorObservation)} {time : ℤ}
    (h : Cleared seen actor time) (hsub : seen ⊆ more) : Cleared more actor time := by
  obtain ⟨clear, hmem, hplain, hlater⟩ := h
  exact ⟨clear, hsub hmem, hplain, hlater⟩

theorem Cleared.earlier {time earlier : ℤ} (h : Cleared seen actor time)
    (hle : earlier ≤ time) : Cleared seen actor earlier := by
  obtain ⟨clear, hmem, hplain, hlater⟩ := h
  exact ⟨clear, hmem, hplain, by omega⟩

theorem TokenObservation.Offered.quarantined (h : Offered token actor observation result)
    (hzero : token.Quarantined) : result.Quarantined := by
  rcases h.time with heq | hmark
  · exact heq.trans hzero
  · exact hmark

/-- The observation just offered is guarded. -/
theorem TokenObservation.Offered.guarded_self (h : Offered token actor observation result)
    (hrecorded : ∀ old, token.actors[actor]? = some old → (actor, old) ∈ seen)
    (hprotocol : observation.protocol = true) :
    result.Quarantined ∨ Held result actor observation.observedAtMs ∨
      Cleared seen actor observation.observedAtMs := by
  rcases h.self with ⟨old, hold, hlater, hresult⟩ | ⟨-, hresult⟩ | ⟨-, -, hmark⟩
  · cases hplain : old.protocol with
    | true => exact Or.inr (Or.inl ⟨old, hresult, hplain, hlater.le⟩)
    | false => exact Or.inr (Or.inr ⟨old, hrecorded old hold, hplain, hlater⟩)
  · exact Or.inr (Or.inl ⟨observation, hresult, hprotocol, le_refl _⟩)
  · exact Or.inl (hmark hprotocol)

/-- A protocol entry survives an offered observation of its own wallet, unless that is
later and clears it. -/
theorem TokenObservation.Offered.guarded_held (h : Offered token actor observation result)
    {time : ℤ}
    (hheld : Held token actor time)
    (htie : ∀ old, token.actors[actor]? = some old → old.protocol = true →
      observation.protocol = false → old.observedAtMs ≠ observation.observedAtMs) :
    Held result actor time ∨ (observation.protocol = false ∧
      time < observation.observedAtMs) := by
  obtain ⟨old, hold, hprotocol, hle⟩ := hheld
  rcases h.self with ⟨same, hsame, -, hresult⟩ | ⟨hnewest, hresult⟩ | ⟨hnone, -⟩
  · rw [hold] at hsame
    obtain rfl := Option.some.inj hsame
    exact Or.inl ⟨old, hresult, hprotocol, hle⟩
  · have hnewer := hnewest old hold
    cases hplain : observation.protocol with
    | true => exact Or.inl ⟨observation, hresult, hplain, by omega⟩
    | false =>
      have hne := htie old hold hprotocol hplain
      exact Or.inr ⟨rfl, by omega⟩
  · rw [hold] at hnone
    cases hnone

theorem TokenObservation.Offered.held_other (h : Offered token actor observation result)
    {other : String} {time : ℤ} (hne : other ≠ actor) (hheld : Held token other time) :
    Held result other time := by
  obtain ⟨old, hold, hprotocol, hle⟩ := hheld
  exact ⟨old, h.kept other hne old hold hprotocol, hprotocol, hle⟩

theorem TokenObservation.Offered.keeps (h : Offered token actor observation result)
    (hguarded : Guarded token seen)
    (htie : ∀ old, token.actors[actor]? = some old → old.protocol = true →
      observation.protocol = false → old.observedAtMs ≠ observation.observedAtMs) :
    Guarded result (seen ++ [(actor, observation)]) where
  bounded := h.bounded
  recorded other old hold := by
    by_cases hother : other = actor
    · subst hother
      rcases h.self with ⟨same, hsame, -, hresult⟩ | ⟨-, hresult⟩ | ⟨-, hnone, -⟩
      · rw [hold] at hresult
        obtain rfl := Option.some.inj hresult
        exact List.mem_append_left _ (hguarded.recorded _ _ hsame)
      · rw [hold] at hresult
        obtain rfl := Option.some.inj hresult
        exact List.mem_append_right _ (List.mem_singleton.mpr rfl)
      · rw [hold] at hnone
        cases hnone
    · exact List.mem_append_left _ (hguarded.recorded _ _ (h.others other hother old hold))
  guarded other seenObservation hmem hprotocol := by
    rcases List.mem_append.mp hmem with hmem | hmem
    · rcases hguarded.guarded other seenObservation hmem hprotocol with hzero | hheld | hcleared
      · exact Or.inl (h.quarantined hzero)
      · by_cases hother : other = actor
        · subst hother
          rcases h.guarded_held hheld htie with hheld | ⟨hplain, hlater⟩
          · exact Or.inr (Or.inl hheld)
          · exact Or.inr (Or.inr ⟨observation, by simp, hplain, hlater⟩)
        · exact Or.inr (Or.inl (h.held_other hother hheld))
      · exact Or.inr (Or.inr (hcleared.mono (List.subset_append_left _ _)))
    · cases List.mem_singleton.mp hmem
      exact h.guarded_self (fun old hold =>
        List.mem_append_left _ (hguarded.recorded actor old hold)) hprotocol

/-- A protocol entry of the first map and a plain observation of the second have the same
wallet and the same time. -/
def tied (held offered : Actors) : Bool :=
  offered.toList.any fun entry => held[entry.1]?.any fun old =>
    old.protocol && !entry.2.protocol && decide (old.observedAtMs = entry.2.observedAtMs)

theorem ne_of_untied {held offered : Actors} (h : tied held offered = false)
    (hmem : (actor, observation) ∈ offered.toList) (hold : held[actor]? = some old)
    (hprotocol : old.protocol = true) (hplain : observation.protocol = false) :
    old.observedAtMs ≠ observation.observedAtMs := by
  intro heq
  rw [tied, List.any_eq_false] at h
  apply h (actor, observation) hmem
  simp [hold, hprotocol, hplain, heq]

theorem foldl_keeps (page : List (String × ActorObservation)) :
    ∀ (token : TokenObservation) (seen : List (String × ActorObservation)),
      Guarded token seen → page.Pairwise (fun entry next => entry.1 ≠ next.1) →
      (∀ entry ∈ page, ∀ old, token.actors[entry.1]? = some old → old.protocol = true →
        entry.2.protocol = false → old.observedAtMs ≠ entry.2.observedAtMs) →
      Guarded (page.foldl (fun token entry => token.mergeActor entry.1 entry.2) token)
        (seen ++ page) := by
  induction page with
  | nil =>
    intro token seen hguarded _ _
    simpa using hguarded
  | cons entry page ih =>
    intro token seen hguarded hkeys htie
    obtain ⟨hfirst, hkeys⟩ := List.pairwise_cons.mp hkeys
    have hoffered : Offered token entry.1 entry.2 (token.mergeActor entry.1 entry.2) :=
      mergeActor_offered hguarded.bounded
    have hnext := hoffered.keeps hguarded (htie entry List.mem_cons_self)
    have hrest := ih _ _ hnext hkeys fun later hlater old hold =>
      htie later (List.mem_cons_of_mem _ hlater) old
        (hoffered.others later.1 (hfirst later hlater).symm old hold)
    simpa using hrest

theorem toList_keys (actors : Actors) :
    actors.toList.Pairwise fun entry next => entry.1 ≠ next.1 :=
  Std.TreeMap.distinct_keys_toList.imp fun h heq => h (by rw [heq]; exact Std.ReflCmp.compare_self)

theorem mergeActorObservations_keeps {page : Actors} (hguarded : Guarded token seen)
    (htie : tied token.actors page = false) :
    Guarded (token.mergeActorObservations page) (seen ++ page.toList) :=
  foldl_keeps page.toList token seen hguarded (toList_keys page) fun _ hmem _ hold =>
    ne_of_untied htie hmem hold

/-- A protocol entry outlives a page that does not name its wallet. -/
theorem foldl_kept_unnamed (page : List (String × ActorObservation)) :
    ∀ token : TokenObservation, token.actors.size ≤ maxActorContexts →
      (∀ entry ∈ page, actor ≠ entry.1) → token.actors[actor]? = some old →
      old.protocol = true →
      (page.foldl (fun token entry => token.mergeActor entry.1 entry.2) token).actors[actor]? =
        some old := by
  induction page with
  | nil =>
    intro token _ _ hold _
    exact hold
  | cons entry page ih =>
    intro token hbounded hunnamed hold hprotocol
    have hoffered : Offered token entry.1 entry.2 (token.mergeActor entry.1 entry.2) :=
      mergeActor_offered hbounded
    apply ih _ hoffered.bounded (fun later hmem => hunnamed later (List.mem_cons_of_mem _ hmem))
    · exact hoffered.kept actor (hunnamed entry List.mem_cons_self) old hold hprotocol
    · exact hprotocol

theorem foldl_kept (page : List (String × ActorObservation)) :
    ∀ token : TokenObservation, token.actors.size ≤ maxActorContexts →
      page.Pairwise (fun entry next => entry.1 ≠ next.1) → token.actors[actor]? = some old →
      old.protocol = true →
      (page.foldl (fun token entry => token.mergeActor entry.1 entry.2) token).actors[actor]? =
          some old ∨
        ∃ new, (actor, new) ∈ page ∧ old.observedAtMs ≤ new.observedAtMs ∧
          (new.protocol = true →
            (page.foldl (fun token entry => token.mergeActor entry.1 entry.2)
              token).actors[actor]? = some new) := by
  induction page with
  | nil =>
    intro token _ _ hold _
    exact Or.inl hold
  | cons entry page ih =>
    intro token hbounded hkeys hold hprotocol
    obtain ⟨hfirst, hkeys⟩ := List.pairwise_cons.mp hkeys
    have hoffered : Offered token entry.1 entry.2 (token.mergeActor entry.1 entry.2) :=
      mergeActor_offered hbounded
    by_cases hnamed : actor = entry.1
    · subst hnamed
      rcases hoffered.self with ⟨same, hsame, -, hresult⟩ | ⟨hnewest, hresult⟩ | ⟨hnone, -⟩
      · rw [hold] at hsame
        obtain rfl := Option.some.inj hsame
        exact Or.inl (foldl_kept_unnamed page _ hoffered.bounded hfirst hresult hprotocol)
      · refine Or.inr ⟨entry.2, List.mem_cons_self, hnewest old hold, fun hnew => ?_⟩
        exact foldl_kept_unnamed page _ hoffered.bounded hfirst hresult hnew
      · rw [hold] at hnone
        cases hnone
    · have hnext := hoffered.kept actor hnamed old hold hprotocol
      rcases ih _ hoffered.bounded hkeys hnext hprotocol with hkept | ⟨new, hmem, hnew⟩
      · exact Or.inl hkept
      · exact Or.inr ⟨new, List.mem_cons_of_mem _ hmem, hnew⟩

/-- A page evicts no protocol address: only a later or equally late observation of the same
wallet takes its place. -/
theorem mergeActorObservations_kept {page : Actors}
    (hbounded : token.actors.size ≤ maxActorContexts) (hold : token.actors[actor]? = some old)
    (hprotocol : old.protocol = true) :
    (token.mergeActorObservations page).actors[actor]? = some old ∨
      ∃ new, page[actor]? = some new ∧ old.observedAtMs ≤ new.observedAtMs ∧
        (new.protocol = true →
          (token.mergeActorObservations page).actors[actor]? = some new) := by
  rcases foldl_kept page.toList token hbounded (toList_keys page) hold hprotocol with
    hkept | ⟨new, hmem, hnew⟩
  · exact Or.inl hkept
  · exact Or.inr ⟨new, Std.TreeMap.mem_toList_iff_getElem?_eq_some.mp hmem, hnew⟩

end Pages

end Cl8yDex.TokenEvidence
