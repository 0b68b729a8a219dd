import Cl8yDex.PairRegistry
import Mathlib.Data.List.Nodup

/-!
# Runs of the factory

Transactions in any order: creations that go through or revert as a whole, other messages, and
migrations. Over a run the stores stay in step and no pair is moved or removed.
-/

namespace Cl8yDex.Factory

open Outcome

variable {s s' : Storage} {host : Host} {sender : String}

section Messages

theorem passed_kept (x : Except ContractError Response) :
    Meets (passed s x) (fun r => Kept s r.1) (fun _ => True) := by
  cases x with
  | error e => trivial
  | ok response => exact Kept.refl s

theorem setting_kept {x : Except ContractError Storage}
    (h : Meets x (Kept s) (fun _ => True)) :
    Meets (setting x) (fun r => Kept s r.1) (fun _ => True) := by
  cases x with
  | error e => trivial
  | ok s' => exact h

theorem persistFactoryDiscountRegistry_kept (registry : Option String) :
    Meets (persistFactoryDiscountRegistry s host registry) (Kept s) (fun _ => True) := by
  apply (meets_true _).bind
  intro validated _
  exact ⟨rfl, rfl, rfl, rfl, rfl⟩

theorem executeUpdateConfig_kept (params : UpdateConfigParams) :
    Meets (executeUpdateConfig s host sender params) (Kept s) (fun _ => True) := by
  unfold executeUpdateConfig
  apply (meets_true _).bind
  intro _ _
  apply (meets_true _).bind
  intro governance _
  apply (meets_true _).bind
  intro treasury _
  apply (meets_true _).bind
  intro _ _
  apply (meets_true _).bind
  intro _ _
  apply (meets_true _).bind
  intro _ _
  apply (meets_true _).bind
  intro registry _
  exact ⟨rfl, rfl, rfl, rfl, rfl⟩

/-- A setting that governance makes without any other check. -/
theorem governed_kept {x : Except ContractError Unit} {s' : Storage} (h : Kept s s') :
    Meets (x >>= fun _ => pure s') (Kept s) (fun _ => True) := by
  apply (meets_true _).bind
  intro _ _
  exact h

/-- A setting of an address that is validated and checked once. -/
theorem listed_kept {x : Except ContractError Unit} {validated : Except ContractError String}
    {checked : String → Except ContractError Unit} {stored : String → Storage}
    (h : ∀ addr, Kept s (stored addr)) :
    Meets (x >>= fun _ => validated >>= fun addr => checked addr >>= fun _ => pure (stored addr))
      (Kept s) (fun _ => True) := by
  apply (meets_true _).bind
  intro _ _
  apply (meets_true _).bind
  intro addr _
  exact governed_kept (h addr)

theorem executeBlacklistPair_kept (pair : String) :
    Meets (executeBlacklistPair s host sender pair) (Kept s) (fun _ => True) := by
  apply (meets_true _).bind
  intro _ _
  apply (meets_true _).bind
  intro pairAddr _
  apply (meets_true _).bind
  intro _ _
  exact governed_kept ⟨rfl, rfl, rfl, rfl, rfl⟩

theorem executeSetDiscountRegistryAll_kept (registry : Option String) :
    Meets (executeSetDiscountRegistryAll s host sender registry) (fun r => Kept s r.1)
      (fun _ => True) := by
  apply (meets_true _).bind
  intro _ _
  apply (persistFactoryDiscountRegistry_kept registry).bind
  intro s' hkept
  apply (meets_true _).bind
  intro response _
  exact hkept

theorem executeSetDiscountRegistryBatch_kept (registry : Option String)
    (startAfter limit : Option ℕ) :
    Meets (executeSetDiscountRegistryBatch s host sender registry startAfter limit)
      (fun r => Kept s r.1) (fun _ => True) := by
  apply (meets_true _).bind
  intro _ _
  apply (persistFactoryDiscountRegistry_kept registry).bind
  intro s' hkept
  exact hkept

/-- No message but `CreatePair` touches the registry. -/
theorem execute_kept (msg : ExecuteMsg) :
    Meets (execute s host sender msg) (fun r => Kept s r.1) (fun _ => True) := by
  cases msg with
  | addWhitelistedCodeId | removeWhitelistedCodeId | setPairCreationFee =>
    exact setting_kept (governed_kept ⟨rfl, rfl, rfl, rfl, rfl⟩)
  | updateConfig params => exact setting_kept (executeUpdateConfig_kept params)
  | blacklistWallet | unblacklistWallet | blacklistToken | unblacklistToken |
      unblacklistPair =>
    exact setting_kept (listed_kept fun _ => ⟨rfl, rfl, rfl, rfl, rfl⟩)
  | blacklistPair pair => exact setting_kept (executeBlacklistPair_kept pair)
  | setDiscountRegistryAll registry => exact executeSetDiscountRegistryAll_kept registry
  | setDiscountRegistryBatch registry startAfter limit =>
    exact executeSetDiscountRegistryBatch_kept registry startAfter limit
  | _ => exact passed_kept _

end Messages

section Migration

/-- Writing the key and the address of a registered pair again changes no answer. -/
theorem Registered.rewritten (h : Registered s) {idx : ℕ} {info : PairInfo}
    (hinfo : s.pairIndex[idx]? = some info) :
    Registered { s with
      pairKeyIndex := s.pairKeyIndex.insert (pairKey info.assetInfos) idx
      pairAddrRegistered := s.pairAddrRegistered.insert info.contractAddr true } := by
  constructor
  · exact h.bounded
  · exact h.index
  · exact h.pairs
  · intro key other
    have hheld := (h.keyIndex _ _).mpr ⟨info, hinfo, rfl⟩
    have hlookup : (s.pairKeyIndex.insert (pairKey info.assetInfos) idx)[key]? =
        s.pairKeyIndex[key]? := by
      rw [Std.TreeMap.getElem?_insert]
      by_cases hkey : compare (pairKey info.assetInfos) key = .eq
      · rw [if_pos hkey, ← Std.LawfulEqCmp.eq_of_compare hkey, hheld]
      · rw [if_neg hkey]
    rw [hlookup]
    exact h.keyIndex key other
  · intro addr
    rw [Std.TreeMap.mem_insert, h.addresses]
    constructor
    · rintro (haddr | hheld)
      · exact ⟨idx, info, hinfo, Std.LawfulEqCmp.eq_of_compare haddr⟩
      · exact hheld
    · exact Or.inr

/-- A migration moves no pair. -/
theorem migrate_index (older : Bool) :
    Meets (migrate s older)
      (fun s' => s'.pairCount = s.pairCount ∧ s'.pairIndex = s.pairIndex) (fun _ => True) := by
  apply (meets_true _).bind
  intro _ _
  refine Meets.foldlM ?_ ⟨rfl, rfl⟩
  intro current idx hcurrent
  apply (meets_true _).bind
  intro info _
  exact hcurrent

theorem migrate_grows (hs : Registered s) (older : Bool) :
    Meets (migrate s older) (Grows s) (fun _ => True) := by
  apply (meets_true _).bind
  intro _ _
  refine Meets.foldlM (I := Grows s) ?_ (Grows.refl hs)
  intro current idx hcurrent
  apply (meets_orThrow fun _ => trivial).bind
  intro info hinfo
  exact ⟨hcurrent.registered.rewritten hinfo, hcurrent.stays⟩

end Migration

section Runs

/-- A transaction that ends in the factory; a message of the response may fail. -/
inductive Event
  | createPair (host : Host) (sender : String) (height : ℕ) (funds : List (String × ℕ))
    (assetInfos : AssetInfo × AssetInfo) (created : Option Created) (delivered : Bool)
  | execute (host : Host) (sender : String) (msg : ExecuteMsg) (delivered : Bool)
  | migrate (older : Bool)

/-- What a transaction leaves: all of its writes or none. -/
def commit {α : Type} (s : Storage) (delivered : Bool) (x : Except ContractError (Storage × α)) :
    Storage :=
  match x with
  | .ok (s', _) => if delivered then s' else s
  | .error _ => s

def Event.run (s : Storage) : Event → Storage
  | .createPair host sender height funds assetInfos created delivered =>
    commit s delivered (Factory.createPair s host sender height funds assetInfos created)
  | .execute host sender msg delivered =>
    commit s delivered (Factory.execute s host sender msg)
  | .migrate older =>
    match Factory.migrate s older with
    | .ok s' => s'
    | .error _ => s

theorem commit_grows {α : Type} (hs : Registered s) {x : Except ContractError (Storage × α)}
    (h : Meets x (fun r => Grows s r.1) (fun _ => True)) (delivered : Bool) :
    Grows s (commit s delivered x) := by
  cases x with
  | error e => exact Grows.refl hs
  | ok r =>
    cases delivered with
    | true => exact h
    | false => exact Grows.refl hs

theorem Event.run_grows (hs : Registered s) (event : Event) : Grows s (event.run s) := by
  cases event with
  | createPair host sender height funds assetInfos created delivered =>
    exact commit_grows hs (createPair_grows hs height funds assetInfos created) delivered
  | execute host sender msg delivered =>
    exact commit_grows hs ((execute_kept msg).weaken fun r hkept => hkept.grows hs) delivered
  | migrate older =>
    have h := migrate_grows hs older
    cases hresult : Factory.migrate s older with
    | error e =>
      simp only [Event.run, hresult]
      exact Grows.refl hs
    | ok s' =>
      simp only [Event.run, hresult]
      exact h.success hresult

/-- Over a run the stores stay in step and no pair is moved or removed. -/
theorem run_grows (hs : Registered s) (events : List Event) :
    Grows s (events.foldl Event.run s) := by
  induction events generalizing s with
  | nil => exact Grows.refl hs
  | cons event events ih =>
    have hstep := Event.run_grows hs event
    exact hstep.trans (ih hstep.registered)

end Runs

end Cl8yDex.Factory

/-!
## Listing the pairs page by page

A page continues after the last pair returned. The pages are consecutive parts of the pairs in
the order of their creation, whatever is created in between.
-/

namespace Cl8yDex.Factory

open Outcome

variable {s s' : Storage} {host : Host} {sender : String}

/-- The registered pairs in the order of their creation. -/
def listing (s : Storage) : List PairInfo :=
  (List.range s.pairCount).filterMap fun idx => s.pairIndex[idx]?

theorem filterMap_range {α : Type} (f : ℕ → Option α) (n : ℕ) (h : ∀ i < n, (f i).isSome) :
    ((List.range n).filterMap f).length = n ∧
      ∀ i < n, ((List.range n).filterMap f)[i]? = f i := by
  induction n with
  | zero => simp
  | succ n ih =>
    obtain ⟨hlength, hget⟩ := ih fun i hi => h i (by omega)
    obtain ⟨last, hlast⟩ := Option.isSome_iff_exists.mp (h n (Nat.lt_succ_self n))
    rw [List.range_succ, List.filterMap_append, List.filterMap_cons_some hlast]
    constructor
    · simp [hlength]
    · intro i hi
      by_cases hin : i < n
      · rw [List.getElem?_append_left (by rw [hlength]; exact hin)]
        exact hget i hin
      · have heq : i = n := by omega
        subst heq
        rw [List.getElem?_append_right (by rw [hlength]), hlength, hlast]
        simp

namespace Registered

theorem isSome_of_lt (h : Registered s) (idx : ℕ) (hlt : idx < s.pairCount) :
    (s.pairIndex[idx]?).isSome := by
  obtain ⟨info, hinfo⟩ := h.exists_of_lt hlt
  rw [hinfo]
  rfl

theorem length_listing (h : Registered s) : (listing s).length = s.pairCount :=
  (filterMap_range _ s.pairCount h.isSome_of_lt).1

theorem getElem?_listing (h : Registered s) (idx : ℕ) :
    (listing s)[idx]? = s.pairIndex[idx]? := by
  by_cases hlt : idx < s.pairCount
  · exact (filterMap_range _ s.pairCount h.isSome_of_lt).2 idx hlt
  · rw [List.getElem?_eq_none (by rw [h.length_listing]; omega)]
    cases hinfo : s.pairIndex[idx]? with
    | none => rfl
    | some info => exact absurd (h.lt_count hinfo) hlt

/-- No two listed pairs have the same unordered assets. -/
theorem listing_distinct (h : Registered s) :
    (listing s).Pairwise fun info other => ¬ SameAssets info.assetInfos other.assetInfos := by
  rw [List.pairwise_iff_getElem]
  intro i j hi hj hlt hassets
  have hinfo := h.getElem?_listing i
  have hother := h.getElem?_listing j
  rw [List.getElem?_eq_getElem hi] at hinfo
  rw [List.getElem?_eq_getElem hj] at hother
  exact absurd (h.position_unique hinfo.symm hother.symm hassets) (Nat.ne_of_lt hlt)

end Registered

/-- A run extends the listing. -/
theorem Grows.listing_prefix (hs : Registered s) (h : Grows s s') : listing s <+: listing s' := by
  rw [List.prefix_iff_getElem?]
  intro i hi
  rw [h.registered.getElem?_listing]
  apply h.stays
  rw [← hs.getElem?_listing]
  exact List.getElem?_eq_getElem hi

section Creations

theorem listing_eq (hcount : s'.pairCount = s.pairCount) (hindex : s'.pairIndex = s.pairIndex) :
    listing s' = listing s := by
  unfold listing
  rw [hcount, hindex]

/-- A registered pair is listed last. -/
theorem listing_saved (assetInfos : AssetInfo × AssetInfo) (info : PairInfo) :
    listing (saved s assetInfos info) = listing s ++ [info] := by
  have hold : ∀ idx ∈ List.range s.pairCount,
      (s.pairIndex.insert s.pairCount info)[idx]? = s.pairIndex[idx]? := by
    intro idx hidx
    have hne : s.pairCount ≠ idx := (Nat.ne_of_lt (List.mem_range.mp hidx)).symm
    rw [Std.TreeMap.getElem?_insert, if_neg fun heq => hne (Std.LawfulEqCmp.eq_of_compare heq)]
  have hlast : (s.pairIndex.insert s.pairCount info)[s.pairCount]? = some info :=
    Std.TreeMap.getElem?_insert_self
  unfold listing saved
  rw [List.range_succ, List.filterMap_append, List.filterMap_congr hold,
    List.filterMap_cons_some hlast, List.filterMap_nil]

/-- The pair that a transaction creates, as its factory and the chain name it. -/
def Event.created (s : Storage) : Event → List PairInfo
  | .createPair host sender height funds assetInfos (some pair) true =>
    match Factory.createPair s host sender height funds assetInfos (some pair) with
    | .ok _ => [⟨assetInfos, pair.contractAddr, pair.lpToken⟩]
    | .error _ => []
  | _ => []

/-- The pairs that a run creates, in order. -/
def createdBy (s : Storage) : List Event → List PairInfo
  | [] => []
  | event :: events => event.created s ++ createdBy (event.run s) events

theorem listing_commit {α : Type} {x : Except ContractError (Storage × α)} {delivered : Bool}
    (h : Meets x (fun r => Kept s r.1) (fun _ => True)) :
    listing (commit s delivered x) = listing s := by
  cases x with
  | error e => rfl
  | ok r =>
    cases delivered with
    | true =>
      have hkept : Kept s r.1 := h
      exact listing_eq hkept.count hkept.index
    | false => rfl

/-- A transaction lists the pair that it creates, and otherwise leaves the listing alone. -/
theorem listing_event (event : Event) :
    listing (event.run s) = listing s ++ event.created s := by
  cases event with
  | createPair host sender height funds assetInfos created delivered =>
    have hspec := @createPair_spec s host sender height funds assetInfos created
    cases hresult : Factory.createPair s host sender height funds assetInfos created with
    | error e =>
      cases created <;> cases delivered <;> simp [Event.run, Event.created, commit, hresult]
    | ok r =>
      obtain ⟨pending, pair, hcreated, hkept, -, -, hsaved⟩ := hspec.success hresult
      subst hcreated
      cases delivered with
      | false => simp [Event.run, Event.created, commit, hresult]
      | true =>
        have hpending : listing pending = listing s := listing_eq hkept.count hkept.index
        simp only [Event.run, Event.created, commit, hresult, if_true]
        rw [hsaved, listing_saved, hpending]
  | execute host sender msg delivered =>
    have hlisting : listing (Event.run s (.execute host sender msg delivered)) = listing s :=
      listing_commit (execute_kept msg)
    rw [hlisting]
    exact (List.append_nil _).symm
  | migrate older =>
    have hlisting : listing (Event.run s (.migrate older)) = listing s := by
      cases hresult : Factory.migrate s older with
      | error e => simp only [Event.run, hresult]
      | ok s' =>
        obtain ⟨hcount, hindex⟩ := (migrate_index older).success hresult
        simp only [Event.run, hresult]
        exact listing_eq hcount hindex
    rw [hlisting]
    exact (List.append_nil _).symm

/-- A run lists the pairs that it creates, one after another. -/
theorem listing_run (events : List Event) :
    listing (events.foldl Event.run s) = listing s ++ createdBy s events := by
  induction events generalizing s with
  | nil => exact (List.append_nil _).symm
  | cons event events ih => rw [List.foldl_cons, ih, listing_event, List.append_assoc]; rfl

end Creations

section Pages

/-- The index is enumerated at its positions in order. -/
theorem keys_toList (h : Registered s) :
    s.pairIndex.toList.map Prod.fst = List.range s.pairCount := by
  have hsorted : (s.pairIndex.toList.map Prod.fst).Pairwise (· < ·) := by
    rw [List.pairwise_map]
    exact Std.TreeMap.ordered_keys_toList.imp fun hlt => Std.compare_eq_lt.mp hlt
  have hmem : ∀ idx, idx ∈ s.pairIndex.toList.map Prod.fst ↔ idx ∈ List.range s.pairCount := by
    intro idx
    rw [List.mem_range, ← h.index, Std.TreeMap.mem_iff_isSome_getElem?,
      Option.isSome_iff_exists]
    simp only [List.mem_map, Prod.exists, exists_and_right, exists_eq_right,
      Std.TreeMap.mem_toList_iff_getElem?_eq_some]
  have hperm : (s.pairIndex.toList.map Prod.fst).Perm (List.range s.pairCount) :=
    (List.perm_ext_iff_of_nodup (hsorted.imp fun hlt => Nat.ne_of_lt hlt)
      List.nodup_range).mpr hmem
  exact hperm.eq_of_pairwise (fun a b _ _ hab hba => absurd hab (Nat.lt_asymm hba)) hsorted
    List.pairwise_lt_range

theorem values_toList (h : Registered s) : s.pairIndex.toList.map Prod.snd = listing s := by
  have hvalues : ∀ entry ∈ s.pairIndex.toList, s.pairIndex[entry.1]? = some entry.2 :=
    fun entry hmem => Std.TreeMap.mem_toList_iff_getElem?_eq_some.mp hmem
  unfold listing
  rw [← keys_toList h, List.filterMap_map, ← List.filterMap_eq_map]
  apply List.filterMap_congr
  intro entry hmem
  exact (hvalues entry hmem).symm

/-- Entries above a bound are those after its position. -/
theorem indexRange_eq (h : Registered s) (bound : Option ℕ) :
    indexRange s bound = s.pairIndex.toList.drop (bound.elim 0 (· + 1)) := by
  cases bound with
  | none =>
    unfold indexRange
    rw [Option.elim_none, List.drop_zero, List.filter_eq_self]
    intro entry _
    simp
  | some bound =>
    have hkeys := keys_toList h
    unfold indexRange
    rw [Option.elim_some]
    conv_lhs => rw [← List.take_append_drop (bound + 1) s.pairIndex.toList]
    rw [List.filter_append]
    have hbefore : (s.pairIndex.toList.take (bound + 1)).filter
        (fun entry => ∀ idx ∈ some bound, idx < entry.1) = [] := by
      rw [List.filter_eq_nil_iff]
      intro entry hmem
      have hkey : entry.1 ∈ (List.range s.pairCount).take (bound + 1) := by
        rw [← hkeys, ← List.map_take]
        exact List.mem_map_of_mem hmem
      rw [List.take_range, List.mem_range] at hkey
      simp
      omega
    have hafter : (s.pairIndex.toList.drop (bound + 1)).filter
        (fun entry => ∀ idx ∈ some bound, idx < entry.1) =
          s.pairIndex.toList.drop (bound + 1) := by
      rw [List.filter_eq_self]
      intro entry hmem
      have hkey : entry.1 ∈ (List.range s.pairCount).drop (bound + 1) := by
        rw [← hkeys, ← List.map_drop]
        exact List.mem_map_of_mem hmem
      rw [List.range_eq_range', List.drop_range', List.mem_range'_1] at hkey
      simp
      omega
    rw [hbefore, hafter, List.nil_append]

theorem queryPairs_eq (h : Registered s) {startAfter : Option (AssetInfo × AssetInfo)}
    {bound : Option ℕ} (hbound : startIndex s startAfter = .ok bound) (limit : Option ℕ) :
    queryPairs s startAfter limit =
      .ok (((listing s).drop (bound.elim 0 (· + 1))).take (calcLimit limit)) := by
  unfold queryPairs
  rw [hbound, ok_bind, indexRange_eq h, ← values_toList h, List.map_take, List.map_drop]
  rfl

/-- A reader of the pages: the state at the last page, and all pairs returned so far. -/
structure Pages where
  storage : Storage
  returned : List PairInfo

/-- One more page, after further transactions. -/
def Pages.next (pages : Pages) (events : List Event) (limit : Option ℕ) :
    Except ContractError Pages := do
  let s := events.foldl Event.run pages.storage
  let page ← queryPairs s (pages.returned.getLast?.map PairInfo.assetInfos) limit
  return ⟨s, pages.returned ++ page⟩

/-- The pages so far are the first pairs of the listing. -/
structure Pages.Sound (pages : Pages) : Prop where
  registered : Registered pages.storage
  returned : pages.returned <+: listing pages.storage

/-- The next page continues the listing where the last one ended. -/
theorem Pages.Sound.next {pages : Pages} (h : pages.Sound) (events : List Event)
    (limit : Option ℕ) :
    ∃ after, pages.next events limit = .ok after ∧ after.Sound ∧
      after.storage = events.foldl Event.run pages.storage ∧
      after.returned = (listing after.storage).take
        (pages.returned.length + calcLimit limit) := by
  have hgrows := run_grows h.registered events
  let s := events.foldl Event.run pages.storage
  have hreturned : pages.returned <+: listing s :=
    h.returned.trans (hgrows.listing_prefix h.registered)
  have hpage : queryPairs s (pages.returned.getLast?.map PairInfo.assetInfos) limit =
      .ok (((listing s).drop pages.returned.length).take (calcLimit limit)) := by
    cases hlast : pages.returned.getLast? with
    | none =>
      have hnil : pages.returned = [] := List.getLast?_eq_none_iff.mp hlast
      have hstart : startIndex s none = .ok none := rfl
      rw [hnil]
      exact queryPairs_eq hgrows.registered hstart limit
    | some info =>
      have hlength : 0 < pages.returned.length := by
        cases hcases : pages.returned with
        | nil => rw [hcases] at hlast; cases hlast
        | cons first rest => exact Nat.succ_pos _
      have hinfo : s.pairIndex[pages.returned.length - 1]? = some info := by
        have hget := List.prefix_iff_getElem?.mp hreturned (pages.returned.length - 1) (by omega)
        rw [← hgrows.registered.getElem?_listing, hget, ← List.getElem?_eq_getElem,
          ← List.getLast?_eq_getElem?, hlast]
      have hbound : startIndex s (some info.assetInfos) =
          .ok (some (pages.returned.length - 1)) := by
        have hkey := (hgrows.registered.keyIndex (pairKey info.assetInfos) _).mpr
          ⟨info, hinfo, rfl⟩
        unfold startIndex
        dsimp only
        rw [hkey]
        rfl
      have hquery := queryPairs_eq hgrows.registered hbound limit
      rw [Option.elim_some, Nat.sub_add_cancel hlength] at hquery
      exact hquery
  have htake : pages.returned ++ ((listing s).drop pages.returned.length).take (calcLimit limit) =
      (listing s).take (pages.returned.length + calcLimit limit) := by
    rw [List.take_add, ← List.prefix_iff_eq_take.mp hreturned]
  refine ⟨⟨s, pages.returned ++ ((listing s).drop pages.returned.length).take
    (calcLimit limit)⟩, ?_, ?_, rfl, htake⟩
  · change (queryPairs s (pages.returned.getLast?.map PairInfo.assetInfos) limit >>= fun page =>
      pure (⟨s, pages.returned ++ page⟩ : Pages)) = _
    rw [hpage]
    rfl
  · constructor
    · exact hgrows.registered
    · dsimp only
      rw [htake]
      exact List.take_prefix _ _

/-- Pages one after the other, each after further transactions. -/
def readPages (pages : Pages) (calls : List (List Event × Option ℕ)) :
    Except ContractError Pages :=
  calls.foldlM (fun pages call => pages.next call.1 call.2) pages

theorem readPages_sound {pages : Pages} (h : pages.Sound)
    (calls : List (List Event × Option ℕ)) :
    ∃ after, readPages pages calls = .ok after ∧ after.Sound := by
  induction calls generalizing pages with
  | nil => exact ⟨pages, rfl, h⟩
  | cons call calls ih =>
    obtain ⟨next, hnext, hsound, -⟩ := h.next call.1 call.2
    obtain ⟨after, hafter, hlast⟩ := ih hsound
    refine ⟨after, ?_, hlast⟩
    unfold readPages
    rw [List.foldlM_cons, hnext]
    exact hafter

end Pages

end Cl8yDex.Factory
