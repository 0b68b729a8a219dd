import Cl8yDex.FactoryMessages

/-!
# The pair registry

The five stores in step: positions are consecutive from zero, and keys and addresses are those
of the pairs at the positions. A pair whose key is new keeps them so.
-/

namespace Cl8yDex.Factory

open Outcome

variable {s s' : Storage} {host : Host} {sender : String}

/-- One unordered pair of assets. -/
def SameAssets (assets other : AssetInfo × AssetInfo) : Prop :=
  other = assets ∨ other = assets.swap

theorem pairKey_swap (assets : AssetInfo × AssetInfo) : pairKey assets.swap = pairKey assets := by
  obtain ⟨first, second⟩ := assets
  unfold pairKey
  dsimp only [Prod.swap]
  by_cases h : first.canonicalKey ≤ second.canonicalKey
  · by_cases h' : second.canonicalKey ≤ first.canonicalKey
    · rw [le_antisymm h h']
    · rw [if_neg h', if_pos h]
  · rw [if_neg h, if_pos (le_of_not_ge h)]

theorem SameAssets.pairKey_eq {assets other : AssetInfo × AssetInfo} (h : SameAssets assets other) :
    pairKey other = pairKey assets := by
  rcases h with rfl | rfl
  · rfl
  · exact pairKey_swap assets

structure Registered (s : Storage) : Prop where
  bounded : s.pairCount ≤ u64Max
  index : ∀ idx, idx ∈ s.pairIndex ↔ idx < s.pairCount
  pairs : ∀ key info, s.pairs[key]? = some info ↔
    ∃ idx : ℕ, s.pairIndex[idx]? = some info ∧ pairKey info.assetInfos = key
  keyIndex : ∀ (key : String) (idx : ℕ), s.pairKeyIndex[key]? = some idx ↔
    ∃ info : PairInfo, s.pairIndex[idx]? = some info ∧ pairKey info.assetInfos = key
  addresses : ∀ addr, addr ∈ s.pairAddrRegistered ↔
    ∃ (idx : ℕ) (info : PairInfo), s.pairIndex[idx]? = some info ∧ info.contractAddr = addr

namespace Registered

theorem lt_count (h : Registered s) {idx : ℕ} {info : PairInfo}
    (hinfo : s.pairIndex[idx]? = some info) : idx < s.pairCount := by
  rw [← h.index, Std.TreeMap.mem_iff_isSome_getElem?, hinfo]
  rfl

theorem exists_of_lt (h : Registered s) {idx : ℕ} (hlt : idx < s.pairCount) :
    ∃ info, s.pairIndex[idx]? = some info :=
  Option.isSome_iff_exists.mp (Std.TreeMap.mem_iff_isSome_getElem?.mp ((h.index idx).mpr hlt))

theorem getElem?_count (h : Registered s) : s.pairIndex[s.pairCount]? = none := by
  cases hinfo : s.pairIndex[s.pairCount]? with
  | none => rfl
  | some info => exact absurd (h.lt_count hinfo) (lt_irrefl _)

/-- No unordered pair of assets is at two positions. -/
theorem position_unique (h : Registered s) {idx idx' : ℕ} {info info' : PairInfo}
    (hinfo : s.pairIndex[idx]? = some info) (hinfo' : s.pairIndex[idx']? = some info')
    (hassets : SameAssets info.assetInfos info'.assetInfos) : idx = idx' := by
  have hkey := (h.keyIndex (pairKey info.assetInfos) idx).mpr ⟨info, hinfo, rfl⟩
  have hkey' := (h.keyIndex (pairKey info.assetInfos) idx').mpr
    ⟨info', hinfo', hassets.pairKey_eq⟩
  rw [hkey] at hkey'
  exact Option.some.inj hkey'

end Registered

theorem instantiate_empty (msg : InstantiateMsg) :
    Meets (instantiate host msg) (fun s => s.pairCount = 0) (fun _ => True) := by
  apply (meets_true _).bind
  intro governance _
  apply (meets_true _).bind
  intro treasury _
  apply (meets_true _).bind
  intro _ _
  rfl

theorem instantiate_registered (msg : InstantiateMsg) :
    Meets (instantiate host msg) Registered (fun _ => True) := by
  apply (meets_true _).bind
  intro governance _
  apply (meets_true _).bind
  intro treasury _
  apply (meets_true _).bind
  intro _ _
  constructor
  · exact Nat.zero_le _
  · intro idx
    simp [Std.TreeMap.not_mem_emptyc]
  · intro key info
    simp
  · intro key idx
    simp
  · intro addr
    simp [Std.TreeMap.not_mem_emptyc]

/-- The stores of the registry are untouched. -/
structure Kept (s s' : Storage) : Prop where
  pairs : s'.pairs = s.pairs
  count : s'.pairCount = s.pairCount
  index : s'.pairIndex = s.pairIndex
  keyIndex : s'.pairKeyIndex = s.pairKeyIndex
  addresses : s'.pairAddrRegistered = s.pairAddrRegistered

theorem Kept.refl (s : Storage) : Kept s s := ⟨rfl, rfl, rfl, rfl, rfl⟩

theorem Kept.registered (h : Kept s s') (hs : Registered s) : Registered s' := by
  constructor
  · rw [h.count]
    exact hs.bounded
  · intro idx
    rw [h.index, h.count]
    exact hs.index idx
  · intro key info
    rw [h.pairs, h.index]
    exact hs.pairs key info
  · intro key idx
    rw [h.keyIndex, h.index]
    exact hs.keyIndex key idx
  · intro addr
    rw [h.addresses, h.index]
    exact hs.addresses addr

section Create

/-- A key that is new takes its value and changes no other. -/
theorem getElem?_insert_new {κ ν : Type} [Ord κ] [Std.TransOrd κ] [Std.LawfulEqOrd κ]
    {m : Std.TreeMap κ ν} {key : κ} (hnew : m[key]? = none) (value : ν) (other : κ)
    (held : ν) :
    (m.insert key value)[other]? = some held ↔
      (other = key ∧ held = value) ∨ m[other]? = some held := by
  rw [Std.TreeMap.getElem?_insert]
  by_cases h : compare key other = .eq
  · have heq : key = other := Std.LawfulEqCmp.eq_of_compare h
    subst heq
    rw [if_pos h, hnew, Option.some.injEq]
    simp [eq_comm]
  · rw [if_neg h]
    constructor
    · exact Or.inr
    · rintro (⟨rfl, -⟩ | hheld)
      · exact absurd Std.ReflCmp.compare_self h
      · exact hheld

variable {assetInfos : AssetInfo × AssetInfo} {info : PairInfo}

theorem Registered.saved_index (h : Registered s) (idx : ℕ) (held : PairInfo) :
    (saved s assetInfos info).pairIndex[idx]? = some held ↔
      (idx = s.pairCount ∧ held = info) ∨ s.pairIndex[idx]? = some held :=
  getElem?_insert_new h.getElem?_count info idx held

/-- A pair whose key is new takes the next position. -/
theorem Registered.saved (h : Registered s) (hassets : info.assetInfos = assetInfos)
    (hnew : pairKey assetInfos ∉ s.pairs) (hbound : s.pairCount + 1 ≤ u64Max) :
    Registered (saved s assetInfos info) := by
  have hpairs : s.pairs[pairKey assetInfos]? = none := Std.TreeMap.getElem?_eq_none hnew
  have hkeys : s.pairKeyIndex[pairKey assetInfos]? = none := by
    cases hidx : s.pairKeyIndex[pairKey assetInfos]? with
    | none => rfl
    | some idx =>
      obtain ⟨held, hheld, hkey⟩ := (h.keyIndex _ _).mp hidx
      have hsome := (h.pairs _ _).mpr ⟨idx, hheld, hkey⟩
      rw [hpairs] at hsome
      cases hsome
  constructor
  · exact hbound
  · intro idx
    have hmem : idx ∈ (Factory.saved s assetInfos info).pairIndex ↔
        s.pairCount = idx ∨ idx ∈ s.pairIndex := by
      simp [Factory.saved, Std.TreeMap.mem_insert]
    have hcount : (Factory.saved s assetInfos info).pairCount = s.pairCount + 1 := rfl
    rw [hmem, h.index, hcount]
    omega
  · intro key held
    have hinsert := getElem?_insert_new hpairs info key held
    simp only [h.saved_index]
    refine hinsert.trans ?_
    rw [h.pairs]
    constructor
    · rintro (⟨rfl, rfl⟩ | ⟨idx, hheld, hkey⟩)
      · exact ⟨s.pairCount, Or.inl ⟨rfl, rfl⟩, by rw [hassets]⟩
      · exact ⟨idx, Or.inr hheld, hkey⟩
    · rintro ⟨idx, ⟨-, rfl⟩ | hheld, hkey⟩
      · exact Or.inl ⟨by rw [← hkey, hassets], rfl⟩
      · exact Or.inr ⟨idx, hheld, hkey⟩
  · intro key idx
    have hinsert := getElem?_insert_new hkeys s.pairCount key idx
    simp only [h.saved_index]
    refine hinsert.trans ?_
    rw [h.keyIndex]
    constructor
    · rintro (⟨rfl, rfl⟩ | ⟨held, hheld, hkey⟩)
      · exact ⟨info, Or.inl ⟨rfl, rfl⟩, by rw [hassets]⟩
      · exact ⟨held, Or.inr hheld, hkey⟩
    · rintro ⟨held, ⟨rfl, rfl⟩ | hheld, hkey⟩
      · exact Or.inl ⟨by rw [← hkey, hassets], rfl⟩
      · exact Or.inr ⟨held, hheld, hkey⟩
  · intro addr
    have hmem : addr ∈ (Factory.saved s assetInfos info).pairAddrRegistered ↔
        info.contractAddr = addr ∨ addr ∈ s.pairAddrRegistered := by
      simp [Factory.saved, Std.TreeMap.mem_insert]
    simp only [h.saved_index]
    rw [hmem, h.addresses]
    constructor
    · rintro (haddr | ⟨idx, held, hheld, haddr⟩)
      · exact ⟨s.pairCount, info, Or.inl ⟨rfl, rfl⟩, haddr⟩
      · exact ⟨idx, held, Or.inr hheld, haddr⟩
    · rintro ⟨idx, held, ⟨-, rfl⟩ | hheld, haddr⟩
      · exact Or.inl haddr
      · exact Or.inr ⟨idx, held, hheld, haddr⟩

theorem executeCreatePair_spec (height : ℕ) (funds : List (String × ℕ)) :
    Meets (executeCreatePair s host sender height funds assetInfos)
      (fun r => pairKey assetInfos ∉ s.pairs ∧ Kept s r.1 ∧ r.1.pendingPair = some assetInfos ∧
        r.2.instantiateMsg.assetInfos = assetInfos)
      (fun _ => True) := by
  unfold executeCreatePair
  apply (meets_true _).bind
  intro addrA _
  apply (meets_true _).bind
  intro addrB _
  apply (meets_true _).bind
  intro tokenA _
  apply (meets_true _).bind
  intro tokenB _
  apply (meets_true _).bind
  intro _ _
  apply (meets_ensure fun _ => trivial).bind
  intro _ hnew
  apply (meets_true _).bind
  intro _ _
  apply (meets_true _).bind
  intro _ _
  apply (meets_true _).bind
  intro decimalsA _
  apply (meets_true _).bind
  intro decimalsB _
  apply (meets_true _).bind
  intro _ _
  apply (meets_true _).bind
  intro messages _
  apply (meets_true _).bind
  intro _ _
  exact ⟨hnew, ⟨rfl, rfl, rfl, rfl, rfl⟩, rfl, rfl⟩

theorem replyInstantiatePair_spec (contractAddr : String) (queried : PairInfo) :
    Meets (replyInstantiatePair s host contractAddr queried)
      (fun r => s.pairCount + 1 ≤ u64Max ∧
        ∃ assetInfos, s.pendingPair = some assetInfos ∧ r.1 = saved s assetInfos queried)
      (fun _ => True) := by
  unfold replyInstantiatePair
  apply (meets_true _).bind
  intro pairAddr _
  apply (meets_orThrow fun _ => trivial).bind
  intro assetInfos hpending
  apply (meets_true _).bind
  intro _ _
  apply (meets_ensure fun _ => trivial).bind
  intro _ hbound
  apply (meets_true _).bind
  intro messages _
  exact ⟨hbound, assetInfos, hpending, rfl⟩

end Create

/-- The stores are in step and every pair is where it was. -/
structure Grows (s s' : Storage) : Prop where
  registered : Registered s'
  stays : ∀ (idx : ℕ) (info : PairInfo), s.pairIndex[idx]? = some info →
    s'.pairIndex[idx]? = some info

theorem Grows.refl (h : Registered s) : Grows s s := ⟨h, fun _ _ hinfo => hinfo⟩

theorem Grows.trans {s'' : Storage} (h : Grows s s') (h' : Grows s' s'') : Grows s s'' :=
  ⟨h'.registered, fun idx info hinfo => h'.stays idx info (h.stays idx info hinfo)⟩

theorem Kept.grows (h : Kept s s') (hs : Registered s) : Grows s s' := by
  constructor
  · exact h.registered hs
  · intro idx info hinfo
    rw [h.index]
    exact hinfo

/-- A creation that goes through registers the pair that the chain created, under the assets that
were asked for. -/
theorem createPair_spec (height : ℕ) (funds : List (String × ℕ))
    (assetInfos : AssetInfo × AssetInfo) (created : Option Created) :
    Meets (createPair s host sender height funds assetInfos created)
      (fun r => ∃ (pending : Storage) (pair : Created), created = some pair ∧ Kept s pending ∧
        pairKey assetInfos ∉ s.pairs ∧ s.pairCount + 1 ≤ u64Max ∧
        r.1 = saved pending assetInfos ⟨assetInfos, pair.contractAddr, pair.lpToken⟩)
      (fun _ => True) := by
  apply (executeCreatePair_spec height funds).bind
  rintro ⟨pending, response⟩ ⟨hnew, hkept, hpending, hassets⟩
  apply (meets_orThrow fun _ => trivial).bind
  intro pair hcreated
  apply (replyInstantiatePair_spec _ _).bind
  rintro ⟨s', messages⟩ ⟨hbound, assets, hassets', hsaved⟩
  rw [hpending] at hassets'
  cases hassets'
  have hinfo : queryPairInfo response.instantiateMsg pair =
      ⟨assetInfos, pair.contractAddr, pair.lpToken⟩ := by
    unfold queryPairInfo
    rw [hassets]
  have hcount : pending.pairCount + 1 ≤ u64Max := hbound
  rw [hkept.count] at hcount
  rw [hinfo] at hsaved
  exact ⟨pending, pair, hcreated, hkept, hnew, hcount, hsaved⟩

theorem createPair_grows (hs : Registered s) (height : ℕ) (funds : List (String × ℕ))
    (assetInfos : AssetInfo × AssetInfo) (created : Option Created) :
    Meets (createPair s host sender height funds assetInfos created) (fun r => Grows s r.1)
      (fun _ => True) := by
  refine (createPair_spec height funds assetInfos created).weaken ?_
  rintro ⟨s', messages⟩ ⟨pending, pair, -, hkept, hnew, hbound, hsaved⟩
  have hregistered := hkept.registered hs
  have hnew' : pairKey assetInfos ∉ pending.pairs := by
    rw [hkept.pairs]
    exact hnew
  have hbound' : pending.pairCount + 1 ≤ u64Max := by
    rw [hkept.count]
    exact hbound
  change Grows s s'
  dsimp only at hsaved
  rw [hsaved]
  constructor
  · exact hregistered.saved rfl hnew' hbound'
  · intro idx info hinfo
    rw [hregistered.saved_index]
    right
    rw [hkept.index]
    exact hinfo

end Cl8yDex.Factory
