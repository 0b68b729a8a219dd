import Cl8yDex.RouteSearch
import Mathlib.Data.Finset.Dedup
import Mathlib.Data.Finset.Lattice.Basic
import Mathlib.Data.Nat.Cast.Basic

/-!
# The search lists the simple paths in order

The pruned search meets every simple path, because a distance never exceeds the length of a path.
It meets them by number of hops and then by pair addresses, so stopping early keeps the first ones.
-/

namespace Cl8yDex.Routes

section Paths

variable (frozen : String → Bool) (pairRows : List PairRow)

/-- A hop goes through a pair that is not frozen, in either direction. -/
def Trades (hop : PathHop) : Prop :=
  ∃ p ∈ pairRows, frozen p.contractAddress = false ∧ p.contractAddress = hop.pair ∧
    (p.asset0Id = hop.fromAsset ∧ p.asset1Id = hop.toAsset ∨
      p.asset1Id = hop.fromAsset ∧ p.asset0Id = hop.toAsset)

/-- The hops lead from one asset to the other. -/
def Joins : ℤ → List PathHop → ℤ → Prop
  | u, [], w => u = w
  | u, hop :: path, w => hop.fromAsset = u ∧ Trades frozen pairRows hop ∧ Joins hop.toAsset path w

structure SimplePath (start goal : ℤ) (maxHops : ℕ) (path : List PathHop) : Prop where
  joins : Joins frozen pairRows start path goal
  simple : (start :: path.map PathHop.toAsset).Nodup
  hops : path.length ≤ maxHops

/-- Fewer hops first, then the sequence of pair addresses. -/
def PathBefore (left right : List PathHop) : Prop :=
  left.length < right.length ∨
    left.length = right.length ∧ pairAddresses left < pairAddresses right

variable {frozen pairRows} {u v w : ℤ} {path : List PathHop} {pair : String}

theorem Joins.goal_mem (h : Joins frozen pairRows u path w) (hne : path ≠ []) :
    w ∈ path.map PathHop.toAsset := by
  induction path generalizing u with
  | nil => exact absurd rfl hne
  | cons hop path ih =>
      obtain ⟨_, _, hrest⟩ := h
      cases path with
      | nil =>
          have heq : hop.toAsset = w := hrest
          simp [heq]
      | cons hop' path => exact List.mem_cons_of_mem _ (ih hrest (List.cons_ne_nil _ _))

theorem mem_edgesOf {p : PairRow} : (v, pair) ∈ edgesOf p u ↔ p.contractAddress = pair ∧
    (p.asset0Id = u ∧ p.asset1Id = v ∨ p.asset1Id = u ∧ p.asset0Id = v) := by
  unfold edgesOf
  by_cases h0 : p.asset0Id = u
  · by_cases h1 : p.asset1Id = u
    · simp [h0, h1, eq_comm, and_comm]
    · simp [h0, h1, eq_comm, and_comm]
  · by_cases h1 : p.asset1Id = u
    · simp [h0, h1, eq_comm, and_comm]
    · simp [h0, h1]

theorem mem_buildAdjacency :
    (v, pair) ∈ buildAdjacency frozen pairRows u ↔ Trades frozen pairRows ⟨pair, u, v⟩ := by
  unfold buildAdjacency Trades
  simp only [List.mem_insertionSort, List.mem_flatMap, List.mem_filter, mem_edgesOf, and_assoc,
    Bool.not_eq_true']

theorem Trades.symm (h : Trades frozen pairRows ⟨pair, u, v⟩) :
    Trades frozen pairRows ⟨pair, v, u⟩ := by
  obtain ⟨p, hp, hfrozen, hpair, hends⟩ := h
  exact ⟨p, hp, hfrozen, hpair, hends.elim (fun he => .inr ⟨he.2, he.1⟩)
    fun he => .inl ⟨he.2, he.1⟩⟩

end Paths

section Distance

variable {frozen : String → Bool} {pairRows : List PairRow} {u v goal : ℤ} {maxHops : ℕ}
  {path : List PathHop}

/-- A path read backwards is a walk from the goal. -/
theorem Joins.walk (h : Joins frozen pairRows u path goal) :
    BreadthFirst.Walk (fun x => (buildAdjacency frozen pairRows x).map Prod.fst) goal
      path.length u := by
  induction path generalizing u with
  | nil =>
      have heq : u = goal := h
      rw [heq]
      exact .nil
  | cons hop path ih =>
      obtain ⟨hfrom, htrades, hrest⟩ := h
      apply BreadthFirst.Walk.step (ih hrest)
      rw [← hfrom]
      exact List.mem_map.2 ⟨(hop.fromAsset, hop.pair),
        mem_buildAdjacency.2 (Trades.symm htrades), rfl⟩

theorem hopDistance_le (h : Joins frozen pairRows u path goal) (hlen : path.length ≤ maxHops) :
    ∃ d ∈ hopDistanceToGoal goal (buildAdjacency frozen pairRows) maxHops
      (2 * pairRows.length + 2) u, d ≤ path.length := by
  let ends : List ℤ := pairRows.flatMap fun p => [p.asset0Id, p.asset1Id]
  have hcard : ends.toFinset.card + 1 ≤ 2 * pairRows.length + 2 := by
    have hle := List.toFinset_card_le ends
    have hends : ends.length = 2 * pairRows.length := by
      simp [ends, List.length_flatMap, Nat.mul_comm]
    omega
  have hnext : ∀ x, ∀ y ∈ (buildAdjacency frozen pairRows x).map Prod.fst, y ∈ ends.toFinset := by
    intro x y hy
    obtain ⟨⟨z, pair⟩, hz, rfl⟩ := List.mem_map.1 hy
    obtain ⟨p, hp, _, _, hends⟩ := mem_buildAdjacency.1 hz
    rw [List.mem_toFinset, List.mem_flatMap]
    rcases hends with ⟨_, hend⟩ | ⟨_, hend⟩
    · exact ⟨p, hp, by simp [hend]⟩
    · exact ⟨p, hp, by simp [hend]⟩
  exact BreadthFirst.distances_le hnext hcard h.walk hlen

end Distance

section Members

variable {frozen : String → Bool} {pairRows : List PairRow} {goal : ℤ} {dist : ℤ → Option ℕ}
  {maxHops : ℕ}

/-- Pruning loses no path, and what is listed is simple. -/
theorem mem_listed
    (hdist : ∀ v path, Joins frozen pairRows v path goal → path.length ≤ maxHops →
      ∃ d ∈ dist v, d ≤ path.length)
    {left : ℕ} (hleft : left ≤ maxHops) {u : ℤ} {visited : List ℤ} {path : List PathHop} :
    path ∈ listed goal (buildAdjacency frozen pairRows) dist left u visited ↔
      Joins frozen pairRows u path goal ∧ path.length = left ∧
        (path.map PathHop.toAsset).Nodup ∧ ∀ x ∈ path.map PathHop.toAsset, x ∉ visited := by
  induction left generalizing u visited path with
  | zero =>
      unfold listed
      by_cases hu : u = goal
      · rw [if_pos hu, List.mem_singleton]
        constructor
        · rintro rfl
          exact ⟨hu, rfl, List.nodup_nil, by simp⟩
        · exact fun h => List.length_eq_zero_iff.1 h.2.1
      · rw [if_neg hu]
        constructor
        · intro h
          cases h
        · rintro ⟨hjoins, hlen, _⟩
          rw [List.length_eq_zero_iff.1 hlen] at hjoins
          exact absurd hjoins hu
  | succ left ih =>
      unfold listed
      rw [List.mem_flatMap]
      constructor
      · rintro ⟨⟨v, pair⟩, hedge, hmem⟩
        split_ifs at hmem with henters
        · obtain ⟨rest, hrest, rfl⟩ := List.mem_map.1 hmem
          obtain ⟨hjoins, hlen, hnodup, havoid⟩ := (ih (by omega)).1 hrest
          have hnew : v ∉ rest.map PathHop.toAsset := by
            intro hv
            exact havoid v hv (List.mem_append_right _ (List.mem_singleton_self v))
          refine ⟨⟨rfl, mem_buildAdjacency.1 hedge, hjoins⟩, by simp [hlen], ?_, ?_⟩
          · exact List.nodup_cons.2 ⟨hnew, hnodup⟩
          · intro x hx
            rcases List.mem_cons.1 hx with rfl | hx
            · exact henters.2
            · exact fun hxv => havoid x hx (List.mem_append_left _ hxv)
        · cases hmem
      · rintro ⟨hjoins, hlen, hnodup, havoid⟩
        cases path with
        | nil => cases hlen
        | cons hop rest =>
            obtain ⟨hfrom, htrades, hrest⟩ := hjoins
            have hrestlen : rest.length = left := Nat.succ.inj hlen
            rw [List.map_cons, List.nodup_cons] at hnodup
            obtain ⟨d, hd, hle⟩ := hdist hop.toAsset rest hrest (by omega)
            have henters : enters goal dist visited left hop.toAsset := by
              refine ⟨?_, havoid _ List.mem_cons_self⟩
              by_cases hgoal : hop.toAsset = goal
              · rw [if_pos hgoal]
                by_contra hne
                -- a later hop would come back to the goal
                have hpos : rest ≠ [] := by
                  rintro rfl
                  exact hne hrestlen.symm
                exact hnodup.1 (hgoal ▸ hrest.goal_mem hpos)
              · rw [if_neg hgoal]
                exact ⟨d, hd, by omega⟩
            have hmem : rest ∈ listed goal (buildAdjacency frozen pairRows) dist left hop.toAsset
                (visited ++ [hop.toAsset]) := by
              apply (ih (by omega)).2
              refine ⟨hrest, hrestlen, hnodup.2, fun x hx hxv => ?_⟩
              rcases List.mem_append.1 hxv with hxv | hxv
              · exact havoid x (List.mem_cons_of_mem _ hx) hxv
              · rw [List.mem_singleton.1 hxv] at hx
                exact hnodup.1 hx
            have hedge : (hop.toAsset, hop.pair) ∈ buildAdjacency frozen pairRows u := by
              rw [mem_buildAdjacency, ← hfrom]
              exact htrades
            refine ⟨(hop.toAsset, hop.pair), hedge, ?_⟩
            rw [if_pos henters, List.mem_map, ← hfrom]
            exact ⟨rest, hmem, rfl⟩

end Members

section Order

variable {frozen : String → Bool} {pairRows : List PairRow} {goal : ℤ} {dist : ℤ → Option ℕ}

/-- The edges of one pair that lead elsewhere are at most one. -/
theorem edgesOf_pairwise (p : PairRow) (u : ℤ) :
    (edgesOf p u).Pairwise fun a b => a.1 ≠ u → b.1 ≠ u → a.2 ≠ b.2 := by
  unfold edgesOf
  by_cases h0 : p.asset0Id = u
  · by_cases h1 : p.asset1Id = u
    · simp [h0, h1]
    · simp [h0, h1]
  · by_cases h1 : p.asset1Id = u
    · simp [h0, h1]
    · simp [h0, h1]

theorem snd_of_mem_edgesOf {p : PairRow} {u : ℤ} {e : ℤ × String} (he : e ∈ edgesOf p u) :
    e.2 = p.contractAddress := by
  obtain ⟨v, pair⟩ := e
  exact (mem_edgesOf.1 he).1.symm

/-- The edges that leave an asset are in the order of their pairs. -/
theorem buildAdjacency_pairwise (hnodup : (pairRows.map PairRow.contractAddress).Nodup) (u : ℤ) :
    (buildAdjacency frozen pairRows u).Pairwise fun a b => a.1 ≠ u → b.1 ≠ u → a.2 < b.2 := by
  have hrows : (pairRows.filter fun p => !frozen p.contractAddress).Pairwise
      fun p q => p.contractAddress ≠ q.contractAddress :=
    (List.pairwise_map.1 hnodup).filter _
  have hpushed : ((pairRows.filter fun p => !frozen p.contractAddress).flatMap
      fun p => edgesOf p u).Pairwise fun a b => a.1 ≠ u → b.1 ≠ u → a.2 ≠ b.2 := by
    rw [List.pairwise_flatMap]
    refine ⟨fun p _ => edgesOf_pairwise p u, hrows.imp fun hne a ha b hb _ _ => ?_⟩
    rw [snd_of_mem_edgesOf ha, snd_of_mem_edgesOf hb]
    exact hne
  have hdistinct : (buildAdjacency frozen pairRows u).Pairwise
      fun a b => a.1 ≠ u → b.1 ≠ u → a.2 ≠ b.2 := by
    apply (List.Perm.pairwise_iff (fun {a b} hab ha hb => (hab hb ha).symm)
      (List.perm_insertionSort edgeOrder _)).2
    exact hpushed
  have htotal : Std.Total edgeOrder := by
    constructor
    intro a b
    rcases lt_trichotomy a.2 b.2 with hlt | heq | hgt
    · exact .inl (.inl hlt)
    · rcases le_total a.1 b.1 with hle | hle
      · exact .inl (.inr ⟨heq, hle⟩)
      · exact .inr (.inr ⟨heq.symm, hle⟩)
    · exact .inr (.inl hgt)
  have htrans : IsTrans (ℤ × String) edgeOrder := by
    constructor
    rintro a b c (hab | ⟨hab, hle⟩) (hbc | ⟨hbc, hle'⟩)
    · exact .inl (hab.trans hbc)
    · exact .inl (hbc ▸ hab)
    · exact .inl (hab ▸ hbc)
    · exact .inr ⟨hab.trans hbc, hle.trans hle'⟩
  have hsorted : (buildAdjacency frozen pairRows u).Pairwise edgeOrder :=
    List.pairwise_insertionSort edgeOrder _
  apply (hsorted.and hdistinct).imp
  rintro a b ⟨hlt | ⟨heq, _⟩, hne⟩ ha hb
  · exact hlt
  · exact absurd heq (hne ha hb)

theorem listed_pairwise (goal : ℤ) (dist : ℤ → Option ℕ)
    (hnodup : (pairRows.map PairRow.contractAddress).Nodup) (left : ℕ) {u : ℤ}
    {visited : List ℤ} (hu : u ∈ visited) :
    (listed goal (buildAdjacency frozen pairRows) dist left u visited).Pairwise
      fun p q => pairAddresses p < pairAddresses q := by
  induction left generalizing u visited with
  | zero =>
      unfold listed
      split_ifs
      · exact List.pairwise_singleton _ _
      · exact List.Pairwise.nil
  | succ left ih =>
      unfold listed
      rw [List.pairwise_flatMap]
      constructor
      · rintro ⟨v, pair⟩ _
        split_ifs
        · rw [List.pairwise_map]
          have hmem : v ∈ visited ++ [v] := List.mem_append_right _ (List.mem_singleton_self v)
          apply (ih hmem).imp
          intro p q hpq
          exact List.cons_lt_cons_iff.2 (.inr ⟨rfl, hpq⟩)
        · exact List.Pairwise.nil
      · apply (buildAdjacency_pairwise hnodup u).imp
        rintro ⟨v, pair⟩ ⟨v', pair'⟩ hlt p hp q hq
        split_ifs at hp with henters
        · split_ifs at hq with henters'
          · obtain ⟨p, _, rfl⟩ := List.mem_map.1 hp
            obtain ⟨q, _, rfl⟩ := List.mem_map.1 hq
            apply List.cons_lt_cons_iff.2
            left
            exact hlt (fun h => henters.2 (h ▸ hu)) (fun h => henters'.2 (h ▸ hu))
          · cases hq
        · cases hp

variable {start : ℤ} {maxHops : ℕ}

/-- Deepening lists the paths of every depth in order. -/
theorem listed_depths_pairwise (hnodup : (pairRows.map PairRow.contractAddress).Nodup)
    (hlisted : ∀ depth, ∀ p ∈ listed goal (buildAdjacency frozen pairRows) dist depth start [start],
      depth ≤ maxHops → p.length = depth) {first count : ℕ} (hlast : first + count ≤ maxHops + 1) :
    ((List.range' first count).flatMap fun depth =>
      listed goal (buildAdjacency frozen pairRows) dist depth start [start]).Pairwise
        PathBefore := by
  rw [List.pairwise_flatMap]
  constructor
  · intro depth hdepth
    have hle : depth ≤ maxHops := by
      have h := List.mem_range'_1.1 hdepth
      omega
    apply List.Pairwise.imp_of_mem _
      (listed_pairwise goal dist hnodup depth (List.mem_singleton_self start))
    intro p q hp hq hlt
    exact .inr ⟨(hlisted depth p hp hle).trans (hlisted depth q hq hle).symm, hlt⟩
  · have hrange : (List.range' first count).Pairwise (· < ·) := List.pairwise_lt_range'
    apply hrange.imp_of_mem
    intro a b ha hb hab p hp q hq
    have h1 := List.mem_range'_1.1 ha
    have h2 := List.mem_range'_1.1 hb
    have hpa := hlisted a p hp (by omega)
    have hqb := hlisted b q hq (by omega)
    exact .inl (by omega)

end Order

section Exact

variable {frozen : String → Bool} {pairRows : List PairRow} {start goal : ℤ}
  {maxHops maxPaths work : ℕ}

theorem PathBefore.nodup {l : List (List PathHop)} (h : l.Pairwise PathBefore) : l.Nodup := by
  apply h.imp
  rintro p _ (hlt | ⟨_, hlt⟩) rfl
  · exact lt_irrefl _ hlt
  · exact lt_irrefl _ hlt

theorem sort_eq {l : List (List PathHop)} (h : l.Pairwise PathBefore) :
    l.insertionSort pathOrder = l := by
  apply List.Pairwise.insertionSort_eq
  apply h.imp
  rintro p q (hlt | ⟨heq, hlt⟩)
  · exact .inl hlt
  · exact .inr ⟨heq, le_of_lt hlt⟩

/-- Every simple path within the bound, in the order in which the search meets them. -/
def allPaths (frozen : String → Bool) (pairRows : List PairRow) (start goal : ℤ) (maxHops : ℕ) :
    List (List PathHop) :=
  let adj := buildAdjacency frozen pairRows
  let dist := hopDistanceToGoal goal adj maxHops (2 * pairRows.length + 2)
  match dist start with
  | none => []
  | some minDepth =>
      (List.range' minDepth (maxHops + 1 - minDepth)).flatMap fun depth =>
        listed goal adj dist depth start [start]

theorem mem_listed_start {depth : ℕ} (hdepth : depth ≤ maxHops) {path : List PathHop} :
    path ∈ listed goal (buildAdjacency frozen pairRows)
        (hopDistanceToGoal goal (buildAdjacency frozen pairRows) maxHops (2 * pairRows.length + 2))
        depth start [start] ↔
      SimplePath frozen pairRows start goal maxHops path ∧ path.length = depth := by
  rw [mem_listed (fun v path hjoins hlen => hopDistance_le hjoins hlen) hdepth]
  constructor
  · rintro ⟨hjoins, hlen, hnodup, havoid⟩
    refine ⟨⟨hjoins, ?_, by omega⟩, hlen⟩
    apply List.nodup_cons.2
    exact ⟨fun hmem => havoid start hmem (List.mem_singleton_self start), hnodup⟩
  · rintro ⟨⟨hjoins, hsimple, _⟩, hlen⟩
    obtain ⟨hstart, hnodup⟩ := List.nodup_cons.1 hsimple
    refine ⟨hjoins, hlen, hnodup, fun x hx hxs => ?_⟩
    rw [List.mem_singleton.1 hxs] at hx
    exact hstart hx

theorem mem_allPaths {path : List PathHop} :
    path ∈ allPaths frozen pairRows start goal maxHops ↔
      SimplePath frozen pairRows start goal maxHops path := by
  unfold allPaths
  dsimp only
  constructor
  · intro h
    cases hmin : hopDistanceToGoal goal (buildAdjacency frozen pairRows) maxHops
        (2 * pairRows.length + 2) start with
    | none =>
        rw [hmin] at h
        cases h
    | some minDepth =>
        rw [hmin] at h
        obtain ⟨depth, hdepth, hmem⟩ := List.mem_flatMap.1 h
        have hrange := List.mem_range'_1.1 hdepth
        exact ((mem_listed_start (by omega)).1 hmem).1
  · intro h
    obtain ⟨minDepth, hmin, hle⟩ := hopDistance_le h.joins h.hops
    rw [Option.mem_def.1 hmin]
    have hops := h.hops
    apply List.mem_flatMap.2
    refine ⟨path.length, List.mem_range'_1.2 ⟨hle, by omega⟩, ?_⟩
    exact (mem_listed_start hops).2 ⟨h, rfl⟩

theorem allPaths_pairwise (hnodup : (pairRows.map PairRow.contractAddress).Nodup) :
    (allPaths frozen pairRows start goal maxHops).Pairwise PathBefore := by
  unfold allPaths
  dsimp only
  split
  · exact List.Pairwise.nil
  · rename_i minDepth _
    by_cases hle : minDepth ≤ maxHops + 1
    · exact listed_depths_pairwise hnodup
        (fun depth p hp hdepth => ((mem_listed_start hdepth).1 hp).2) (by omega)
    · have hzero : maxHops + 1 - minDepth = 0 := by omega
      rw [hzero]
      exact List.Pairwise.nil

/-- What a budget leaves of the list of all paths. -/
theorem findPathsBounded_collects (frozen : String → Bool)
    (hnodup : (pairRows.map PairRow.contractAddress).Nodup)
    (hne : start ≠ goal) (hhops : 1 ≤ maxHops) (hpaths : 1 ≤ maxPaths) : ∃ cost, ∀ work,
    List.IsPrefix (findPathsBounded frozen start goal pairRows maxHops maxPaths work).found
      ((allPaths frozen pairRows start goal maxHops).take maxPaths) ∧
    (cost < work → (findPathsBounded frozen start goal pairRows maxHops maxPaths work).found =
      (allPaths frozen pairRows start goal maxHops).take maxPaths) ∧
    ((findPathsBounded frozen start goal pairRows maxHops maxPaths work).truncated = false →
      (findPathsBounded frozen start goal pairRows maxHops maxPaths work).found =
        allPaths frozen pairRows start goal maxHops) := by
  have hcaps : ¬(maxPaths = 0 ∨ maxHops = 0) := by omega
  have hsorted : (allPaths frozen pairRows start goal maxHops).Pairwise PathBefore :=
    allPaths_pairwise hnodup
  unfold findPathsBounded
  unfold allPaths at hsorted ⊢
  simp only [if_neg hne, if_neg hcaps]
  cases hmin : hopDistanceToGoal goal (buildAdjacency frozen pairRows) maxHops
      (2 * pairRows.length + 2) start with
  | none => exact ⟨0, fun work => ⟨by simp, fun _ => by simp, fun _ => rfl⟩⟩
  | some minDepth =>
      dsimp only at hsorted ⊢
      rw [hmin] at hsorted
      by_cases hlt : maxHops < minDepth
      · have hzero : maxHops + 1 - minDepth = 0 := by omega
        simp only [if_pos hlt, hzero]
        exact ⟨0, fun work => ⟨by simp, fun _ => by simp, fun _ => rfl⟩⟩
      simp only [if_neg hlt]
      refine ⟨((List.range' minDepth (maxHops + 1 - minDepth)).map fun depth =>
        visits goal (buildAdjacency frozen pairRows) (hopDistanceToGoal goal
          (buildAdjacency frozen pairRows) maxHops (2 * pairRows.length + 2)) depth start
            [start]).sum, fun work => ?_⟩
      have hempty : (⟨[], 0, work⟩ : Search).found.length ≤ maxPaths := Nat.zero_le _
      have hcollects := deepen_collects goal (buildAdjacency frozen pairRows)
        (hopDistanceToGoal goal (buildAdjacency frozen pairRows) maxHops (2 * pairRows.length + 2))
        start (List.range' minDepth (maxHops + 1 - minDepth)) hempty
      generalize deepen goal maxPaths (buildAdjacency frozen pairRows)
        (hopDistanceToGoal goal (buildAdjacency frozen pairRows) maxHops (2 * pairRows.length + 2))
        start (List.range' minDepth (maxHops + 1 - minDepth)) ⟨[], 0, work⟩ = st at hcollects ⊢
      have hbelow := hcollects.below
      have hfull := hcollects.full
      have hwork := hcollects.work
      rw [List.nil_append] at hbelow hfull
      have hfound : st.found.Pairwise PathBefore :=
        (hsorted.sublist (List.take_sublist _ _)).sublist hbelow.sublist
      rw [sort_eq hfound, List.take_of_length_le hcollects.length_le]
      refine ⟨hbelow, fun hcost => hfull (by dsimp only at hwork; omega), fun htrunc => ?_⟩
      rw [Bool.or_eq_false_iff, decide_eq_false_iff_not, decide_eq_false_iff_not] at htrunc
      have hall := hfull (Nat.pos_of_ne_zero htrunc.1)
      rw [hall, List.length_take] at htrunc
      rw [hall]
      apply List.take_of_length_le
      omega

/-- With enough work the search answers with the first simple paths in the order of hops and pair
addresses. With any work its answers are simple paths and distinct, and when it does not report a
truncation they are all there are. -/
theorem path_search_exact (hnodup : (pairRows.map PairRow.contractAddress).Nodup)
    (hne : start ≠ goal) (hhops : 1 ≤ maxHops) (hpaths : 1 ≤ maxPaths) :
    ∃ all : List (List PathHop), all.Pairwise PathBefore ∧
      (∀ p, p ∈ all ↔ SimplePath frozen pairRows start goal maxHops p) ∧
      (∃ enough, ∀ work, enough ≤ work →
        (findPathsBounded frozen start goal pairRows maxHops maxPaths work).found =
          all.take maxPaths) ∧
      ∀ work,
        (∀ p ∈ (findPathsBounded frozen start goal pairRows maxHops maxPaths work).found,
          SimplePath frozen pairRows start goal maxHops p) ∧
        (findPathsBounded frozen start goal pairRows maxHops maxPaths work).found.Nodup ∧
        ((findPathsBounded frozen start goal pairRows maxHops maxPaths work).truncated = false →
          ∀ p, SimplePath frozen pairRows start goal maxHops p →
            p ∈ (findPathsBounded frozen start goal pairRows maxHops maxPaths work).found) := by
  obtain ⟨cost, hcollects⟩ := findPathsBounded_collects frozen hnodup hne hhops hpaths
  have hsorted : (allPaths frozen pairRows start goal maxHops).Pairwise PathBefore :=
    allPaths_pairwise hnodup
  refine ⟨allPaths frozen pairRows start goal maxHops, hsorted, fun p => mem_allPaths,
    ⟨cost + 1, fun work hwork => (hcollects work).2.1 hwork⟩, fun work => ?_⟩
  obtain ⟨hbelow, _, htrunc⟩ := hcollects work
  refine ⟨fun p hp => ?_, ?_, fun h p hp => ?_⟩
  · exact mem_allPaths.1 (List.mem_of_mem_take (hbelow.subset hp))
  · exact PathBefore.nodup ((hsorted.sublist (List.take_sublist _ _)).sublist hbelow.sublist)
  · rw [htrunc h]
    exact mem_allPaths.2 hp

/-- Two pairs join the same assets, and a third asset is one hop away from either. -/
theorem path_search_exact_sample : ∃ all : List (List PathHop), all.Pairwise PathBefore ∧
    ∃ enough, ∀ work, enough ≤ work → (findPathsBounded (fun _ => false) 0 2
      [⟨"pair1", 0, 2⟩, ⟨"pair2", 2, 0⟩, ⟨"pair3", 0, 1⟩, ⟨"pair4", 1, 2⟩] 3 5 work).found =
        all.take 5 := by
  obtain ⟨all, hsorted, _, henough, _⟩ := @path_search_exact (fun _ => false)
    [⟨"pair1", 0, 2⟩, ⟨"pair2", 2, 0⟩, ⟨"pair3", 0, 1⟩, ⟨"pair4", 1, 2⟩] 0 2 3 5 (by decide)
    (by decide) (by decide) (by decide)
  exact ⟨all, hsorted, henough⟩

end Exact

end Cl8yDex.Routes
