import Cl8yDex.BreadthFirst
import Mathlib.Data.List.Sort
import Mathlib.Data.String.Basic
import Mathlib.Algebra.BigOperators.Group.List.Basic
import Mathlib.Algebra.Ring.Nat

/-!
# Path enumeration for multihop routes

Simple paths between two assets are looked for one depth after the other. A depth-first search
descends only where the distance to the goal still allows it, every edge it looks at is paid for,
and it stops when enough paths have been found.
-/

namespace Cl8yDex.Routes

structure PairRow where
  contractAddress : String
  asset0Id : ℤ
  asset1Id : ℤ

structure PathHop where
  pair : String
  fromAsset : ℤ
  toAsset : ℤ
  deriving DecidableEq

/-- The edges of an asset: the asset they lead to, and their pair. -/
abbrev Adjacency := ℤ → List (ℤ × String)

def edgesOf (p : PairRow) (asset : ℤ) : List (ℤ × String) :=
  (if p.asset0Id = asset then [(p.asset1Id, p.contractAddress)] else []) ++
    if p.asset1Id = asset then [(p.asset0Id, p.contractAddress)] else []

def edgeOrder (left right : ℤ × String) : Prop :=
  left.2 < right.2 ∨ left.2 = right.2 ∧ left.1 ≤ right.1

instance : DecidableRel edgeOrder := fun left right =>
  inferInstanceAs (Decidable (left.2 < right.2 ∨ left.2 = right.2 ∧ left.1 ≤ right.1))

def buildAdjacency (frozen : String → Bool) (pairRows : List PairRow) : Adjacency := fun asset =>
  ((pairRows.filter fun p => !frozen p.contractAddress).flatMap fun p =>
    edgesOf p asset).insertionSort edgeOrder

/-- Each asset enters the queue once, so the steps are never used up. -/
def hopDistanceToGoal (goal : ℤ) (adj : Adjacency) (maxHops steps : ℕ) : ℤ → Option ℕ :=
  BreadthFirst.distances (fun u => (adj u).map Prod.fst) maxHops steps goal

/-- What the depth-first search writes to. -/
structure Search where
  found : List (List PathHop)
  expansions : ℕ
  workLeft : ℕ

section Enumerate

variable (goal : ℤ) (maxPaths : ℕ) (adj : Adjacency) (dist : ℤ → Option ℕ)

/-- A neighbour is entered when the goal is the last edge, or can still be reached from it, and it
is not on the path. -/
def enters (visited : List ℤ) (remaining : ℕ) (v : ℤ) : Prop :=
  (if v = goal then remaining = 0 else ∃ dv ∈ dist v, dv ≤ remaining) ∧ v ∉ visited

instance (visited : List ℤ) (remaining : ℕ) (v : ℤ) :
    Decidable (enters goal dist visited remaining v) :=
  inferInstanceAs (Decidable ((if v = goal then remaining = 0
    else ∃ dv ∈ dist v, dv ≤ remaining) ∧ v ∉ visited))

def scanEdges (visited : List ℤ) (remaining : ℕ) (descend : ℤ → String → Search → Search) :
    List (ℤ × String) → Search → Search
  | [], st => st
  | (v, pair) :: edges, st =>
      if st.workLeft = 0 then st
      else
        let st := { st with workLeft := st.workLeft - 1 }
        if enters goal dist visited remaining v then
          let st := descend v pair st
          if maxPaths ≤ st.found.length then st
          else scanEdges visited remaining descend edges st
        else scanEdges visited remaining descend edges st

/-- The paths of exactly `left` more edges. -/
def dfsExact : ℕ → ℤ → List PathHop → List ℤ → Search → Search
  | left, u, path, visited, st =>
      if st.workLeft = 0 then st
      else
        let st := { st with expansions := st.expansions + 1 }
        if maxPaths ≤ st.found.length then st
        else
          match left with
          | 0 => if u = goal then { st with found := st.found ++ [path] } else st
          | remaining + 1 =>
              scanEdges goal maxPaths dist visited remaining
                (fun v pair => dfsExact remaining v (path ++ [⟨pair, u, v⟩]) (visited ++ [v]))
                (adj u) st

/-- One pass for each depth. -/
def deepen (start : ℤ) : List ℕ → Search → Search
  | [], st => st
  | depth :: depths, st =>
      if maxPaths ≤ st.found.length ∨ st.workLeft = 0 then st
      else deepen start depths (dfsExact goal maxPaths adj dist depth start [] [start] st)

end Enumerate

def pairAddresses (path : List PathHop) : List String := path.map PathHop.pair

def pathOrder (left right : List PathHop) : Prop :=
  left.length < right.length ∨
    left.length = right.length ∧ pairAddresses left ≤ pairAddresses right

instance : DecidableRel pathOrder := fun left right =>
  inferInstanceAs (Decidable (left.length < right.length ∨
    left.length = right.length ∧ pairAddresses left ≤ pairAddresses right))

structure PathSearch where
  found : List (List PathHop)
  expansions : ℕ
  truncated : Bool

def findPathsBounded (frozen : String → Bool) (start goal : ℤ) (pairRows : List PairRow)
    (maxHops maxPaths maxWork : ℕ) : PathSearch :=
  if start = goal then ⟨[[]], 0, false⟩
  else if maxPaths = 0 ∨ maxHops = 0 then ⟨[], 0, false⟩
  else
    let adj := buildAdjacency frozen pairRows
    let dist := hopDistanceToGoal goal adj maxHops (2 * pairRows.length + 2)
    match dist start with
    | none => ⟨[], 0, false⟩
    | some minDepth =>
        if maxHops < minDepth then ⟨[], 0, false⟩
        else
          let st := deepen goal maxPaths adj dist start
            (List.range' minDepth (maxHops + 1 - minDepth)) ⟨[], 0, maxWork⟩
          let found := st.found.insertionSort pathOrder
          { found := found.take maxPaths
            expansions := st.expansions
            truncated := decide (st.workLeft = 0) || decide (maxPaths ≤ found.length) }

end Cl8yDex.Routes

/-!
## What a search with a budget collects

The search lists paths in a fixed order. Whatever its budget, it has collected a prefix of this
list, and all of it up to the cap when some of the budget is left.
-/

namespace Cl8yDex.Routes

section Collects

/-- A part of the search: it lists `paths`, up to the cap, for at most `cost` units of work. -/
structure Collects (maxPaths : ℕ) (paths : List (List PathHop)) (cost : ℕ) (st st' : Search) :
    Prop where
  below : List.IsPrefix st'.found ((st.found ++ paths).take maxPaths)
  full : 0 < st'.workLeft → st'.found = (st.found ++ paths).take maxPaths
  stuck : st.workLeft = 0 → st'.found = st.found
  workLe : st'.workLeft ≤ st.workLeft
  work : st.workLeft ≤ st'.workLeft + cost

variable {maxPaths c d : ℕ} {paths later : List (List PathHop)} {st st' st'' : Search}

theorem Collects.length_le (h : Collects maxPaths paths c st st') : st'.found.length ≤ maxPaths :=
  h.below.length_le.trans (List.length_take_le _ _)

theorem take_append_take (l m : List (List PathHop)) (n : ℕ) :
    (l.take n ++ m).take n = (l ++ m).take n := by
  rw [List.take_append, List.take_append, List.take_take, min_self, List.length_take]
  congr 2
  omega

theorem Collects.trans (h : Collects maxPaths paths c st st')
    (h' : Collects maxPaths later d st' st'') :
    Collects maxPaths (paths ++ later) (c + d) st st'' := by
  have hall : 0 < st'.workLeft →
      (st'.found ++ later).take maxPaths = (st.found ++ (paths ++ later)).take maxPaths := by
    intro hpos
    rw [h.full hpos, take_append_take, List.append_assoc]
  constructor
  · rcases Nat.eq_zero_or_pos st'.workLeft with hzero | hpos
    · rw [h'.stuck hzero]
      apply h.below.trans
      rw [← List.append_assoc]
      exact List.IsPrefix.take (List.prefix_append _ _) _
    · rw [← hall hpos]
      exact h'.below
  · intro hpos
    have hpos' : 0 < st'.workLeft := lt_of_lt_of_le hpos h'.workLe
    rw [h'.full hpos, hall hpos']
  · intro hzero
    have hzero' : st'.workLeft = 0 := Nat.le_zero.1 (hzero ▸ h.workLe)
    rw [h'.stuck hzero', h.stuck hzero]
  · exact h'.workLe.trans h.workLe
  · have h1 := h.work
    have h2 := h'.work
    omega

/-- Where the search has stopped, nothing more is collected. -/
theorem Collects.stop (hlen : st.found.length ≤ maxPaths)
    (h : st.workLeft = 0 ∨ maxPaths ≤ st.found.length) : Collects maxPaths paths c st st := by
  constructor
  · rw [List.prefix_take_iff]
    exact ⟨List.prefix_append _ _, hlen⟩
  · intro hpos
    have hle : maxPaths ≤ st.found.length := by omega
    have heq : maxPaths = st.found.length := le_antisymm hle hlen
    rw [heq, List.take_left]
  · exact fun _ => rfl
  · exact le_rfl
  · exact Nat.le_add_right _ _

theorem Collects.spend (hlen : st.found.length ≤ maxPaths) :
    Collects maxPaths [] 1 st { st with workLeft := st.workLeft - 1 } := by
  constructor
  · rw [List.append_nil, List.take_of_length_le hlen]
  · intro _
    rw [List.append_nil, List.take_of_length_le hlen]
  · exact fun _ => rfl
  · exact Nat.sub_le _ _
  · dsimp only
    omega

/-- Expansions are only counted. -/
theorem Collects.of_expansions {n : ℕ}
    (h : Collects maxPaths paths c { st with expansions := n } st') :
    Collects maxPaths paths c st st' := ⟨h.below, h.full, h.stuck, h.workLe, h.work⟩

end Collects

section Listed

variable (goal : ℤ) (adj : Adjacency) (dist : ℤ → Option ℕ)

/-- The paths of exactly this many edges, in the order of the search. -/
def listed : ℕ → ℤ → List ℤ → List (List PathHop)
  | 0, u, _ => if u = goal then [[]] else []
  | remaining + 1, u, visited =>
      (adj u).flatMap fun e =>
        if enters goal dist visited remaining e.1 then
          (listed remaining e.1 (visited ++ [e.1])).map fun path => ⟨e.2, u, e.1⟩ :: path
        else []

/-- The edges that are looked at for them. -/
def visits : ℕ → ℤ → List ℤ → ℕ
  | 0, _, _ => 0
  | remaining + 1, u, visited =>
      ((adj u).map fun e =>
        1 + if enters goal dist visited remaining e.1 then
          visits remaining e.1 (visited ++ [e.1]) else 0).sum

variable {maxPaths : ℕ}

theorem scanEdges_collects (visited : List ℤ) (remaining : ℕ)
    {descend : ℤ → String → Search → Search} {paths : ℤ → String → List (List PathHop)}
    {cost : ℤ → String → ℕ}
    (hdescend : ∀ v pair st, st.found.length ≤ maxPaths →
      Collects maxPaths (paths v pair) (cost v pair) st (descend v pair st))
    (edges : List (ℤ × String)) {st : Search} (hlen : st.found.length ≤ maxPaths) :
    Collects maxPaths
      (edges.flatMap fun e =>
        if enters goal dist visited remaining e.1 then paths e.1 e.2 else [])
      ((edges.map fun e =>
        1 + if enters goal dist visited remaining e.1 then cost e.1 e.2 else 0).sum)
      st (scanEdges goal maxPaths dist visited remaining descend edges st) := by
  induction edges generalizing st with
  | nil =>
      unfold scanEdges
      constructor
      · simp [List.take_of_length_le hlen]
      · simp [List.take_of_length_le hlen]
      · exact fun _ => rfl
      · exact le_rfl
      · exact Nat.le_add_right _ _
  | cons e edges ih =>
      obtain ⟨v, pair⟩ := e
      rw [List.flatMap_cons, List.map_cons, List.sum_cons]
      unfold scanEdges
      by_cases hwork : st.workLeft = 0
      · rw [if_pos hwork]
        exact .stop hlen (.inl hwork)
      rw [if_neg hwork]
      dsimp only
      have hspend : Collects maxPaths [] 1 st _ := .spend hlen
      generalize { st with workLeft := st.workLeft - 1 } = paid at hspend
      by_cases henters : enters goal dist visited remaining v
      · have hdown := hspend.trans (hdescend v pair paid hspend.length_le)
        rw [if_pos henters, if_pos henters, if_pos henters]
        rw [List.nil_append] at hdown
        by_cases hcap : maxPaths ≤ (descend v pair paid).found.length
        · rw [if_pos hcap]
          exact hdown.trans (.stop hdown.length_le (.inr hcap))
        · rw [if_neg hcap]
          exact hdown.trans (ih hdown.length_le)
      · rw [if_neg henters, if_neg henters, if_neg henters, List.nil_append, Nat.add_zero]
        exact hspend.trans (ih hspend.length_le)

theorem dfsExact_collects (left : ℕ) (u : ℤ) (path : List PathHop) (visited : List ℤ) {st : Search}
    (hlen : st.found.length ≤ maxPaths) :
    Collects maxPaths ((listed goal adj dist left u visited).map fun rest => path ++ rest)
      (visits goal adj dist left u visited) st
      (dfsExact goal maxPaths adj dist left u path visited st) := by
  induction left generalizing u path visited st with
  | zero =>
      unfold dfsExact
      by_cases hwork : st.workLeft = 0
      · rw [if_pos hwork]
        exact .stop hlen (.inl hwork)
      rw [if_neg hwork]
      dsimp only
      apply Collects.of_expansions (n := st.expansions + 1)
      by_cases hcap : maxPaths ≤ st.found.length
      · rw [if_pos hcap]
        exact .stop hlen (.inr hcap)
      rw [if_neg hcap]
      have hfits : (st.found ++ [path]).length ≤ maxPaths := by
        rw [List.length_append, List.length_singleton]
        omega
      by_cases hgoal : u = goal
      · constructor
        · simp [listed, hgoal, List.take_of_length_le hfits]
        · simp [listed, hgoal, List.take_of_length_le hfits]
        · exact fun h => absurd h hwork
        · simp [hgoal]
        · simp [hgoal, visits]
      · constructor
        · simp [listed, hgoal, List.take_of_length_le hlen]
        · simp [listed, hgoal, List.take_of_length_le hlen]
        · exact fun h => absurd h hwork
        · simp [hgoal]
        · simp [hgoal, visits]
  | succ remaining ih =>
      unfold dfsExact
      by_cases hwork : st.workLeft = 0
      · rw [if_pos hwork]
        exact .stop hlen (.inl hwork)
      rw [if_neg hwork]
      dsimp only
      apply Collects.of_expansions (n := st.expansions + 1)
      by_cases hcap : maxPaths ≤ st.found.length
      · rw [if_pos hcap]
        exact .stop hlen (.inr hcap)
      rw [if_neg hcap]
      have hcounted : ({ st with expansions := st.expansions + 1 } : Search).found.length ≤
        maxPaths := hlen
      have hscan := scanEdges_collects goal dist visited remaining
        (fun v pair st' (hst' : st'.found.length ≤ maxPaths) =>
          ih v (path ++ [⟨pair, u, v⟩]) (visited ++ [v]) hst') (adj u) hcounted
      have hpaths :
          (listed goal adj dist (remaining + 1) u visited).map (fun rest => path ++ rest) =
          (adj u).flatMap fun e => if enters goal dist visited remaining e.1 then
            (listed goal adj dist remaining e.1 (visited ++ [e.1])).map
              (fun rest => path ++ [⟨e.2, u, e.1⟩] ++ rest) else [] := by
        rw [listed, List.map_flatMap]
        apply List.flatMap_congr
        intro e _
        split_ifs
        · rw [List.map_map]
          apply List.map_congr_left
          intro rest _
          simp
        · rfl
      rw [hpaths]
      exact hscan

theorem deepen_collects (start : ℤ) (depths : List ℕ) {st : Search}
    (hlen : st.found.length ≤ maxPaths) :
    Collects maxPaths (depths.flatMap fun depth => listed goal adj dist depth start [start])
      ((depths.map fun depth => visits goal adj dist depth start [start]).sum) st
      (deepen goal maxPaths adj dist start depths st) := by
  induction depths generalizing st with
  | nil =>
      constructor
      · simp [deepen, List.take_of_length_le hlen]
      · simp [deepen, List.take_of_length_le hlen]
      · exact fun _ => rfl
      · exact le_rfl
      · exact Nat.le_add_right _ _
  | cons depth depths ih =>
      unfold deepen
      by_cases hstop : maxPaths ≤ st.found.length ∨ st.workLeft = 0
      · rw [if_pos hstop]
        exact .stop hlen hstop.symm
      · rw [if_neg hstop, List.flatMap_cons, List.map_cons, List.sum_cons]
        have hpass := dfsExact_collects goal adj dist depth start [] [start] hlen
        have hid : (listed goal adj dist depth start [start]).map (fun rest => [] ++ rest) =
            listed goal adj dist depth start [start] := by simp
        rw [hid] at hpass
        exact hpass.trans (ih hpass.length_le)

end Listed

end Cl8yDex.Routes
