import Mathlib.Data.Finset.Card
import Mathlib.Logic.Function.Basic
import Mathlib.Tactic.Common

/-!
# Bounded breadth-first search

The distances that a queue finds from one vertex, up to a bound. They never exceed the length of a
walk, which is what makes them admissible for pruning.
-/

namespace BreadthFirst

section Search

variable {V : Type*} [DecidableEq V]

/-- The vertices without a distance get `d` and join the queue. -/
def relax (d : ℕ) : List V → List V → (V → Option ℕ) → List V × (V → Option ℕ)
  | [], queue, dist => (queue, dist)
  | v :: vs, queue, dist =>
      if dist v = none then relax d vs (queue ++ [v]) (Function.update dist v (some d))
      else relax d vs queue dist

variable (next : V → List V) (bound : ℕ)

/-- The queue is worked off from its front; every vertex in it has a distance. -/
def search : ℕ → List V → (V → Option ℕ) → V → Option ℕ
  | 0, _, dist => dist
  | _ + 1, [], dist => dist
  | steps + 1, u :: queue, dist =>
      match dist u with
      | none => dist
      | some du =>
          if bound ≤ du then search steps queue dist
          else
            let r := relax (du + 1) (next u) queue dist
            search steps r.1 r.2

def distances (steps : ℕ) (source : V) : V → Option ℕ :=
  search next bound steps [source] (Function.update (fun _ => none) source (some 0))

/-- Walks of a length from a vertex. -/
inductive Walk (source : V) : ℕ → V → Prop
  | nil : Walk source 0 source
  | step {n : ℕ} {u v : V} : Walk source n u → v ∈ next u → Walk source (n + 1) v

end Search

section Relax

variable {V : Type*} [DecidableEq V] (d : ℕ) (vs queue : List V) (dist : V → Option ℕ)

/-- Only the missing distances are filled in. -/
theorem relax_dist (v : V) : (relax d vs queue dist).2 v =
    if dist v = none ∧ v ∈ vs then some d else dist v := by
  induction vs generalizing queue dist with
  | nil => simp [relax]
  | cons w vs ih =>
      unfold relax
      by_cases hw : dist w = none
      · rw [if_pos hw, ih]
        by_cases hvw : v = w
        · subst hvw
          simp [hw]
        · simp [hvw]
      · rw [if_neg hw, ih]
        by_cases hvw : v = w
        · subst hvw
          simp [hw]
        · simp [hvw]

/-- The queue grows by the vertices that had no distance. -/
theorem relax_queue : ∃ fresh, (relax d vs queue dist).1 = queue ++ fresh ∧
    ∀ v, v ∈ fresh ↔ dist v = none ∧ v ∈ vs := by
  induction vs generalizing queue dist with
  | nil => exact ⟨[], by simp [relax], by simp⟩
  | cons w vs ih =>
      unfold relax
      by_cases hw : dist w = none
      · obtain ⟨fresh, hqueue, hfresh⟩ := ih (queue ++ [w]) (Function.update dist w (some d))
        refine ⟨w :: fresh, ?_, fun v => ?_⟩
        · rw [if_pos hw, hqueue, List.append_assoc]
          rfl
        · rw [List.mem_cons, hfresh]
          by_cases hvw : v = w
          · subst hvw
            simp [hw]
          · simp [hvw]
      · obtain ⟨fresh, hqueue, hfresh⟩ := ih queue dist
        refine ⟨fresh, ?_, fun v => ?_⟩
        · rw [if_neg hw, hqueue]
        · rw [hfresh]
          by_cases hvw : v = w
          · subst hvw
            simp [hw]
          · simp [hvw]

/-- Each vertex that joins the queue is no longer without a distance. -/
theorem relax_measure {S : Finset V} (hvs : ∀ v ∈ vs, v ∈ S) :
    (relax d vs queue dist).1.length + (S.filter fun v => (relax d vs queue dist).2 v = none).card =
      queue.length + (S.filter fun v => dist v = none).card := by
  induction vs generalizing queue dist with
  | nil => rfl
  | cons w vs ih =>
      have htail : ∀ v ∈ vs, v ∈ S := fun v hv => hvs v (List.mem_cons_of_mem w hv)
      unfold relax
      by_cases hw : dist w = none
      · have hmem : w ∈ S.filter fun v => dist v = none :=
          Finset.mem_filter.2 ⟨hvs w List.mem_cons_self, hw⟩
        have herase : (S.filter fun v => Function.update dist w (some d) v = none) =
            (S.filter fun v => dist v = none).erase w := by
          ext v
          by_cases hvw : v = w
          · subst hvw
            simp
          · simp [hvw]
        have hcard := Finset.card_erase_add_one hmem
        rw [if_pos hw, ih _ _ htail, herase, List.length_append, List.length_singleton]
        omega
      · rw [if_neg hw]
        exact ih _ _ htail

end Relax

section Invariant

variable {V : Type*} [DecidableEq V] {next : V → List V} {bound steps : ℕ} {queue : List V}
  {dist : V → Option ℕ} {source u v : V} {d : ℕ}

/-- The queue is ordered by distance, nothing known is more than one step beyond its front, and
what has left it has passed its distance on. -/
structure Inv (next : V → List V) (bound : ℕ) (queue : List V) (dist : V → Option ℕ) : Prop where
  queued : ∀ u ∈ queue, ∃ d, dist u = some d
  ordered : queue.Pairwise fun u v => ∀ d ∈ dist u, ∀ e ∈ dist v, d ≤ e
  near : ∀ u ∈ queue.head?, ∀ d ∈ dist u, ∀ v, ∀ e ∈ dist v, e ≤ d + 1
  closed : ∀ u, u ∉ queue → ∀ d ∈ dist u, d < bound → ∀ v ∈ next u, ∃ e, dist v = some e ∧ e ≤ d + 1

theorem Inv.start : Inv next bound [source] (Function.update (fun _ => none) source (some 0)) := by
  constructor
  · intro u hu
    rw [List.mem_singleton.1 hu]
    exact ⟨0, Function.update_self ..⟩
  · exact List.pairwise_singleton _ _
  · intro u _ d _ v e he
    by_cases hv : v = source
    · subst hv
      rw [Function.update_self] at he
      cases he
      exact Nat.zero_le _
    · rw [Function.update_of_ne hv] at he
      cases he
  · intro u hu d hd
    rw [Function.update_of_ne (fun h => hu (by simp [h]))] at hd
    cases hd

/-- A vertex at the bound passes nothing on. -/
theorem Inv.skip (h : Inv next bound (u :: queue) dist) (hd : dist u = some d) (hle : bound ≤ d) :
    Inv next bound queue dist := by
  obtain ⟨hfirst, hordered⟩ := List.pairwise_cons.1 h.ordered
  constructor
  · exact fun v hv => h.queued v (List.mem_cons_of_mem u hv)
  · exact hordered
  · intro v hv e he w f hf
    have hle' := hfirst v (List.mem_of_mem_head? hv) d hd e he
    have hnear := h.near u rfl d hd w f hf
    omega
  · intro v hv e he hlt
    by_cases hvu : v = u
    · subst hvu
      rw [hd] at he
      cases he
      omega
    · exact h.closed v (by simp [hvu, hv]) e he hlt

/-- The front of the queue passes its distance on to its neighbours. -/
theorem Inv.step (h : Inv next bound (u :: queue) dist) (hd : dist u = some d) :
    Inv next bound (relax (d + 1) (next u) queue dist).1 (relax (d + 1) (next u) queue dist).2 := by
  obtain ⟨hfirst, hordered⟩ := List.pairwise_cons.1 h.ordered
  obtain ⟨fresh, hqueue, hfresh⟩ := relax_queue (d + 1) (next u) queue dist
  have hdist := relax_dist (d + 1) (next u) queue dist
  rw [hqueue]
  generalize (relax (d + 1) (next u) queue dist).2 = dist' at hdist
  have hold : ∀ v e, dist v = some e → dist' v = some e := by
    intro v e he
    rw [hdist, if_neg (by simp [he]), he]
  have hnew : ∀ v e, dist' v = some e → dist v = some e ∨ v ∈ fresh ∧ e = d + 1 := by
    intro v e he
    rw [hdist] at he
    split_ifs at he with hv
    · cases he
      exact .inr ⟨(hfresh v).2 hv, rfl⟩
    · exact .inl he
  have hfar : ∀ v e, dist' v = some e → e ≤ d + 1 := by
    intro v e he
    rcases hnew v e he with he | ⟨_, rfl⟩
    · exact h.near u rfl d hd v e he
    · exact le_rfl
  have hqueued : ∀ v ∈ queue, ∀ e, dist' v = some e → d ≤ e := by
    intro v hv e he
    obtain ⟨f, hf⟩ := h.queued v (List.mem_cons_of_mem u hv)
    have hsame : f = e := Option.some.inj ((hold v f hf).symm.trans he)
    rw [← hsame]
    exact hfirst v hv d hd f hf
  have hadded : ∀ v ∈ fresh, dist' v = some (d + 1) := by
    intro v hv
    rw [hdist, if_pos ((hfresh v).1 hv)]
  constructor
  · intro v hv
    rcases List.mem_append.1 hv with hv | hv
    · obtain ⟨e, he⟩ := h.queued v (List.mem_cons_of_mem u hv)
      exact ⟨e, hold v e he⟩
    · exact ⟨d + 1, hadded v hv⟩
  · rw [List.pairwise_append]
    refine ⟨?_, ?_, ?_⟩
    · apply hordered.imp_of_mem
      intro v w hv hw hvw e he f hf
      obtain ⟨e', he'⟩ := h.queued v (List.mem_cons_of_mem u hv)
      obtain ⟨f', hf'⟩ := h.queued w (List.mem_cons_of_mem u hw)
      have hve : e' = e := Option.some.inj ((hold v e' he').symm.trans he)
      have hwf : f' = f := Option.some.inj ((hold w f' hf').symm.trans hf)
      rw [← hve, ← hwf]
      exact hvw e' he' f' hf'
    · apply List.pairwise_of_forall_mem_list
      intro v hv w hw e he f hf
      cases (hadded v hv).symm.trans he
      cases (hadded w hw).symm.trans hf
      exact le_rfl
    · intro v _ w hw e he f hf
      cases (hadded w hw).symm.trans hf
      exact hfar v e he
  · intro v hv e he w f hf
    have hle : d ≤ e := by
      rcases List.mem_append.1 (List.mem_of_mem_head? hv) with hv | hv
      · exact hqueued v hv e he
      · cases (hadded v hv).symm.trans he
        exact Nat.le_succ d
    exact (hfar w f hf).trans (Nat.succ_le_succ hle)
  · intro v hv e he hlt w hw
    have hvq : v ∉ queue := fun hq => hv (List.mem_append_left _ hq)
    have hvf : v ∉ fresh := fun hf => hv (List.mem_append_right _ hf)
    have he : dist v = some e := (hnew v e he).resolve_right fun hf => hvf hf.1
    by_cases hvu : v = u
    · subst hvu
      cases hd.symm.trans he
      by_cases hwnone : dist w = none
      · exact ⟨d + 1, hadded w ((hfresh w).2 ⟨hwnone, hw⟩), le_rfl⟩
      · obtain ⟨f, hf⟩ := Option.ne_none_iff_exists'.1 hwnone
        exact ⟨f, hold w f hf, hfar w f (hold w f hf)⟩
    · obtain ⟨f, hf, hle⟩ := h.closed v (by simp [hvu, hvq]) e he hlt w hw
      exact ⟨f, hold w f hf, hle⟩

/-- The search ends with an empty queue when it has a step for every vertex. -/
theorem search_inv {S : Finset V} (hnext : ∀ u, ∀ v ∈ next u, v ∈ S)
    (h : Inv next bound queue dist)
    (hsteps : queue.length + (S.filter fun v => dist v = none).card ≤ steps) :
    Inv next bound [] (search next bound steps queue dist) ∧
      ∀ v d, dist v = some d → search next bound steps queue dist v = some d := by
  induction steps generalizing queue dist with
  | zero =>
      have hnil : queue = [] := List.length_eq_zero_iff.1 (by omega)
      subst hnil
      exact ⟨h, fun v d hd => hd⟩
  | succ steps ih =>
      cases queue with
      | nil => exact ⟨h, fun v d hd => hd⟩
      | cons u queue =>
          obtain ⟨d, hd⟩ := h.queued u List.mem_cons_self
          rw [List.length_cons] at hsteps
          unfold search
          rw [hd]
          dsimp only
          by_cases hle : bound ≤ d
          · rw [if_pos hle]
            exact ih (h.skip hd hle) (by omega)
          · have hmeasure := relax_measure (d + 1) (next u) queue dist (hnext u)
            rw [if_neg hle]
            obtain ⟨hinv, hkeep⟩ := ih (h.step hd) (by omega)
            refine ⟨hinv, fun v e he => hkeep v e ?_⟩
            rw [relax_dist, if_neg (by simp [he]), he]

/-- A distance is found for the end of every walk within the bound, and it is at most its length. -/
theorem distances_le {S : Finset V} (hnext : ∀ u, ∀ v ∈ next u, v ∈ S) (hsteps : S.card + 1 ≤ steps)
    {n : ℕ} (hwalk : Walk next source n v) (hn : n ≤ bound) :
    ∃ d, distances next bound steps source v = some d ∧ d ≤ n := by
  have hstart : Inv next bound [source] (Function.update (fun _ => none) source (some 0)) :=
    Inv.start
  have hcard : (S.filter fun v => Function.update (fun _ => none) source (some 0) v = none).card ≤
      S.card := Finset.card_filter_le _ _
  have hfuel : [source].length + (S.filter fun v =>
      Function.update (fun _ => none) source (some 0) v = none).card ≤ steps := by
    rw [List.length_singleton]
    omega
  obtain ⟨hinv, hkeep⟩ := search_inv hnext hstart hfuel
  induction hwalk with
  | nil => exact ⟨0, hkeep source 0 (Function.update_self ..), le_rfl⟩
  | @step n u v hwalk hv ih =>
      obtain ⟨d, hd, hle⟩ := ih (by omega)
      obtain ⟨e, he, hed⟩ := hinv.closed u (by simp) d hd (by omega) v hv
      exact ⟨e, he, by omega⟩

end Invariant

end BreadthFirst
