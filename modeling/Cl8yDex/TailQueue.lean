import Mathlib.Data.List.Basic
import Mathlib.Data.List.Nodup
import Mathlib.Data.List.TakeWhile
import Mathlib.Tactic.Common

/-!
# Joining a priority queue behind one's equals

The predicate `p` says which members stay ahead of a newcomer. When the queue is ordered so that
`p` holds of an initial part and of nothing after it, the newcomer joins at the seam, and every
relation that the newcomer respects on both sides is kept.
-/

namespace TailQueue

universe u

variable {α : Type u} (p : α → Prop) [DecidablePred p]

def ahead (l : List α) : List α := l.takeWhile fun x => decide (p x)

def behind (l : List α) : List α := l.dropWhile fun x => decide (p x)

def join (x : α) (l : List α) : List α := ahead p l ++ x :: behind p l

variable {p} {l a b : List α} {x y : α} {R : α → α → Prop}

theorem ahead_append_behind : ahead p l ++ behind p l = l := List.takeWhile_append_dropWhile

theorem of_mem_ahead (h : y ∈ ahead p l) : p y := by
  simpa using List.mem_takeWhile_imp h

theorem not_of_head_behind (h : (behind p l).head? = some y) : ¬p y := by
  have hne : behind p l ≠ [] := by
    intro he
    simp [he] at h
  have hy : (behind p l).head hne = y := by
    rw [List.head?_eq_some_head hne] at h
    exact Option.some.inj h
  rw [← hy]
  have hhead := List.head_dropWhile_not (fun x => decide (p x)) hne
  exact of_decide_eq_false hhead

/-- The seam is the only split with members ahead on the left and none leading the right. -/
theorem split_unique (ha : ∀ x ∈ a, p x) (hb : ∀ y, b.head? = some y → ¬p y) :
    ahead p (a ++ b) = a ∧ behind p (a ++ b) = b := by
  induction a with
  | nil =>
      cases b with
      | nil => exact ⟨rfl, rfl⟩
      | cons y b => simp [ahead, behind, hb y rfl]
  | cons x a ih =>
      have hx : p x := ha x (by simp)
      obtain ⟨h1, h2⟩ := ih fun y hy => ha y (List.mem_cons_of_mem x hy)
      refine ⟨?_, ?_⟩
      · simpa [ahead, hx] using h1
      · simpa [behind, hx] using h2

theorem of_mem_behind (hp : l.Pairwise fun x y => p y → p x) (h : y ∈ behind p l) : ¬p y := by
  have hpb : (behind p l).Pairwise fun x y => p y → p x :=
    hp.sublist (List.dropWhile_sublist _)
  cases hb : behind p l with
  | nil => simp [hb] at h
  | cons z b =>
      have hz : ¬p z := not_of_head_behind (l := l) (by simp [hb])
      rw [hb] at hpb h
      rcases List.mem_cons.1 h with rfl | h
      · exact hz
      · exact fun hy => hz ((List.pairwise_cons.1 hpb).1 y h hy)

@[simp] theorem mem_join : y ∈ join p x l ↔ y = x ∨ y ∈ l := by
  have h : y ∈ l ↔ y ∈ ahead p l ∨ y ∈ behind p l := by
    rw [← List.mem_append, ahead_append_behind]
  simp only [join, List.mem_append, List.mem_cons, h]
  tauto

theorem nodup_join (hl : l.Nodup) (hx : x ∉ l) : (join p x l).Nodup := by
  have hperm : (join p x l).Perm (x :: l) := by
    conv_rhs => rw [← ahead_append_behind (p := p) (l := l)]
    exact List.perm_middle
  exact hperm.nodup_iff.2 (List.nodup_cons.2 ⟨hx, hl⟩)

theorem pairwise_join (hR : l.Pairwise R) (hp : l.Pairwise fun x y => p y → p x)
    (ha : ∀ y ∈ l, p y → R y x) (hb : ∀ y ∈ l, ¬p y → R x y) : (join p x l).Pairwise R := by
  have hmem : ∀ y ∈ behind p l, y ∈ l := fun y hy => (List.dropWhile_sublist _).subset hy
  have hsplit := hR
  rw [← ahead_append_behind (p := p) (l := l), List.pairwise_append] at hsplit
  rw [join, List.pairwise_append]
  refine ⟨hsplit.1, ?_, ?_⟩
  · exact List.pairwise_cons.2
      ⟨fun y hy => hb y (hmem y hy) (of_mem_behind hp hy), hsplit.2.1⟩
  · intro z hz y hy
    rcases List.mem_cons.1 hy with rfl | hy
    · exact ha z ((List.takeWhile_sublist _).subset hz) (of_mem_ahead hz)
    · exact hsplit.2.2 z hz y hy

end TailQueue
