import Mathlib.Data.List.Basic
import Mathlib.Data.List.Induction
import Mathlib.Data.List.Nodup
import Mathlib.Logic.Function.Basic
import Mathlib.Tactic.Common

/-!
# Doubly linked lists in a finite map

`Seg m p l n` says that the nodes of `l` are chained by the link map `m`: every node points back
to its predecessor (the first one to `p`) and forward to its successor (the last one to `n`). The
two edits of such a list, linking a node in and taking one out, are local changes of the map.
-/

namespace DoublyLinked

universe u

variable {κ : Type u}

structure Link (κ : Type u) where
  prev : Option κ
  next : Option κ
  deriving DecidableEq

def Seg (m : κ → Option (Link κ)) : Option κ → List κ → Option κ → Prop
  | _, [], _ => True
  | p, x :: l, n => m x = some ⟨p, l.head?.or n⟩ ∧ Seg m (some x) l n

section Segments

variable {m m' : κ → Option (Link κ)} {p n : Option κ} {x y : κ} {l r : List κ}

@[simp] theorem seg_nil : Seg m p [] n := trivial

@[simp] theorem seg_cons :
    Seg m p (x :: l) n ↔ m x = some ⟨p, l.head?.or n⟩ ∧ Seg m (some x) l n := Iff.rfl

theorem seg_append : Seg m p (l ++ r) n ↔
    Seg m p l (r.head?.or n) ∧ Seg m (l.getLast?.or p) r n := by
  induction l generalizing p with
  | nil => simp
  | cons x l ih =>
      have hlast : (x :: l).getLast?.or p = l.getLast?.or (some x) := by
        cases l <;> simp [List.getLast?_cons]
      have hhead : (l ++ r).head?.or n = l.head?.or (r.head?.or n) := by
        cases l <;> simp
      simp only [List.cons_append, seg_cons, ih, hlast, hhead, and_assoc]

theorem Seg.congr (h : Seg m p l n) (hm : ∀ x ∈ l, m' x = m x) : Seg m' p l n := by
  induction l generalizing p with
  | nil => exact trivial
  | cons x l ih =>
      refine ⟨(hm x (by simp)).trans h.1, ih h.2 fun y hy => hm y (by simp [hy])⟩

theorem Seg.node (h : Seg m none (l ++ x :: r) none) : m x = some ⟨l.getLast?, r.head?⟩ := by
  have hx := (seg_append.1 h).2.1
  simpa using hx

theorem Seg.exists_node (h : Seg m p l n) (hx : x ∈ l) : ∃ lk, m x = some lk := by
  induction l generalizing p with
  | nil => cases hx
  | cons y l ih =>
      rcases List.mem_cons.1 hx with rfl | hx
      · exact ⟨_, h.1⟩
      · exact ih h.2 hx

/-- The pointers of a segment are mutually inverse. -/
theorem Seg.next_iff_prev (h : Seg m none l none) (hn : l.Nodup) (hx : x ∈ l) (hy : y ∈ l) :
    (m x).bind Link.next = some y ↔ (m y).bind Link.prev = some x := by
  obtain ⟨a, b, rfl⟩ := List.append_of_mem hx
  rw [h.node]
  constructor
  · intro hb
    cases b with
    | nil => simp at hb
    | cons z b =>
        obtain rfl : z = y := by simpa using hb
        have hz : m z = some ⟨(a ++ [x]).getLast?, b.head?⟩ := by
          apply Seg.node (l := a ++ [x]); simpa using h
        simp [hz]
  · intro hp
    obtain ⟨c, d, hcd⟩ := List.append_of_mem hy
    rw [hcd] at h hn
    rw [h.node] at hp
    obtain ⟨c', rfl⟩ : ∃ c', c = c' ++ [x] := by
      have hc : c.getLast? = some x := by simpa using hp
      exact List.getLast?_eq_some_iff.1 hc
    have hsplit : a ++ x :: b = c' ++ x :: (y :: d) := by simpa using hcd
    have hnd : (c' ++ x :: (y :: d)).Nodup := by simpa using hn
    have hxa : x ∉ a := by
      rw [← hsplit] at hnd
      exact fun hxa => (List.disjoint_of_nodup_append hnd) hxa (by simp)
    have hxb : x ∉ b := by
      rw [← hsplit] at hnd
      exact (List.nodup_cons.1 (List.nodup_append.1 hnd).2.1).1
    obtain ⟨-, -, hb⟩ := (List.append_cons_inj_of_notMem hxa hxb).1 hsplit
    simp [hb]

theorem getLast?_ne_of_notMem (hx : x ∉ l) : l.getLast? ≠ some x :=
  fun h => hx (List.mem_of_getLast? h)

theorem head?_ne_of_notMem (hx : x ∉ l) : l.head? ≠ some x :=
  fun h => hx (List.mem_of_head? h)

end Segments

section Edits

variable [DecidableEq κ] {m : κ → Option (Link κ)} {p n v : Option κ} {x y : κ} {l r s : List κ}

def setNext (m : κ → Option (Link κ)) (p v : Option κ) : κ → Option (Link κ) :=
  match p with
  | none => m
  | some x => Function.update m x ((m x).map fun lk => { lk with next := v })

def setPrev (m : κ → Option (Link κ)) (n v : Option κ) : κ → Option (Link κ) :=
  match n with
  | none => m
  | some x => Function.update m x ((m x).map fun lk => { lk with prev := v })

/-- Store `x` with the neighbours `p` and `n` and make both point at it. -/
def link (m : κ → Option (Link κ)) (x : κ) (p n : Option κ) : κ → Option (Link κ) :=
  setPrev (setNext (Function.update m x (some ⟨p, n⟩)) p (some x)) n (some x)

/-- Make the neighbours `p` and `n` of a node point at each other. -/
def bypass (m : κ → Option (Link κ)) (p n : Option κ) : κ → Option (Link κ) :=
  setPrev (setNext m p n) n p

theorem setNext_of_ne (h : p ≠ some x) : setNext m p v x = m x := by
  cases p with
  | none => rfl
  | some y =>
      have hxy : x ≠ y := fun hxy => h (by rw [hxy])
      simp [setNext, hxy]

theorem setPrev_of_ne (h : n ≠ some x) : setPrev m n v x = m x := by
  cases n with
  | none => rfl
  | some y =>
      have hxy : x ≠ y := fun hxy => h (by rw [hxy])
      simp [setPrev, hxy]

theorem link_self (hp : p ≠ some x) (hn : n ≠ some x) : link m x p n x = some ⟨p, n⟩ := by
  rw [link, setPrev_of_ne hn, setNext_of_ne hp, Function.update_self]

theorem link_of_ne (hx : y ≠ x) (hp : p ≠ some y) (hn : n ≠ some y) : link m x p n y = m y := by
  rw [link, setPrev_of_ne hn, setNext_of_ne hp, Function.update_of_ne hx]

theorem bypass_of_ne (hp : p ≠ some y) (hn : n ≠ some y) : bypass m p n y = m y := by
  rw [bypass, setPrev_of_ne hn, setNext_of_ne hp]

theorem Seg.setNext_last (h : Seg m p l n) (hl : l.Nodup) :
    Seg (setNext m l.getLast? v) p l v := by
  induction l using List.reverseRecOn with
  | nil => exact trivial
  | append_singleton l x _ =>
      rw [seg_append] at h ⊢
      have hx : x ∉ l := by
        rw [List.nodup_append] at hl
        exact fun hx => hl.2.2 x hx x (by simp) rfl
      simp only [List.head?_cons, Option.some_or, seg_cons, seg_nil, List.head?_nil,
        Option.none_or, and_true] at h ⊢
      refine ⟨h.1.congr fun y hy => setNext_of_ne ?_, ?_⟩
      · intro he
        rw [List.getLast?_concat] at he
        exact hx (Option.some.inj he ▸ hy)
      · simp [setNext, h.2]

theorem Seg.setPrev_head (h : Seg m p l n) (hl : l.Nodup) :
    Seg (setPrev m l.head? v) v l n := by
  cases l with
  | nil => exact trivial
  | cons x l =>
      refine ⟨by simp [setPrev, h.1], h.2.congr fun y hy => setPrev_of_ne ?_⟩
      intro he
      exact (List.nodup_cons.1 hl).1 (Option.some.inj he ▸ hy)

theorem Seg.link (h : Seg m none (l ++ r) none) (hn : (l ++ r).Nodup) (hx : x ∉ l ++ r) :
    Seg (link m x l.getLast? r.head?) none (l ++ x :: r) none := by
  obtain ⟨hl, hr⟩ := seg_append.1 h
  obtain ⟨hln, hrn, hlr⟩ := List.nodup_append.1 hn
  have hxl : x ∉ l := fun hx' => hx (List.mem_append_left r hx')
  have hxr : x ∉ r := fun hx' => hx (List.mem_append_right l hx')
  have hnew : ∀ y, y ≠ x → Function.update m x (some ⟨l.getLast?, r.head?⟩) y = m y :=
    fun y hy => Function.update_of_ne hy _ _
  refine seg_append.2 ⟨?_, ?_, ?_⟩
  · have hl' := (hl.congr fun y hy => hnew y (ne_of_mem_of_not_mem hy hxl)).setNext_last
      (v := some x) hln
    refine hl'.congr fun y hy => setPrev_of_ne (head?_ne_of_notMem fun hyr => ?_)
    exact hlr y hy y hyr rfl
  · rw [link_self (getLast?_ne_of_notMem hxl) (head?_ne_of_notMem hxr)]
    simp
  · refine Seg.setPrev_head (p := l.getLast?.or none) ?_ hrn
    refine hr.congr fun y hy => ?_
    rw [setNext_of_ne (getLast?_ne_of_notMem fun hyl => hlr y hyl y hy rfl),
      hnew y (ne_of_mem_of_not_mem hy hxr)]

theorem Seg.bypass (h : Seg m none (l ++ x :: r) none) (hn : (l ++ x :: r).Nodup) :
    Seg (bypass m l.getLast? r.head?) none (l ++ r) none := by
  obtain ⟨hl, -, hr⟩ := seg_append.1 h
  obtain ⟨hln, hxrn, hlr⟩ := List.nodup_append.1 hn
  have hrn := (List.nodup_cons.1 hxrn).2
  refine seg_append.2 ⟨?_, ?_⟩
  · have hl' := hl.setNext_last (v := r.head?.or none) hln
    rw [Option.or_none] at hl' ⊢
    refine hl'.congr fun y hy => setPrev_of_ne (head?_ne_of_notMem fun hyr => ?_)
    exact hlr y hy y (List.mem_cons_of_mem x hyr) rfl
  · rw [Option.or_none]
    refine Seg.setPrev_head (p := some x) ?_ hrn
    refine hr.congr fun y hy => setNext_of_ne (getLast?_ne_of_notMem fun hyl => ?_)
    exact hlr y hyl y (List.mem_cons_of_mem x hy) rfl

/-- A list that shares no node with an edited one is left alone. -/
theorem Seg.link_frame (h : Seg m none s none) (hs : ∀ y ∈ s, y ∉ l ++ r) (hx : x ∉ s) :
    Seg (DoublyLinked.link m x l.getLast? r.head?) none s none := by
  refine h.congr fun y hy => link_of_ne (ne_of_mem_of_not_mem hy hx) ?_ ?_
  · exact getLast?_ne_of_notMem fun hyl => hs y hy (List.mem_append_left r hyl)
  · exact head?_ne_of_notMem fun hyr => hs y hy (List.mem_append_right l hyr)

theorem Seg.bypass_frame (h : Seg m none s none) (hs : ∀ y ∈ s, y ∉ l ++ r) :
    Seg (DoublyLinked.bypass m l.getLast? r.head?) none s none := by
  refine h.congr fun y hy => bypass_of_ne ?_ ?_
  · exact getLast?_ne_of_notMem fun hyl => hs y hy (List.mem_append_left r hyl)
  · exact head?_ne_of_notMem fun hyr => hs y hy (List.mem_append_right l hyr)

end Edits

end DoublyLinked
