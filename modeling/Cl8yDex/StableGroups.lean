import Mathlib.Data.List.Sort
import Mathlib.Data.List.Dedup

/-!
# Stable sorting groups by key

A stable sort lists the keys that occur in order, and under each key the elements that have it as
they were given.
-/

namespace StableGroups

variable {α κ : Type*} [DecidableEq κ] (r : κ → κ → Prop) [DecidableRel r] (key : α → κ)

def sortBy (l : List α) : List α := l.insertionSort fun a b => r (key a) (key b)

def keys (l : List α) : List κ := (l.map key).dedup.insertionSort r

/-- The elements with one key, in the order of the list. -/
def group (l : List α) (k : κ) : List α := l.filter fun a => key a = k

variable {r key} {l : List α} {k : κ} {ks : List κ}

@[simp] theorem mem_group {a : α} : a ∈ group key l k ↔ a ∈ l ∧ key a = k := by simp [group]

omit [DecidableEq κ] in
@[simp] theorem mem_sortBy {a : α} : a ∈ sortBy r key l ↔ a ∈ l := List.mem_insertionSort _

@[simp] theorem mem_keys : k ∈ keys r key l ↔ ∃ a ∈ l, key a = k := by
  simp [keys, List.mem_insertionSort]

theorem keys_nodup : (keys r key l).Nodup :=
  (List.perm_insertionSort r _).nodup_iff.2 (List.nodup_dedup _)

theorem group_ne_nil (hk : k ∈ keys r key l) : group key l k ≠ [] := by
  obtain ⟨a, ha, hka⟩ := mem_keys.1 hk
  exact List.ne_nil_of_mem (mem_group.2 ⟨ha, hka⟩)

omit [DecidableRel r] in
/-- A sorted list starts with the group of a key that none of its keys precedes. -/
theorem eq_group_append [Std.Antisymm r] (hl : l.Pairwise fun a b => r (key a) (key b))
    (hk : ∀ a ∈ l, r k (key a)) : l = group key l k ++ l.filter fun a => key a ≠ k := by
  induction l with
  | nil => rfl
  | cons a l ih =>
      obtain ⟨ha, htail⟩ := List.pairwise_cons.1 hl
      by_cases hak : key a = k
      · have hrest := ih htail fun b hb => hk b (List.mem_cons_of_mem a hb)
        simp only [group, List.filter_cons, hak, decide_true, if_true, ne_eq, not_true_eq_false,
          decide_false, List.cons_append]
        exact congrArg (a :: ·) hrest
      · have hnone : ∀ b ∈ a :: l, key b ≠ k := by
          intro b hb hbk
          rcases List.mem_cons.1 hb with rfl | hb
          · exact hak hbk
          · apply hak
            have hle := ha b hb
            rw [hbk] at hle
            exact Std.Antisymm.antisymm _ _ hle (hk a List.mem_cons_self)
        have hempty : group key (a :: l) k = [] := by
          apply List.filter_eq_nil_iff.2
          intro b hb
          simpa using hnone b hb
        rw [hempty, List.nil_append, List.filter_eq_self.2]
        intro b hb
        simpa using hnone b hb

section Order

variable [Std.Total r] [IsTrans κ r]

theorem keys_pairwise : (keys r key l).Pairwise r := List.pairwise_insertionSort r _

omit [DecidableEq κ] in
theorem sortBy_pairwise : (sortBy r key l).Pairwise fun a b => r (key a) (key b) := by
  have htotal : Std.Total fun a b : α => r (key a) (key b) :=
    ⟨fun a b => Std.Total.total (key a) (key b)⟩
  have htrans : IsTrans α fun a b => r (key a) (key b) :=
    ⟨fun _ _ _ hab hbc => IsTrans.trans _ _ _ hab hbc⟩
  exact List.pairwise_insertionSort _ l

/-- Sorting keeps the order of the elements with one key. -/
theorem group_sortBy : group key (sortBy r key l) k = group key l k := by
  have htotal : Std.Total fun a b : α => r (key a) (key b) :=
    ⟨fun a b => Std.Total.total (key a) (key b)⟩
  have htrans : IsTrans α fun a b => r (key a) (key b) :=
    ⟨fun _ _ _ hab hbc => IsTrans.trans _ _ _ hab hbc⟩
  have hsame : (group key l k).Pairwise fun a b => r (key a) (key b) := by
    rw [List.pairwise_iff_forall_sublist]
    intro a b hab
    have ha : key a = k := (mem_group.1 (hab.subset (by simp))).2
    have hb : key b = k := (mem_group.1 (hab.subset (by simp))).2
    rw [ha, hb]
    exact (Std.Total.total k k).elim id id
  have hsub : List.Sublist (group key l k) (sortBy r key l) :=
    List.sublist_insertionSort hsame List.filter_sublist
  have hgroup : List.Sublist (group key l k) (group key (sortBy r key l) k) := by
    have h := hsub.filter fun a => decide (key a = k)
    simpa only [group, List.filter_filter, Bool.and_self] using h
  have hlen : (group key (sortBy r key l) k).length = (group key l k).length :=
    ((List.perm_insertionSort _ l).filter _).length_eq
  exact (hgroup.eq_of_length hlen.symm).symm

omit [DecidableRel r] [IsTrans κ r] in
theorem eq_flatMap_group [Std.Antisymm r]
    (hl : l.Pairwise fun a b => r (key a) (key b)) (hks : ks.Pairwise r)
    (hnodup : ks.Nodup) (hmem : ∀ a ∈ l, key a ∈ ks) : l = ks.flatMap (group key l) := by
  induction ks generalizing l with
  | nil =>
      have hnil : l = [] := List.eq_nil_iff_forall_not_mem.2 fun a ha => by simpa using hmem a ha
      rw [hnil]
      rfl
  | cons k ks ih =>
      obtain ⟨hk, hks⟩ := List.pairwise_cons.1 hks
      obtain ⟨hnot, hnodup⟩ := List.nodup_cons.1 hnodup
      have hrefl : r k k := (Std.Total.total k k).elim id id
      have hfirst : ∀ a ∈ l, r k (key a) := by
        intro a ha
        rcases List.mem_cons.1 (hmem a ha) with heq | htail
        · rwa [heq]
        · exact hk _ htail
      have hrest := ih (l := l.filter fun a => key a ≠ k) (hl.filter _) hks hnodup (by
        intro a ha
        obtain ⟨ha, hne⟩ := List.mem_filter.1 ha
        exact (List.mem_cons.1 (hmem a ha)).resolve_left (by simpa using hne))
      have hgroups : ks.flatMap (group key (l.filter fun a => key a ≠ k)) =
          ks.flatMap (group key l) := by
        apply List.flatMap_congr
        intro j hj
        have hjk : j ≠ k := fun h => hnot (h ▸ hj)
        unfold group
        rw [List.filter_filter]
        apply List.filter_congr
        intro a _
        by_cases haj : key a = j
        · simp [haj, hjk]
        · simp [haj]
      rw [List.flatMap_cons, ← hgroups, ← hrest]
      exact eq_group_append hl hfirst

/-- The sorted list is the groups of its keys, one after the other. -/
theorem sortBy_eq [Std.Antisymm r] : sortBy r key l = (keys r key l).flatMap (group key l) := by
  have hsorted : (sortBy r key l).Pairwise fun a b => r (key a) (key b) := sortBy_pairwise
  have hkeys : (keys r key l).Pairwise r := keys_pairwise
  have hmem : ∀ a ∈ sortBy r key l, key a ∈ keys r key l :=
    fun a ha => mem_keys.2 ⟨a, mem_sortBy.1 ha, rfl⟩
  have h := eq_flatMap_group hsorted hkeys keys_nodup hmem
  rw [h]
  apply List.flatMap_congr
  intro j _
  exact group_sortBy

end Order

end StableGroups
