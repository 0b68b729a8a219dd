import Mathlib.Data.List.Sort
import Mathlib.Data.List.Nodup

/-!
# Tables of an ordered history

A table holds the rows of a history in any order. When a key increases along the history,
sorting the table by the key gives the history back, and sorting it downwards the reverse.
-/

namespace OrderedTables

variable {α κ : Type*} [LinearOrder κ] {key : α → κ} {history table : List α}

theorem eq_of_key (hordered : history.Pairwise fun a b => key a < key b) {a b : α}
    (ha : a ∈ history) (hb : b ∈ history) (h : key a = key b) : a = b := by
  have hnodup : (history.map key).Nodup :=
    List.pairwise_map.mpr (hordered.imp fun hlt => ne_of_lt hlt)
  exact List.inj_on_of_nodup_map hnodup ha hb h

theorem ascending_eq (hperm : table.Perm history)
    (hordered : history.Pairwise fun a b => key a < key b) :
    table.insertionSort (fun a b => key a ≤ key b) = history := by
  have hsorted := (List.perm_insertionSort (fun a b : α => key a ≤ key b) table).trans hperm
  apply hsorted.eq_of_pairwise
  · intro a b ha hb hle hge
    exact eq_of_key hordered (hsorted.mem_iff.mp ha) hb (le_antisymm hle hge)
  · exact List.pairwise_insertionSort _ _
  · exact hordered.imp fun hlt => hlt.le

theorem descending_eq (hperm : table.Perm history)
    (hordered : history.Pairwise fun a b => key a < key b) :
    table.insertionSort (fun a b => key b ≤ key a) = history.reverse := by
  have hsorted := (List.perm_insertionSort (fun a b : α => key b ≤ key a) table).trans hperm
  apply (hsorted.trans (List.reverse_perm history).symm).eq_of_pairwise
  · intro a b ha hb hge hle
    exact eq_of_key hordered (hsorted.mem_iff.mp ha) (List.mem_reverse.mp hb)
      (le_antisymm hle hge)
  · exact List.pairwise_insertionSort _ _
  · exact List.pairwise_reverse.mpr (hordered.imp fun hlt => hlt.le)

end OrderedTables
