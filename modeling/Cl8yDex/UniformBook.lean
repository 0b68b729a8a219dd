import Cl8yDex.BookRefines
import Cl8yDex.Custody
import Mathlib.Data.List.Range

/-!
# A side full of equal orders

The book that holds `n` orders of the same terms under the ids `1` to `n` and nothing else.
-/

namespace Cl8yDex

open DoublyLinked Finset

def uniformBook (t : OrderTerms) (n : ℕ) : Book where
  orderNextId := n + 1
  orders x :=
    if 1 ≤ x ∧ x ≤ n then
      some ⟨t, if x = 1 then none else some (x - 1), if x = n then none else some (x + 1)⟩
    else none
  head s := if s = t.side ∧ n ≠ 0 then some 1 else none
  pendingEscrow s := if s = t.side then n * t.remaining else 0
  expiredLimitClaims _ := none

def uniformAbs (t : OrderTerms) (n : ℕ) : AbsBook where
  rows x := if 1 ≤ x ∧ x ≤ n then some t else none
  queue s := if s = t.side then List.range' 1 n else []
  claims _ := none
  nextId := n + 1
  escrow s := if s = t.side then n * t.remaining else 0

variable {t : OrderTerms} {n : ℕ}

theorem uniform_queue_self : (uniformAbs t n).queue t.side = List.range' 1 n := if_pos rfl

theorem uniform_queue_of_ne {s : LimitOrderSide} (hs : s ≠ t.side) :
    (uniformAbs t n).queue s = [] := if_neg hs

theorem mem_uniform_queue {s : LimitOrderSide} {x : OrderId} :
    x ∈ (uniformAbs t n).queue s ↔ s = t.side ∧ 1 ≤ x ∧ x ≤ n := by
  by_cases hs : s = t.side
  · rw [hs, uniform_queue_self, List.mem_range'_1, Nat.add_comm, Nat.lt_succ_iff]
    exact (and_iff_right rfl).symm
  · rw [uniform_queue_of_ne hs]
    exact ⟨fun hx => absurd hx (List.not_mem_nil), fun hx => absurd hx.1 hs⟩

theorem uniform_row {x : OrderId} {u : OrderTerms} :
    (uniformAbs t n).rows x = some u ↔ (1 ≤ x ∧ x ≤ n) ∧ u = t := by
  unfold uniformAbs
  by_cases hx : 1 ≤ x ∧ x ≤ n
  · simp [hx, eq_comm]
  · simp [hx]

theorem uniform_wellFormed : (uniformAbs t n).WellFormed where
  mem_queue s x := by
    rw [mem_uniform_queue]
    constructor
    · rintro ⟨rfl, hx⟩
      exact ⟨t, uniform_row.2 ⟨hx, rfl⟩, rfl⟩
    · rintro ⟨u, hu, rfl⟩
      obtain ⟨hx, rfl⟩ := uniform_row.1 hu
      exact ⟨rfl, hx⟩
  nodup s := by
    by_cases hs : s = t.side
    · rw [hs, uniform_queue_self]
      exact List.nodup_range'
    · rw [uniform_queue_of_ne hs]
      exact List.nodup_nil
  sorted s := by
    apply List.pairwise_of_forall
    intro x y u hu v hv
    obtain ⟨-, rfl⟩ := uniform_row.1 hu
    obtain ⟨-, rfl⟩ := uniform_row.1 hv
    exact not_better_self
  row_lt x u hu := by
    obtain ⟨hx, -⟩ := uniform_row.1 hu
    exact Nat.lt_succ_of_le hx.2
  claim_lt x r hr := by cases hr
  disjoint x u _ := rfl

theorem uniform_linked {m k : ℕ} {p : Option OrderId} (hk : 1 ≤ k) (hend : k + m = n + 1)
    (hp : p = if k = 1 then none else some (k - 1)) :
    Seg (uniformBook t n).links p (List.range' k m) none := by
  induction m generalizing k p with
  | zero => exact trivial
  | succ m ih =>
      rw [List.range'_succ]
      refine ⟨?_, ih (Nat.succ_le_succ (Nat.zero_le k)) (by omega) ?_⟩
      · have hin : 1 ≤ k ∧ k ≤ n := ⟨hk, by omega⟩
        have hnext : (List.range' (k + 1) m).head? = if k = n then none else some (k + 1) := by
          cases m with
          | zero => rw [if_pos (by omega)]; rfl
          | succ m => rw [if_neg (by omega)]; rfl
        simp only [Book.links, uniformBook, if_pos hin, Option.map_some, hnext, Option.or_none, hp]
      · rw [if_neg (by omega)]
        rfl

theorem uniform_represents (hn : n + 1 ≤ u64Max) :
    Represents (uniformBook t n) (uniformAbs t n) where
  rows := by
    funext x
    unfold Book.terms uniformBook uniformAbs
    by_cases hx : 1 ≤ x ∧ x ≤ n
    · simp [hx]
    · simp [hx]
  claims := rfl
  nextId := rfl
  bounded := hn
  escrow := rfl
  head s := by
    unfold uniformBook uniformAbs
    by_cases hs : s = t.side
    · cases n with
      | zero => simp
      | succ n => simp [hs, List.range'_succ]
    · simp [hs]
  linked s := by
    by_cases hs : s = t.side
    · rw [hs, uniform_queue_self]
      exact uniform_linked le_rfl (Nat.add_comm 1 n) rfl
    · rw [uniform_queue_of_ne hs]
      exact trivial
  wf := uniform_wellFormed

/-- The stored counters of a uniform book are exact. -/
theorem uniform_balanced : (uniformAbs t n).Balanced := by
  intro s
  have hat : ∀ x : ℕ, (uniformAbs t n).heldAt s (x + 1) = if x < n then t.escrowOn s else 0 := by
    intro x
    unfold AbsBook.heldAt uniformAbs
    by_cases hx : x < n
    · have hin : 1 ≤ x + 1 ∧ x + 1 ≤ n := by omega
      simp [hx, hin]
    · have hout : ¬(1 ≤ x + 1 ∧ x + 1 ≤ n) := by omega
      simp [hx]
  have hzero : (uniformAbs t n).heldAt s 0 = 0 := by simp [AbsBook.heldAt, uniformAbs]
  have hsum : (uniformAbs t n).held s = n * t.escrowOn s := by
    change ∑ x ∈ range (n + 1), (uniformAbs t n).heldAt s x = _
    rw [sum_range_succ', hzero, Nat.add_zero,
      sum_const_nat fun x hx => (hat x).trans (if_pos (mem_range.1 hx)), card_range]
  rw [hsum]
  unfold OrderTerms.escrowOn uniformAbs
  by_cases hs : s = t.side
  · simp [hs]
  · simp [hs, Ne.symm hs]

end Cl8yDex
