import Mathlib.Algebra.BigOperators.Finprod
import Mathlib.Tactic.Common

/-!
# Holdings

A ledger gives every owner an amount, and all but finitely many of them nothing. The total is a
sum over all owners, so that a movement of amounts moves it without a list of who holds what.
-/

namespace Holdings

universe u

variable {α : Type u} {f g f' : α → ℕ} {total m n : ℕ}

/-- Finitely many owners hold `total` between them. -/
structure Sums (f : α → ℕ) (total : ℕ) : Prop where
  finite : (Function.support f).Finite
  sum : finsum f = total

theorem Sums.zero : Sums (fun _ : α => 0) 0 :=
  ⟨by rw [Function.support_fun_zero]; exact Set.finite_empty, finsum_zero⟩

theorem Sums.add (hf : Sums f m) (hg : Sums g n) : Sums (fun a => f a + g a) (m + n) := by
  constructor
  · exact (hf.finite.union hg.finite).subset (Function.support_add f g)
  · rw [finsum_add_distrib hf.finite hg.finite, hf.sum, hg.sum]

/-- A movement takes some amounts and gives others. -/
theorem Sums.moves {taken given : α → ℕ} (h : Sums f total) (htaken : Sums taken m)
    (hgiven : Sums given n) (hmove : ∀ a, f' a + taken a = f a + given a) :
    m ≤ total + n ∧ Sums f' (total + n - m) := by
  have hall := h.add hgiven
  have hfin : (Function.support f').Finite := by
    apply hall.finite.subset
    intro a ha
    have hne : f' a ≠ 0 := ha
    have hm := hmove a
    change f a + given a ≠ 0
    omega
  have hboth : finsum f' + m = total + n := by
    rw [← htaken.sum, ← finsum_add_distrib hfin htaken.finite, ← hall.sum]
    exact finsum_congr hmove
  exact ⟨by omega, hfin, by omega⟩

variable [DecidableEq α]

theorem Sums.single (a : α) (n : ℕ) : Sums (fun b => if b = a then n else 0) n := by
  constructor
  · apply (Set.finite_singleton a).subset
    intro b hb
    by_contra hne
    exact hb (if_neg hne)
  · rw [finsum_eq_single _ a fun b hb => if_neg hb, if_pos rfl]

end Holdings
