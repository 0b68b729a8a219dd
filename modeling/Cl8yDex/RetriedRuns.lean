import Mathlib.Data.List.Basic

/-!
# Runs that are cut short and tried again

A run applies operations in order. An operation that was applied is settled: applying it again does
nothing, until another one revives it. Where no operation revives one before it, attempts that were
cut short anywhere change nothing about the full run that follows them.
-/

namespace Cl8yDex

/-- Operations on a state that are settled once applied. -/
structure Absorbing (σ ω : Type) where
  apply : σ → ω → σ
  Settled : ω → σ → Prop
  Revives : ω → ω → Prop
  settles : ∀ s o, Settled o (apply s o)
  absorbs : ∀ s o, Settled o s → apply s o = s
  keeps : ∀ s o o', Settled o s → ¬ Revives o' o → Settled o (apply s o')

namespace Absorbing

variable {σ ω : Type} (A : Absorbing σ ω) {s : σ} {o : ω} {ops : List ω}

def run (s : σ) (ops : List ω) : σ := ops.foldl A.apply s

/-- Attempts at a run, each cut short after some of its operations. -/
def retries (ops : List ω) (attempts : List ℕ) (s : σ) : σ :=
  attempts.foldl (fun s n => A.run s (ops.take n)) s

/-- No operation of the run revives one before it. -/
def Forward (ops : List ω) : Prop := ops.Pairwise fun o o' => ¬ A.Revives o' o

theorem run_append (ops ops' : List ω) : A.run s (ops ++ ops') = A.run (A.run s ops) ops' :=
  List.foldl_append

theorem settled_run (hs : A.Settled o s) (h : ∀ o' ∈ ops, ¬ A.Revives o' o) :
    A.Settled o (A.run s ops) := by
  induction ops generalizing s with
  | nil => exact hs
  | cons o' ops ih =>
    obtain ⟨hfirst, hrest⟩ := List.forall_mem_cons.1 h
    exact ih (A.keeps s o o' hs hfirst) hrest

theorem run_settles (h : A.Forward ops) : ∀ o ∈ ops, A.Settled o (A.run s ops) := by
  induction ops generalizing s with
  | nil => simp
  | cons o ops ih =>
    obtain ⟨hfirst, hrest⟩ := List.pairwise_cons.1 h
    have hsettled : A.Settled o (A.run (A.apply s o) ops) :=
      A.settled_run (A.settles s o) hfirst
    exact List.forall_mem_cons.2 ⟨hsettled, ih hrest⟩

theorem run_of_settled (h : ∀ o ∈ ops, A.Settled o s) : A.run s ops = s := by
  induction ops with
  | nil => rfl
  | cons o ops ih =>
    obtain ⟨hfirst, hrest⟩ := List.forall_mem_cons.1 h
    have hhead : A.run s (o :: ops) = A.run (A.apply s o) ops := rfl
    rw [hhead, A.absorbs s o hfirst]
    exact ih hrest

/-- A second attempt continues where the first one stopped, or does nothing. -/
theorem run_take_take (h : A.Forward ops) (k n : ℕ) :
    A.run (A.run s (ops.take k)) (ops.take n) = A.run s (ops.take (max k n)) := by
  have hsettled := @run_settles σ ω A s (ops.take k) (h.sublist (List.take_sublist k ops))
  rcases Nat.le_total n k with hle | hle
  · rw [Nat.max_eq_left hle]
    refine A.run_of_settled fun o ho => hsettled o ?_
    exact List.take_subset_take_left ops hle ho
  · have hsplit : ops.take n = ops.take k ++ (ops.take n).drop k := by
      conv_lhs => rw [← List.take_append_drop k (ops.take n), List.take_take, Nat.min_eq_left hle]
    rw [Nat.max_eq_right hle]
    conv_lhs => rw [hsplit, run_append, A.run_of_settled hsettled, ← run_append, ← hsplit]

theorem retries_take (h : A.Forward ops) (attempts : List ℕ) (k : ℕ) :
    A.retries ops attempts (A.run s (ops.take k)) =
      A.run s (ops.take (attempts.foldl max k)) := by
  induction attempts generalizing k with
  | nil => rfl
  | cons n attempts ih =>
    have hhead : A.retries ops (n :: attempts) (A.run s (ops.take k)) =
        A.retries ops attempts (A.run (A.run s (ops.take k)) (ops.take n)) := rfl
    rw [hhead, A.run_take_take h, ih, List.foldl_cons]

/-- A full run after any attempts ends as if it had been the first. -/
theorem run_retries (h : A.Forward ops) (attempts : List ℕ) :
    A.run (A.retries ops attempts s) ops = A.run s ops := by
  have hattempts := @retries_take σ ω A s ops h attempts 0
  have hfull := @run_take_take σ ω A s ops h (attempts.foldl max 0) ops.length
  have hall : ops.take (max (attempts.foldl max 0) ops.length) = ops :=
    List.take_of_length_le (Nat.le_max_right _ _)
  rw [hall, List.take_length] at hfull
  rw [List.take_zero] at hattempts
  rw [show A.retries ops attempts s = _ from hattempts, hfull]

end Absorbing

end Cl8yDex
