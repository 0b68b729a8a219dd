import Mathlib.Order.Lattice
import Mathlib.Algebra.BigOperators.Group.Finset.Basic
import Mathlib.Algebra.BigOperators.Group.Finset.Piecewise
import Mathlib.Data.Finset.Sort
import Cl8yDex.StableGroups

/-!
# Open, high, low and close of a series

The quadruple of a list of prices, the combination of the quadruples of two lists that follow
each other, and the sums and quadruples of a list that is cut into consecutive groups.
-/

namespace OpenHighLowClose

variable {α : Type*} [LinearOrder α]

structure Ohlc (α : Type*) where
  opening : α
  high : α
  low : α
  closing : α
  deriving DecidableEq

def single (price : α) : Ohlc α := ⟨price, price, price, price⟩

/-- The quadruple of two series, the second after the first. -/
def Ohlc.combine (first second : Ohlc α) : Ohlc α :=
  ⟨first.opening, max first.high second.high, min first.low second.low, second.closing⟩

theorem combine_assoc (a b c : Ohlc α) : (a.combine b).combine c = a.combine (b.combine c) := by
  simp [Ohlc.combine, max_assoc, min_assoc]

def join : Option (Ohlc α) → Option (Ohlc α) → Option (Ohlc α)
  | none, second => second
  | first, none => first
  | some first, some second => some (first.combine second)

@[simp] theorem join_none_left (second : Option (Ohlc α)) : join none second = second := by
  cases second <;> rfl

@[simp] theorem join_none_right (first : Option (Ohlc α)) : join first none = first := by
  cases first <;> rfl

theorem join_assoc (a b c : Option (Ohlc α)) : join (join a b) c = join a (join b c) := by
  cases a <;> cases b <;> cases c <;> simp [join, combine_assoc]

/-- First open, highest high, lowest low and last close of series that follow each other. -/
def aggregate (series : List (Ohlc α)) : Option (Ohlc α) :=
  series.foldl (fun total next => join total (some next)) none

def ofPrices (prices : List α) : Option (Ohlc α) := aggregate (prices.map single)

theorem foldl_join (series : List (Ohlc α)) (total : Option (Ohlc α)) :
    series.foldl (fun total next => join total (some next)) total =
      join total (aggregate series) := by
  induction series generalizing total with
  | nil => simp [aggregate]
  | cons next series ih =>
    have hone : aggregate (next :: series) = join (some next) (aggregate series) := by
      unfold aggregate
      rw [List.foldl_cons, ih, join_none_left, ← aggregate]
    rw [List.foldl_cons, ih, hone, join_assoc]

theorem aggregate_cons (next : Ohlc α) (series : List (Ohlc α)) :
    aggregate (next :: series) = join (some next) (aggregate series) := by
  rw [← foldl_join]
  rfl

theorem aggregate_append (first second : List (Ohlc α)) :
    aggregate (first ++ second) = join (aggregate first) (aggregate second) := by
  unfold aggregate
  rw [List.foldl_append, foldl_join]
  rfl

theorem ofPrices_append (first second : List α) :
    ofPrices (first ++ second) = join (ofPrices first) (ofPrices second) := by
  rw [ofPrices, List.map_append, aggregate_append]
  rfl

/-- The quadruple of a list that is made of consecutive parts is the aggregate of theirs. -/
theorem ofPrices_flatMap {κ : Type*} (parts : List κ) (prices : κ → List α) :
    ofPrices (parts.flatMap prices) =
      aggregate (parts.filterMap fun part => ofPrices (prices part)) := by
  induction parts with
  | nil => rfl
  | cons part parts ih =>
    rw [List.flatMap_cons, ofPrices_append, ih]
    rw [List.filterMap_cons]
    cases ofPrices (prices part) with
    | none => exact join_none_left _
    | some quadruple => exact (aggregate_cons quadruple _).symm

theorem ofPrices_cons (price : α) (prices : List α) :
    ofPrices (price :: prices) = join (some (single price)) (ofPrices prices) := by
  rw [ofPrices, List.map_cons, aggregate_cons]
  rfl

theorem ofPrices_eq_none {prices : List α} (h : ofPrices prices = none) : prices = [] := by
  cases prices with
  | nil => rfl
  | cons price prices =>
    rw [ofPrices_cons] at h
    cases hrest : ofPrices prices with
    | none =>
      rw [hrest, join_none_right] at h
      cases h
    | some rest =>
      rw [hrest] at h
      cases h

/-- The quadruple has the first price, the maximum, the minimum and the last price. -/
theorem ofPrices_eq_some {prices : List α} {quadruple : Ohlc α}
    (h : ofPrices prices = some quadruple) :
    prices.head? = some quadruple.opening ∧ prices.max? = some quadruple.high ∧
      prices.min? = some quadruple.low ∧ prices.getLast? = some quadruple.closing := by
  induction prices generalizing quadruple with
  | nil => cases h
  | cons price prices ih =>
    rw [ofPrices_cons] at h
    cases hrest : ofPrices prices with
    | none =>
      have hnil := ofPrices_eq_none hrest
      subst hnil
      cases h
      exact ⟨rfl, rfl, rfl, rfl⟩
    | some rest =>
      obtain ⟨-, hhigh, hlow, hclose⟩ := ih hrest
      rw [hrest] at h
      cases h
      rw [List.max?_cons, List.min?_cons, List.getLast?_cons, hhigh, hlow, hclose]
      exact ⟨rfl, rfl, rfl, rfl⟩

/-- A sum over a list is the sum over its groups. -/
theorem sum_groups {β κ M : Type*} [DecidableEq κ] [AddCommMonoid M] (key : β → κ) (w : β → M)
    (keys : Finset κ) (l : List β) (h : ∀ b ∈ l, key b ∈ keys) :
    ∑ k ∈ keys, ((StableGroups.group key l k).map w).sum = (l.map w).sum := by
  induction l with
  | nil => simp [StableGroups.group]
  | cons b l ih =>
    have hrest := ih fun other hmem => h other (List.mem_cons_of_mem _ hmem)
    have hgroups : ∀ k, ((StableGroups.group key (b :: l) k).map w).sum =
        (if key b = k then w b else 0) + ((StableGroups.group key l k).map w).sum := by
      intro k
      unfold StableGroups.group
      by_cases hk : key b = k <;> simp [hk]
    simp only [hgroups, Finset.sum_add_distrib, hrest, Finset.sum_ite_eq, List.map_cons,
      List.sum_cons]
    rw [if_pos (h b List.mem_cons_self)]

end OpenHighLowClose
