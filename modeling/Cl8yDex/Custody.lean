import Cl8yDex.PriceTimeFacts
import Mathlib.Algebra.BigOperators.Group.Finset.Basic
import Mathlib.Algebra.BigOperators.Group.Finset.Piecewise
import Mathlib.Algebra.BigOperators.Intervals
import Mathlib.Algebra.Order.BigOperators.Group.Finset

/-!
# Custody of the escrowed tokens

What the book owes on a side is the sum of the remainders of its resting and parked orders. Every
act is labelled with the amounts it takes in and pays out, so custody is conserved act by act, for
one order and for a whole side.
-/

namespace Cl8yDex

open Finset

def OrderTerms.escrowOn (t : OrderTerms) (s : LimitOrderSide) : ℕ :=
  if t.side = s then t.remaining else 0

def ExpiredLimitRefund.escrowOn (r : ExpiredLimitRefund) (s : LimitOrderSide) : ℕ :=
  if r.side = s then r.remaining else 0

namespace AbsBook

/-- What is owed on side `s` for the order `x`, resting or parked. -/
def heldAt (A : AbsBook) (s : LimitOrderSide) (x : OrderId) : ℕ :=
  (A.rows x).elim 0 (fun t => t.escrowOn s) + (A.claims x).elim 0 (fun r => r.escrowOn s)

def held (A : AbsBook) (s : LimitOrderSide) : ℕ := ∑ x ∈ range A.nextId, A.heldAt s x

/-- The stored counters are exact. -/
def Balanced (A : AbsBook) : Prop := ∀ s, A.escrow s = A.held s

end AbsBook

namespace Act

/-- The act names the order `x`. -/
def Touches (x : OrderId) : Act → Prop
  | place y _ | reprice y _ | fill _ y _ _ | drop y | park y _ _ | cancel _ y _ | claim _ y _ =>
      y = x
  | _ => False

/-- What the act takes in on side `s` for the order `x`. -/
def received (s : LimitOrderSide) (x : OrderId) : Act → ℕ
  | place y t => if y = x then t.escrowOn s else 0
  | _ => 0

/-- What the act pays out on side `s` for the order `x`. -/
def released (s : LimitOrderSide) (x : OrderId) : Act → ℕ
  | fill s' y _ n | cancel s' y n | claim s' y n => if y = x then if s' = s then n else 0 else 0
  | _ => 0

def receivedOn (s : LimitOrderSide) : Act → ℕ
  | place _ t => t.escrowOn s
  | _ => 0

def releasedOn (s : LimitOrderSide) : Act → ℕ
  | fill s' _ _ n | cancel s' _ n | claim s' _ n => if s' = s then n else 0
  | _ => 0

/-- What the act adds to the stored counter of side `s`. -/
def booked (s : LimitOrderSide) : Act → ℕ
  | escrowAdd s' n => if s' = s then n else 0
  | _ => 0

def unbooked (s : LimitOrderSide) : Act → ℕ
  | escrowSub s' n => if s' = s then n else 0
  | _ => 0

end Act

section Totals

variable {α : Type}

def totalOf (f : α → ℕ) (l : List α) : ℕ := (l.map f).sum

@[simp] theorem totalOf_nil (f : α → ℕ) : totalOf f [] = 0 := rfl

@[simp] theorem totalOf_cons (f : α → ℕ) (a : α) (l : List α) :
    totalOf f (a :: l) = f a + totalOf f l := rfl

@[simp] theorem totalOf_append (f : α → ℕ) (l r : List α) :
    totalOf f (l ++ r) = totalOf f l + totalOf f r := by
  simp [totalOf]

theorem totalOf_eq_zero {f : α → ℕ} {l : List α} (h : ∀ a ∈ l, f a = 0) : totalOf f l = 0 := by
  refine List.sum_eq_zero fun n hn => ?_
  obtain ⟨a, ha, rfl⟩ := List.mem_map.1 hn
  exact h a ha

theorem totalOf_congr {f g : α → ℕ} {l : List α} (h : ∀ a ∈ l, f a = g a) :
    totalOf f l = totalOf g l := congrArg List.sum (List.map_congr_left h)

end Totals

namespace AbsBook

variable {A B : AbsBook} {s : LimitOrderSide} {x : OrderId} {t : OrderTerms}

theorem heldAt_of_row (hwf : A.WellFormed) (hrow : A.rows x = some t) :
    A.heldAt s x = t.escrowOn s := by
  simp [heldAt, hrow, hwf.disjoint x t hrow]

theorem rows_of_claim {r : ExpiredLimitRefund} (hwf : A.WellFormed) (hr : A.claims x = some r) :
    A.rows x = none := by
  by_contra hne
  obtain ⟨t, ht⟩ := Option.ne_none_iff_exists'.1 hne
  simp [hwf.disjoint x t ht] at hr

theorem heldAt_of_claim {r : ExpiredLimitRefund} (hwf : A.WellFormed) (hr : A.claims x = some r) :
    A.heldAt s x = r.escrowOn s := by
  simp [heldAt, rows_of_claim hwf hr, hr]

/-- Nothing is owed for an id that was never handed out. -/
theorem heldAt_of_le (hwf : A.WellFormed) (hx : A.nextId ≤ x) : A.heldAt s x = 0 := by
  have hrow : A.rows x = none := by
    by_contra hne
    obtain ⟨t, ht⟩ := Option.ne_none_iff_exists'.1 hne
    exact absurd (hwf.row_lt x t ht) (not_lt.2 hx)
  have hclaim : A.claims x = none := by
    by_contra hne
    obtain ⟨r, hr⟩ := Option.ne_none_iff_exists'.1 hne
    exact absurd (hwf.claim_lt x r hr) (not_lt.2 hx)
  simp [heldAt, hrow, hclaim]

theorem heldAt_congr (hrow : B.rows x = A.rows x) (hclaim : B.claims x = A.claims x) :
    B.heldAt s x = A.heldAt s x := by
  simp [heldAt, hrow, hclaim]

theorem heldAt_le_held (hwf : A.WellFormed) : A.heldAt s x ≤ A.held s := by
  rcases lt_or_ge x A.nextId with hx | hx
  · exact single_le_sum (f := fun x => A.heldAt s x) (fun _ _ => Nat.zero_le _) (mem_range.2 hx)
  · simp [heldAt_of_le hwf hx]

theorem remaining_le_held (hwf : A.WellFormed) (hrow : A.rows x = some t) :
    t.remaining ≤ A.held t.side := by
  have h := heldAt_le_held (s := t.side) (x := x) hwf
  rwa [heldAt_of_row hwf hrow, OrderTerms.escrowOn, if_pos rfl] at h

end AbsBook

section Conservation

open AbsBook

variable {A B : AbsBook} {s : LimitOrderSide} {x : OrderId} {a : Act} {l : List Act}

/-- An act leaves every order alone that it does not name. -/
theorem Step.frame (h : Step A a B) (hx : ¬a.Touches x) :
    B.rows x = A.rows x ∧ B.claims x = A.claims x := by
  cases h with
  | place y t => exact ⟨place_rows_of_ne (Ne.symm hx), rfl⟩
  | reprice y t p =>
      exact ⟨(place_rows_of_ne (Ne.symm hx)).trans (withdraw_rows_of_ne (Ne.symm hx)), rfl⟩
  | fill y t => exact ⟨putRow_rows_of_ne (Ne.symm hx), rfl⟩
  | drop y t => exact ⟨withdraw_rows_of_ne (Ne.symm hx), rfl⟩
  | park y t =>
      exact ⟨withdraw_rows_of_ne (s := t.side) (Ne.symm hx), Function.update_of_ne (Ne.symm hx) _ _⟩
  | cancel y t => exact ⟨withdraw_rows_of_ne (Ne.symm hx), rfl⟩
  | claim y r => exact ⟨rfl, Function.update_of_ne (Ne.symm hx) _ _⟩
  | _ => exact ⟨rfl, rfl⟩

theorem Act.amounts_of_not_touches (hx : ¬a.Touches x) :
    a.released s x = 0 ∧ a.received s x = 0 := by
  cases a with
  | place y t => exact ⟨rfl, if_neg hx⟩
  | fill s' y paid n => exact ⟨if_neg hx, rfl⟩
  | cancel s' y n => exact ⟨if_neg hx, rfl⟩
  | claim s' y n => exact ⟨if_neg hx, rfl⟩
  | _ => exact ⟨rfl, rfl⟩

/-- Custody of one order over one act. -/
theorem Step.heldAt (h : Step A a B) (hwf : A.WellFormed) :
    B.heldAt s x + a.released s x = A.heldAt s x + a.received s x := by
  have hwf' := hwf.step h
  by_cases hx : a.Touches x
  · cases h with
    | place y t hrow hclaim hlt =>
        obtain rfl : y = x := hx
        rw [heldAt_of_row hwf' place_rows_self]
        simp [AbsBook.heldAt, hrow, hclaim, Act.received, Act.released]
    | reprice y t p hrow hp =>
        obtain rfl : y = x := hx
        rw [heldAt_of_row hwf' place_rows_self, heldAt_of_row hwf hrow]
        rfl
    | fill y t paid taken hrow hprice hle =>
        obtain rfl : y = x := hx
        rw [heldAt_of_row hwf' (Function.update_self y _ A.rows), heldAt_of_row hwf hrow]
        by_cases hs : t.side = s
        · simp only [OrderTerms.escrowOn, Act.released, Act.received, if_pos hs, if_true]
          omega
        · simp [OrderTerms.escrowOn, Act.released, Act.received, hs]
    | drop y t hrow hzero =>
        obtain rfl : y = x := hx
        rw [heldAt_of_row hwf hrow]
        simp [AbsBook.heldAt, hwf.disjoint y t hrow, AbsBook.withdraw, Act.released, Act.received,
          OrderTerms.escrowOn, hzero]
    | park y t reason expiresAt hrow hexp =>
        obtain rfl : y = x := hx
        rw [heldAt_of_row hwf hrow, heldAt_of_claim hwf' (Function.update_self y _ A.claims)]
        rfl
    | cancel y t hrow =>
        obtain rfl : y = x := hx
        rw [heldAt_of_row hwf hrow]
        simp [AbsBook.heldAt, hwf.disjoint y t hrow, AbsBook.withdraw, Act.released, Act.received,
          OrderTerms.escrowOn]
    | claim y r hr =>
        obtain rfl : y = x := hx
        rw [heldAt_of_claim hwf hr]
        simp [AbsBook.heldAt, rows_of_claim hwf hr, AbsBook.putClaim, Act.released, Act.received,
          ExpiredLimitRefund.escrowOn]
    | _ => exact absurd hx id
  · obtain ⟨hrow, hclaim⟩ := h.frame hx
    obtain ⟨hout, hin⟩ := Act.amounts_of_not_touches (s := s) hx
    rw [heldAt_congr hrow hclaim, hout, hin]

theorem Step.nextId_le (h : Step A a B) : A.nextId ≤ B.nextId := by
  cases h with
  | reserve count => exact Nat.le_add_right _ _
  | _ => exact le_rfl

theorem held_eq_sum {n : ℕ} (hwf : A.WellFormed) (hn : A.nextId ≤ n) :
    A.held s = ∑ x ∈ range n, A.heldAt s x :=
  sum_subset (range_subset_range.2 hn) fun _ _ hx =>
    heldAt_of_le hwf (not_lt.1 fun hlt => hx (mem_range.2 hlt))

/-- The amounts of an act belong to one id that is already handed out. -/
theorem Step.sum_released (h : Step A a B) (hwf : A.WellFormed) :
    ∑ x ∈ range B.nextId, a.released s x = a.releasedOn s := by
  cases h with
  | fill y t paid taken hrow hprice hle =>
      have hy : y ∈ range (A.putRow y { t with remaining := t.remaining - taken }).nextId :=
        mem_range.2 (hwf.row_lt y t hrow)
      simp only [Act.released, Act.releasedOn]
      rw [sum_ite_eq, if_pos hy]
  | cancel y t hrow =>
      have hy : y ∈ range (A.withdraw t.side y).nextId := mem_range.2 (hwf.row_lt y t hrow)
      simp only [Act.released, Act.releasedOn]
      rw [sum_ite_eq, if_pos hy]
  | claim y r hr =>
      have hy : y ∈ range (A.putClaim y none).nextId := mem_range.2 (hwf.claim_lt y r hr)
      simp only [Act.released, Act.releasedOn]
      rw [sum_ite_eq, if_pos hy]
  | _ => exact sum_const_zero

theorem Step.sum_received (h : Step A a B) :
    ∑ x ∈ range B.nextId, a.received s x = a.receivedOn s := by
  cases h with
  | place y t hrow hclaim hlt =>
      have hy : y ∈ range (A.place y t).nextId := mem_range.2 hlt
      simp only [Act.received, Act.receivedOn]
      rw [sum_ite_eq, if_pos hy]
  | _ => exact sum_const_zero

/-- Custody of a side over one act. -/
theorem Step.held (h : Step A a B) (hwf : A.WellFormed) :
    B.held s + a.releasedOn s = A.held s + a.receivedOn s := by
  rw [held_eq_sum hwf h.nextId_le, held_eq_sum (hwf.step h) le_rfl, ← h.sum_released hwf,
    ← h.sum_received, ← sum_add_distrib, ← sum_add_distrib]
  exact sum_congr rfl fun _ _ => h.heldAt hwf

theorem Step.escrow (h : Step A a B) : B.escrow s + a.unbooked s = A.escrow s + a.booked s := by
  cases h with
  | escrowAdd s' amount =>
      by_cases hs : s' = s
      · subst hs
        simp [AbsBook.putEscrow, Act.booked, Act.unbooked]
      · simp [AbsBook.putEscrow, Act.booked, Act.unbooked, hs, Ne.symm hs]
  | escrowSub s' amount hle =>
      by_cases hs : s' = s
      · subst hs
        simp only [AbsBook.putEscrow, Function.update_self, Act.unbooked, Act.booked, if_true]
        omega
      · simp [AbsBook.putEscrow, Act.booked, Act.unbooked, hs, Ne.symm hs]
  | _ => rfl

/-- Custody of a side over a sequence of acts. -/
theorem Run.held (h : Run A l B) (hwf : A.WellFormed) :
    B.held s + totalOf (Act.releasedOn s) l = A.held s + totalOf (Act.receivedOn s) l := by
  induction h with
  | nil A => rfl
  | cons h _ ih =>
      have h1 := h.held (s := s) hwf
      have h2 := ih (hwf.step h)
      rw [totalOf_cons, totalOf_cons]
      omega

theorem Run.escrow (h : Run A l B) :
    B.escrow s + totalOf (Act.unbooked s) l = A.escrow s + totalOf (Act.booked s) l := by
  induction h with
  | nil A => rfl
  | cons h _ ih =>
      have h1 := h.escrow (s := s)
      rw [totalOf_cons, totalOf_cons]
      omega

/-- The operation books exactly what it takes in and unbooks exactly what it pays out. -/
def Settled (l : List Act) : Prop :=
  ∀ s, totalOf (Act.booked s) l + totalOf (Act.releasedOn s) l =
    totalOf (Act.unbooked s) l + totalOf (Act.receivedOn s) l

/-- A settled operation keeps the counters exact. -/
theorem Run.balanced (h : Run A l B) (hwf : A.WellFormed) (hl : Settled l) (hA : A.Balanced) :
    B.Balanced := by
  intro s
  have h1 := h.held (s := s) hwf
  have h2 := h.escrow (s := s)
  have h3 := hl s
  have h4 := hA s
  omega

end Conservation

end Cl8yDex
