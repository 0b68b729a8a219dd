import Cl8yDex.Book
import Cl8yDex.TailQueue
import Mathlib.Logic.Relation

/-!
# The abstract book: two queues in price-time priority

An `AbsBook` says what the stored book is for. Each side is a queue of order ids, best price first
and first come first served within a price; parked orders wait in a separate map. The acts are the
only ways custody moves, and every operation of the contract is a sequence of them.
-/

namespace Cl8yDex

structure AbsBook where
  rows : OrderId → Option OrderTerms
  queue : LimitOrderSide → List OrderId
  claims : OrderId → Option ExpiredLimitRefund
  nextId : OrderId
  escrow : LimitOrderSide → ℕ

/-- `p` is a strictly better quote than `q` for the taker. -/
def better : LimitOrderSide → Decimal → Decimal → Prop
  | .bid, p, q => q < p
  | .ask, p, q => p < q

instance : ∀ (side : LimitOrderSide) (p q : Decimal), Decidable (better side p q)
  | .bid, p, q => inferInstanceAs (Decidable (q < p))
  | .ask, p, q => inferInstanceAs (Decidable (p < q))

section Better

variable {s : LimitOrderSide} {p q r : Decimal} {x y : OrderId}

@[simp] theorem not_better_self : ¬better s p p := by cases s <;> exact lt_irrefl p

theorem not_better_trans (h : ¬better s q p) (h' : ¬better s r q) : ¬better s r p := by
  cases s
  · exact not_lt.2 ((not_lt.1 h').trans (not_lt.1 h))
  · exact not_lt.2 ((not_lt.1 h).trans (not_lt.1 h'))

theorem better_asymm (h : better s p q) : ¬better s q p := by
  cases s
  · exact lt_asymm h
  · exact lt_asymm h

theorem eq_of_not_better (h : ¬better s p q) (h' : ¬better s q p) : p = q := by
  cases s
  · exact le_antisymm (not_lt.1 h) (not_lt.1 h')
  · exact le_antisymm (not_lt.1 h') (not_lt.1 h)

theorem before_iff : before s p x q y ↔ better s p q ∨ p = q ∧ x < y := by
  cases s <;> exact Iff.rfl

/-- Against an id above every equal-price resident, only a strictly better quote goes ahead. -/
theorem before_newcomer_iff (h : p = q → x < y) : before s p x q y ↔ ¬better s q p := by
  rw [before_iff]
  constructor
  · rintro (hb | ⟨rfl, -⟩)
    · exact better_asymm hb
    · exact not_better_self
  · intro hn
    by_cases hb : better s p q
    · exact .inl hb
    · have he := eq_of_not_better hb hn
      exact .inr ⟨he, h he⟩

theorem newcomer_before_iff (h : p = q → x < y) : before s q y p x ↔ better s q p := by
  rw [before_iff]
  constructor
  · rintro (hb | ⟨rfl, hlt⟩)
    · exact hb
    · exact absurd hlt (h rfl).le.not_gt
  · exact .inl

end Better

namespace AbsBook

def initial : AbsBook where
  rows _ := none
  queue _ := []
  claims _ := none
  nextId := 1
  escrow _ := 0

/-- The resident quotes at least as well as `p`, so a newcomer at `p` queues behind it. -/
def StaysAhead (A : AbsBook) (s : LimitOrderSide) (p : Decimal) (x : OrderId) : Prop :=
  ∃ t ∈ A.rows x, ¬better s p t.price

instance (A : AbsBook) (s : LimitOrderSide) (p : Decimal) (x : OrderId) :
    Decidable (A.StaysAhead s p x) :=
  match h : A.rows x with
  | none => isFalse (by simp [StaysAhead, h])
  | some t => decidable_of_iff (¬better s p t.price) (by simp [StaysAhead, h])

/-- The queue once `x` has joined at price `p`. -/
def enqueue (A : AbsBook) (s : LimitOrderSide) (p : Decimal) (x : OrderId) : List OrderId :=
  TailQueue.join (A.StaysAhead s p) x (A.queue s)

/-- The book without the resting order `x`. -/
def withdraw (A : AbsBook) (s : LimitOrderSide) (x : OrderId) : AbsBook :=
  { A with
    rows := Function.update A.rows x none
    queue := Function.update A.queue s ((A.queue s).erase x) }

def putRow (A : AbsBook) (x : OrderId) (t : OrderTerms) : AbsBook :=
  { A with rows := Function.update A.rows x (some t) }

def place (A : AbsBook) (x : OrderId) (t : OrderTerms) : AbsBook :=
  { A with
    rows := Function.update A.rows x (some t)
    queue := Function.update A.queue t.side (A.enqueue t.side t.price x) }

def putClaim (A : AbsBook) (x : OrderId) (row : Option ExpiredLimitRefund) : AbsBook :=
  { A with claims := Function.update A.claims x row }

def putEscrow (A : AbsBook) (s : LimitOrderSide) (n : ℕ) : AbsBook :=
  { A with escrow := Function.update A.escrow s n }

/-- `Live`, sorted, disjoint from the claims, with every id already handed out. -/
structure WellFormed (A : AbsBook) : Prop where
  mem_queue : ∀ s x, x ∈ A.queue s ↔ ∃ t ∈ A.rows x, t.side = s
  nodup : ∀ s, (A.queue s).Nodup
  sorted : ∀ s, (A.queue s).Pairwise fun x y =>
    ∀ t ∈ A.rows x, ∀ u ∈ A.rows y, ¬better s u.price t.price
  row_lt : ∀ x t, A.rows x = some t → x < A.nextId
  claim_lt : ∀ x r, A.claims x = some r → x < A.nextId
  disjoint : ∀ x t, A.rows x = some t → A.claims x = none

end AbsBook

/-- A fill at the order's own price: one leg is the other times the price, rounded down, and
neither leg is empty. -/
def FillsAt : LimitOrderSide → Decimal → ℕ → ℕ → Prop
  | .bid, price, paid, taken =>
      0 < paid ∧ 0 < taken ∧ taken = paid * price.atomics / Decimal.fractional
  | .ask, price, paid, taken =>
      0 < paid ∧ 0 < taken ∧ paid = taken * price.atomics / Decimal.fractional

/-- The ways custody moves, each with the amounts it moves. -/
inductive Act
  | reserve (count : ℕ)
  | place (x : OrderId) (terms : OrderTerms)
  | reprice (x : OrderId) (price : Decimal)
  | fill (s : LimitOrderSide) (x : OrderId) (paid taken : ℕ)
  | drop (x : OrderId)
  | park (x : OrderId) (reason : ExpiredLimitParkReason) (expiresAt : Option ℕ)
  | cancel (s : LimitOrderSide) (x : OrderId) (amount : ℕ)
  | claim (s : LimitOrderSide) (x : OrderId) (amount : ℕ)
  | escrowAdd (s : LimitOrderSide) (amount : ℕ)
  | escrowSub (s : LimitOrderSide) (amount : ℕ)

namespace Act

/-- The acts that only let orders shrink or leave. -/
def Drains : Act → Prop
  | fill .. | drop _ | park .. | cancel .. | claim .. | escrowAdd .. | escrowSub .. => True
  | _ => False

end Act

open AbsBook in
/-- One act. A park keeps the remaining escrow, and a zeroed order is dropped without a trace. -/
inductive Step : AbsBook → Act → AbsBook → Prop
  | reserve (A : AbsBook) (count : ℕ) :
      Step A (.reserve count) { A with nextId := A.nextId + count }
  | place (A : AbsBook) (x : OrderId) (t : OrderTerms) (hrow : A.rows x = none)
      (hclaim : A.claims x = none) (hlt : x < A.nextId) : Step A (.place x t) (A.place x t)
  | reprice (A : AbsBook) (x : OrderId) (t : OrderTerms) (p : Decimal)
      (hrow : A.rows x = some t) (hp : t.price ≠ p) :
      Step A (.reprice x p) ((A.withdraw t.side x).place x { t with price := p })
  | fill (A : AbsBook) (x : OrderId) (t : OrderTerms) (paid taken : ℕ)
      (hrow : A.rows x = some t) (hprice : FillsAt t.side t.price paid taken)
      (hle : taken ≤ t.remaining) :
      Step A (.fill t.side x paid taken) (A.putRow x { t with remaining := t.remaining - taken })
  | drop (A : AbsBook) (x : OrderId) (t : OrderTerms) (hrow : A.rows x = some t)
      (hzero : t.remaining = 0) : Step A (.drop x) (A.withdraw t.side x)
  | park (A : AbsBook) (x : OrderId) (t : OrderTerms) (reason : ExpiredLimitParkReason)
      (expiresAt : Option ℕ) (hrow : A.rows x = some t)
      (hexp : expiresAt = if reason = .expired then t.expiresAt else none) :
      Step A (.park x reason expiresAt) ((A.withdraw t.side x).putClaim x
        (some ⟨t.owner, t.side, t.remaining, expiresAt, some reason⟩))
  | cancel (A : AbsBook) (x : OrderId) (t : OrderTerms) (hrow : A.rows x = some t) :
      Step A (.cancel t.side x t.remaining) (A.withdraw t.side x)
  | claim (A : AbsBook) (x : OrderId) (r : ExpiredLimitRefund) (hclaim : A.claims x = some r) :
      Step A (.claim r.side x r.remaining) (A.putClaim x none)
  | escrowAdd (A : AbsBook) (s : LimitOrderSide) (amount : ℕ) :
      Step A (.escrowAdd s amount) (A.putEscrow s (A.escrow s + amount))
  | escrowSub (A : AbsBook) (s : LimitOrderSide) (amount : ℕ) (hle : amount ≤ A.escrow s) :
      Step A (.escrowSub s amount) (A.putEscrow s (A.escrow s - amount))

/-- A sequence of acts. -/
inductive Run : AbsBook → List Act → AbsBook → Prop
  | nil (A : AbsBook) : Run A [] A
  | cons {A B C : AbsBook} {a : Act} {l : List Act} (h : Step A a B) (hr : Run B l C) :
      Run A (a :: l) C

namespace Run

variable {A B C : AbsBook} {a : Act} {l r : List Act}

theorem single (h : Step A a B) : Run A [a] B := .cons h (.nil B)

theorem append (h : Run A l B) (hr : Run B r C) : Run A (l ++ r) C := by
  induction h with
  | nil A => exact hr
  | cons h _ ih => exact .cons h (ih hr)

theorem split (h : Run A (l ++ r) C) : ∃ B, Run A l B ∧ Run B r C := by
  induction l generalizing A with
  | nil => exact ⟨A, .nil A, h⟩
  | cons a l ih =>
      cases h with
      | cons h hr =>
          obtain ⟨B, hl, hr⟩ := ih hr
          exact ⟨B, .cons h hl, hr⟩

/-- What every act keeps, every sequence keeps. -/
theorem invariant {P : AbsBook → Prop} (hstep : ∀ A a B, Step A a B → P A → P B)
    (h : Run A l B) (hA : P A) : P B := by
  induction h with
  | nil A => exact hA
  | cons h _ ih => exact ih (hstep _ _ _ h hA)

end Run

end Cl8yDex

/-!
## Invariants of the abstract book

Every act keeps the two queues well formed. The acts that only drain the book keep the order of
arrival as well, because they leave a subsequence of each queue at unchanged prices.
-/

namespace Cl8yDex

variable {A B : AbsBook} {x y : OrderId} {s : LimitOrderSide} {t u : OrderTerms}

namespace AbsBook

theorem staysAhead_iff {p : Decimal} (hrow : A.rows x = some t) :
    A.StaysAhead s p x ↔ ¬better s p t.price := by
  simp [StaysAhead, hrow]

@[simp] theorem withdraw_rows_self : (A.withdraw s x).rows x = none := by simp [withdraw]

theorem withdraw_rows_of_ne (h : y ≠ x) : (A.withdraw s x).rows y = A.rows y := by
  simp [withdraw, h]

theorem rows_of_withdraw (h : (A.withdraw s x).rows y = some t) : y ≠ x ∧ A.rows y = some t := by
  by_cases hyx : y = x
  · subst hyx
    simp at h
  · exact ⟨hyx, by rwa [withdraw_rows_of_ne hyx] at h⟩

theorem withdraw_queue_sublist (s' : LimitOrderSide) :
    ((A.withdraw s x).queue s').Sublist (A.queue s') := by
  by_cases hs : s' = s
  · subst hs
    simpa [withdraw] using List.erase_sublist
  · simp [withdraw, hs]

@[simp] theorem place_rows_self : (A.place x t).rows x = some t := by simp [place]

theorem place_rows_of_ne (h : y ≠ x) : (A.place x t).rows y = A.rows y := by simp [place, h]

theorem place_queue_self : (A.place x t).queue t.side = A.enqueue t.side t.price x := by
  simp [place]

theorem place_queue_of_ne (h : s ≠ t.side) : (A.place x t).queue s = A.queue s := by
  simp [place, h]

theorem putRow_rows_of_ne (h : y ≠ x) : (A.putRow x t).rows y = A.rows y := by simp [putRow, h]

namespace WellFormed

theorem initial : WellFormed AbsBook.initial where
  mem_queue s x := by simp [AbsBook.initial]
  nodup s := by simp [AbsBook.initial]
  sorted s := by simp [AbsBook.initial]
  row_lt x t h := by simp [AbsBook.initial] at h
  claim_lt x r h := by simp [AbsBook.initial] at h
  disjoint x t h := by simp [AbsBook.initial] at h

theorem mem_of_row (h : WellFormed A) (hrow : A.rows x = some t) : x ∈ A.queue t.side :=
  (h.mem_queue t.side x).2 ⟨t, hrow, rfl⟩

theorem row_of_mem (h : WellFormed A) (hx : x ∈ A.queue s) :
    ∃ t, A.rows x = some t ∧ t.side = s := by
  obtain ⟨t, ht, hs⟩ := (h.mem_queue s x).1 hx
  exact ⟨t, ht, hs⟩

theorem notMem_of_row (h : WellFormed A) (hrow : A.rows x = none) : x ∉ A.queue s := by
  intro hx
  obtain ⟨t, ht, -⟩ := h.row_of_mem hx
  simp [hrow] at ht

/-- In a sorted queue the members that stay ahead of a price form an initial part. -/
theorem staysAhead_mono (h : WellFormed A) (p : Decimal) :
    (A.queue s).Pairwise fun x y => A.StaysAhead s p y → A.StaysAhead s p x := by
  refine (h.sorted s).imp_of_mem fun {x y} hx hy hxy hp => ?_
  obtain ⟨t, ht, -⟩ := h.row_of_mem hx
  obtain ⟨u, hu, -⟩ := h.row_of_mem hy
  rw [staysAhead_iff hu] at hp
  rw [staysAhead_iff ht]
  exact not_better_trans (hxy t ht u hu) hp

theorem withdraw (h : WellFormed A) (hrow : A.rows x = some t) :
    WellFormed (A.withdraw t.side x) where
  mem_queue s y := by
    by_cases hs : s = t.side
    · subst hs
      have hq : (A.withdraw t.side x).queue t.side = (A.queue t.side).erase x := by
        simp [AbsBook.withdraw]
      rw [hq, (h.nodup t.side).mem_erase_iff, h.mem_queue]
      constructor
      · rintro ⟨hyx, u, hu, hs⟩
        exact ⟨u, by rwa [withdraw_rows_of_ne hyx], hs⟩
      · rintro ⟨u, hu, hs⟩
        obtain ⟨hyx, hu⟩ := rows_of_withdraw hu
        exact ⟨hyx, u, hu, hs⟩
    · have hq : (A.withdraw t.side x).queue s = A.queue s := by simp [AbsBook.withdraw, hs]
      rw [hq, h.mem_queue]
      constructor
      · rintro ⟨u, hu, rfl⟩
        have hyx : y ≠ x := by
          rintro rfl
          rw [Option.mem_def, hrow] at hu
          exact hs (by rw [Option.some.inj hu])
        exact ⟨u, by rwa [withdraw_rows_of_ne hyx], rfl⟩
      · rintro ⟨u, hu, hs⟩
        exact ⟨u, (rows_of_withdraw hu).2, hs⟩
  nodup s := (h.nodup s).sublist (withdraw_queue_sublist s)
  sorted s := ((h.sorted s).sublist (withdraw_queue_sublist s)).imp fun hxy t ht u hu =>
    hxy t (rows_of_withdraw ht).2 u (rows_of_withdraw hu).2
  row_lt y u hu := h.row_lt y u (rows_of_withdraw hu).2
  claim_lt := h.claim_lt
  disjoint y u hu := h.disjoint y u (rows_of_withdraw hu).2

theorem place (h : WellFormed A) (hrow : A.rows x = none) (hclaim : A.claims x = none)
    (hlt : x < A.nextId) : WellFormed (A.place x t) where
  mem_queue s y := by
    by_cases hyx : y = x
    · subst hyx
      by_cases hs : s = t.side
      · subst hs
        simp [place_queue_self, enqueue]
      · rw [place_queue_of_ne hs]
        simp only [place_rows_self, Option.mem_def, Option.some.injEq, exists_eq_left']
        exact iff_of_false (h.notMem_of_row hrow) (Ne.symm hs)
    · rw [place_rows_of_ne hyx]
      by_cases hs : s = t.side
      · subst hs
        rw [place_queue_self, enqueue, TailQueue.mem_join, h.mem_queue]
        simp [hyx]
      · rw [place_queue_of_ne hs, h.mem_queue]
  nodup s := by
    by_cases hs : s = t.side
    · subst hs
      rw [place_queue_self]
      exact TailQueue.nodup_join (h.nodup _) (h.notMem_of_row hrow)
    · rw [place_queue_of_ne hs]
      exact h.nodup s
  sorted s := by
    have hne : ∀ y ∈ A.queue s, y ≠ x := fun y hy hyx => h.notMem_of_row hrow (hyx ▸ hy)
    have hold : (A.queue s).Pairwise fun y z => ∀ u ∈ (A.place x t).rows y,
        ∀ v ∈ (A.place x t).rows z, ¬better s v.price u.price := by
      refine (h.sorted s).imp_of_mem fun {y z} hy hz hyz => ?_
      rw [place_rows_of_ne (hne y hy), place_rows_of_ne (hne z hz)]
      exact hyz
    by_cases hs : s = t.side
    · subst hs
      rw [place_queue_self]
      refine TailQueue.pairwise_join hold (h.staysAhead_mono t.price) ?_ ?_
      · intro y hy hp u hu v hv
        rw [place_rows_of_ne (hne y hy)] at hu
        rw [place_rows_self, Option.mem_def, Option.some.injEq] at hv
        subst hv
        exact (staysAhead_iff hu).1 hp
      · intro y hy hp u hu v hv
        rw [place_rows_of_ne (hne y hy)] at hv
        rw [place_rows_self, Option.mem_def, Option.some.injEq] at hu
        subst hu
        rw [staysAhead_iff hv, not_not] at hp
        exact better_asymm hp
    · rw [place_queue_of_ne hs]
      exact hold
  row_lt y u hu := by
    by_cases hyx : y = x
    · exact hyx ▸ hlt
    · exact h.row_lt y u (by rwa [place_rows_of_ne hyx] at hu)
  claim_lt := h.claim_lt
  disjoint y u hu := by
    by_cases hyx : y = x
    · exact hyx ▸ hclaim
    · exact h.disjoint y u (by rwa [place_rows_of_ne hyx] at hu)

theorem putRow (h : WellFormed A) (hrow : A.rows x = some t) (hside : u.side = t.side)
    (hprice : u.price = t.price) : WellFormed (A.putRow x u) := by
  have key : ∀ y v, (A.putRow x u).rows y = some v →
      ∃ w, A.rows y = some w ∧ w.side = v.side ∧ w.price = v.price := by
    intro y v hv
    by_cases hyx : y = x
    · subst hyx
      obtain rfl : u = v := by simpa [AbsBook.putRow] using hv
      exact ⟨t, hrow, hside.symm, hprice.symm⟩
    · exact ⟨v, by rwa [putRow_rows_of_ne hyx] at hv, rfl, rfl⟩
  refine ⟨fun s y => ?_, h.nodup, fun s => ?_, ?_, h.claim_lt, ?_⟩
  · change y ∈ A.queue s ↔ _
    rw [h.mem_queue]
    constructor
    · rintro ⟨v, hv, rfl⟩
      by_cases hyx : y = x
      · subst hyx
        obtain rfl : t = v := by simpa [hrow] using hv
        exact ⟨u, by simp [AbsBook.putRow], hside⟩
      · exact ⟨v, by rwa [putRow_rows_of_ne hyx], rfl⟩
    · rintro ⟨v, hv, rfl⟩
      obtain ⟨w, hw, hs, -⟩ := key y v hv
      exact ⟨w, hw, hs⟩
  · refine (h.sorted s).imp fun {y z} hyz v hv w hw => ?_
    obtain ⟨v', hv', -, hp⟩ := key y v hv
    obtain ⟨w', hw', -, hq⟩ := key z w hw
    rw [← hp, ← hq]
    exact hyz v' hv' w' hw'
  · intro y v hv
    obtain ⟨w, hw, -⟩ := key y v hv
    exact h.row_lt y w hw
  · intro y v hv
    obtain ⟨w, hw, -⟩ := key y v hv
    exact h.disjoint y w hw

theorem putClaim_none (h : WellFormed A) : WellFormed (A.putClaim x none) where
  mem_queue := h.mem_queue
  nodup := h.nodup
  sorted := h.sorted
  row_lt := h.row_lt
  claim_lt y r hr := by
    by_cases hyx : y = x
    · subst hyx
      simp [AbsBook.putClaim] at hr
    · exact h.claim_lt y r (by simpa [AbsBook.putClaim, hyx] using hr)
  disjoint y v hv := by
    by_cases hyx : y = x
    · simp [AbsBook.putClaim, hyx]
    · simpa [AbsBook.putClaim, hyx] using h.disjoint y v hv

theorem putClaim_some {r : ExpiredLimitRefund} (h : WellFormed A) (hrow : A.rows x = none)
    (hlt : x < A.nextId) : WellFormed (A.putClaim x (some r)) where
  mem_queue := h.mem_queue
  nodup := h.nodup
  sorted := h.sorted
  row_lt := h.row_lt
  claim_lt y r' hr := by
    by_cases hyx : y = x
    · exact hyx ▸ hlt
    · exact h.claim_lt y r' (by simpa [AbsBook.putClaim, hyx] using hr)
  disjoint y v hv := by
    have hyx : y ≠ x := by
      rintro rfl
      exact absurd (hrow.symm.trans hv) (by simp)
    simpa [AbsBook.putClaim, hyx] using h.disjoint y v hv

/-- Every act keeps the book well formed. -/
theorem step {a : Act} (hstep : Step A a B) (h : WellFormed A) : WellFormed B := by
  cases hstep with
  | reserve count =>
      exact ⟨h.mem_queue, h.nodup, h.sorted, fun y v hv => (h.row_lt y v hv).trans_le (by simp),
        fun y r hr => (h.claim_lt y r hr).trans_le (by simp), h.disjoint⟩
  | place x t hrow hclaim hlt => exact h.place hrow hclaim hlt
  | reprice x t p hrow hp =>
      exact (h.withdraw hrow).place withdraw_rows_self (h.disjoint x t hrow) (h.row_lt x t hrow)
  | fill x t paid taken hrow hprice hle => exact h.putRow hrow rfl rfl
  | drop x t hrow hzero => exact h.withdraw hrow
  | park x t reason expiresAt hrow hexp =>
      exact (h.withdraw hrow).putClaim_some withdraw_rows_self (h.row_lt x t hrow)
  | cancel x t hrow => exact h.withdraw hrow
  | claim x r hclaim => exact h.putClaim_none
  | escrowAdd s amount =>
      exact ⟨h.mem_queue, h.nodup, h.sorted, h.row_lt, h.claim_lt, h.disjoint⟩
  | escrowSub s amount hle =>
      exact ⟨h.mem_queue, h.nodup, h.sorted, h.row_lt, h.claim_lt, h.disjoint⟩

end WellFormed

end AbsBook

end Cl8yDex
