import Cl8yDex.PairRuns

/-!
# The life of one order

Seen alone, an order is placed by its owner, filled at its own price, repriced by its owner, parked
with what is left of it, and refunded to its owner once. Every operation of the pair moves every
order along this life, and what it moves adds up.
-/

namespace Cl8yDex

/-- Where an order is. -/
inductive OrderState
  | unborn
  | resting (t : OrderTerms)
  | parked (r : ExpiredLimitRefund)
  | gone

def OrderState.held : OrderState → ℕ
  | resting t => t.remaining
  | parked r => r.remaining
  | _ => 0

inductive OrderEvent
  | placed (t : OrderTerms)
  | skipped
  | repriced (price : Decimal)
  | filled (paid taken : ℕ)
  | dropped
  | parked (reason : ExpiredLimitParkReason)
  | refunded (s : LimitOrderSide) (amount : ℕ)

namespace OrderEvent

def escrowed : OrderEvent → ℕ
  | placed t => t.remaining
  | _ => 0

def takenByFills : OrderEvent → ℕ
  | filled _ taken => taken
  | _ => 0

def paidBack : OrderEvent → ℕ
  | refunded _ n => n
  | _ => 0

def paidBackOn (s : LimitOrderSide) : OrderEvent → ℕ
  | refunded s' n => if s' = s then n else 0
  | _ => 0

def Refunds : OrderEvent → Prop
  | refunded .. => True
  | _ => False

end OrderEvent

/-- What `user` can do to an order. Anyone may fill it at its price, park it, or drop what is
filled to the end; the rest is up to the owner. -/
inductive OrderStep (user : Addr) : OrderState → OrderEvent → OrderState → Prop
  | placed (t : OrderTerms) (h : t.owner = user) : OrderStep user .unborn (.placed t) (.resting t)
  | skipped : OrderStep user .unborn .skipped .gone
  | repriced (t : OrderTerms) (p : Decimal) (h : t.owner = user) :
      OrderStep user (.resting t) (.repriced p) (.resting { t with price := p })
  | filled (t : OrderTerms) (paid taken : ℕ) (h : FillsAt t.side t.price paid taken)
      (hle : taken ≤ t.remaining) : OrderStep user (.resting t) (.filled paid taken)
        (.resting { t with remaining := t.remaining - taken })
  | dropped (t : OrderTerms) (h : t.remaining = 0) : OrderStep user (.resting t) .dropped .gone
  | parked (t : OrderTerms) (reason : ExpiredLimitParkReason) :
      OrderStep user (.resting t) (.parked reason) (.parked ⟨t.owner, t.side, t.remaining,
        if reason = .expired then t.expiresAt else none, some reason⟩)
  | cancelled (t : OrderTerms) (h : t.owner = user) :
      OrderStep user (.resting t) (.refunded t.side t.remaining) .gone
  | claimed (r : ExpiredLimitRefund) (h : r.owner = user) :
      OrderStep user (.parked r) (.refunded r.side r.remaining) .gone

/-- A life so far, each event with the user who caused it. -/
inductive OrderRun : OrderState → List (Addr × OrderEvent) → OrderState → Prop
  | nil (s : OrderState) : OrderRun s [] s
  | cons {s s' s'' : OrderState} {user : Addr} {e : OrderEvent} {l : List (Addr × OrderEvent)}
      (h : OrderStep user s e s') (hr : OrderRun s' l s'') : OrderRun s ((user, e) :: l) s''

section Custody

variable {s s' s'' : OrderState} {user : Addr} {e : OrderEvent} {l r : List (Addr × OrderEvent)}

/-- Custody of one order over one event. -/
theorem OrderStep.held (h : OrderStep user s e s') :
    s'.held + e.takenByFills + e.paidBack = s.held + e.escrowed := by
  cases h with
  | filled t paid taken h hle => exact Nat.sub_add_cancel hle
  | dropped t h => simp [OrderState.held, OrderEvent.takenByFills, OrderEvent.paidBack,
      OrderEvent.escrowed, h]
  | _ => simp [OrderState.held, OrderEvent.takenByFills, OrderEvent.paidBack, OrderEvent.escrowed]

namespace OrderRun

theorem single (h : OrderStep user s e s') : OrderRun s [(user, e)] s' := .cons h (.nil s')

theorem append (h : OrderRun s l s') (hr : OrderRun s' r s'') : OrderRun s (l ++ r) s'' := by
  induction h with
  | nil s => exact hr
  | cons h _ ih => exact .cons h (ih hr)

theorem held (h : OrderRun s l s') : s'.held + totalOf (fun e => e.2.takenByFills) l +
    totalOf (fun e => e.2.paidBack) l = s.held + totalOf (fun e => e.2.escrowed) l := by
  induction h with
  | nil s => rfl
  | cons h _ ih =>
      have hstep := h.held
      simp only [totalOf_cons]
      omega

theorem nil_of_gone (h : OrderRun .gone l s') : l = [] := by
  cases h with
  | nil => rfl
  | cons h => cases h

/-- A refund is the last thing that happens to an order. -/
theorem refunds_last (h : OrderRun s l s') : ∀ l₁ l₂ u e, l = l₁ ++ (u, e) :: l₂ → e.Refunds →
    l₂ = [] ∧ s' = .gone := by
  induction h with
  | nil s => exact fun l₁ l₂ u e h => absurd h (by simp)
  | @cons s s' s'' user e l h hr ih =>
      rintro (_ | ⟨x, l₁⟩) l₂ u e' hl he
      · obtain ⟨⟨rfl, rfl⟩, rfl⟩ : (user = u ∧ e = e') ∧ l = l₂ := by simpa using hl
        have hgone : s' = .gone := by
          cases h with
          | cancelled t h => rfl
          | claimed r h => rfl
          | _ => exact absurd he id
        subst hgone
        obtain rfl := hr.nil_of_gone
        cases hr
        exact ⟨rfl, rfl⟩
      · obtain ⟨rfl, rfl⟩ : (user, e) = x ∧ l = l₁ ++ (u, e') :: l₂ := by simpa using hl
        exact ih l₁ l₂ u e' rfl he

end OrderRun

end Custody

def AbsBook.orderState (A : AbsBook) (x : OrderId) : OrderState :=
  match A.rows x, A.claims x with
  | some t, _ => .resting t
  | none, some r => .parked r
  | none, none => if x < A.nextId then .gone else .unborn

def Book.orderState (b : Book) (x : OrderId) : OrderState :=
  match b.terms x, b.expiredLimitClaims x with
  | some t, _ => .resting t
  | none, some r => .parked r
  | none, none => if x < b.orderNextId then .gone else .unborn

theorem Represents.orderState {b : Book} {A : AbsBook} (h : Represents b A) (x : OrderId) :
    b.orderState x = A.orderState x := by
  simp only [Book.orderState, AbsBook.orderState, h.rows, h.claims, h.nextId]

namespace AbsBook

variable {A B C : AbsBook} {x : OrderId} {t : OrderTerms} {r : ExpiredLimitRefund}

theorem orderState_of_row (h : A.rows x = some t) : A.orderState x = .resting t := by
  simp only [orderState, h]

theorem orderState_of_claim (hwf : A.WellFormed) (h : A.claims x = some r) :
    A.orderState x = .parked r := by
  simp only [orderState, rows_of_claim hwf h, h]

theorem orderState_of_gone (hrow : A.rows x = none) (hclaim : A.claims x = none)
    (hlt : x < A.nextId) : A.orderState x = .gone := by
  simp only [orderState, hrow, hclaim, if_pos hlt]

theorem orderState_of_le (hwf : A.WellFormed) (hle : A.nextId ≤ x) : A.orderState x = .unborn := by
  have hrow : A.rows x = none := by
    by_contra hne
    obtain ⟨t, ht⟩ := Option.ne_none_iff_exists'.1 hne
    exact absurd (hwf.row_lt x t ht) (not_lt.2 hle)
  have hclaim : A.claims x = none := by
    by_contra hne
    obtain ⟨r, hr⟩ := Option.ne_none_iff_exists'.1 hne
    exact absurd (hwf.claim_lt x r hr) (not_lt.2 hle)
  simp only [orderState, hrow, hclaim, if_neg (not_lt.2 hle)]

theorem orderState_congr (hrow : B.rows x = A.rows x) (hclaim : B.claims x = A.claims x)
    (hnext : B.nextId = A.nextId) : B.orderState x = A.orderState x := by
  simp only [orderState, hrow, hclaim, hnext]

/-- The recorded owner, wherever the order is. -/
def ownerOf (A : AbsBook) (x : OrderId) : Option Addr :=
  ((A.rows x).map (·.owner)).or ((A.claims x).map (·.owner))

end AbsBook

/-- What a draining act does to the order `x`. -/
def Act.event (x : OrderId) : Act → Option OrderEvent
  | fill _ y paid taken => if y = x then some (.filled paid taken) else none
  | drop y => if y = x then some .dropped else none
  | park y reason _ => if y = x then some (.parked reason) else none
  | cancel s y n | claim s y n => if y = x then some (.refunded s n) else none
  | _ => none

section Draining

open AbsBook

variable {A B C : AbsBook} {x : OrderId} {user : Addr} {a : Act} {acts : List Act}

/-- A draining act hands no order to another owner. -/
theorem Step.ownerOf (h : Step A a B) (hd : a.Drains) (hwf : A.WellFormed) :
    ∀ u ∈ B.ownerOf x, u ∈ A.ownerOf x := by
  have hwf' := hwf.step h
  by_cases hx : a.Touches x
  · cases h with
    | fill y t paid taken hrow hprice hle =>
        obtain rfl : y = x := hx
        have hrow' : (A.putRow y { t with remaining := t.remaining - taken }).rows y =
          some { t with remaining := t.remaining - taken } := Function.update_self ..
        simp [AbsBook.ownerOf, hrow, hrow']
    | drop y t hrow hzero =>
        obtain rfl : y = x := hx
        simp [AbsBook.ownerOf, AbsBook.withdraw, hwf.disjoint y t hrow]
    | park y t reason expiresAt hrow hexp =>
        obtain rfl : y = x := hx
        simp [AbsBook.ownerOf, AbsBook.withdraw, AbsBook.putClaim, hrow]
    | cancel y t hrow =>
        obtain rfl : y = x := hx
        simp [AbsBook.ownerOf, AbsBook.withdraw, hwf.disjoint y t hrow]
    | claim y r hr =>
        obtain rfl : y = x := hx
        simp [AbsBook.ownerOf, AbsBook.putClaim, rows_of_claim hwf hr]
    | place y t => exact absurd hd id
    | reprice y t p => exact absurd hd id
    | _ => exact absurd hx id
  · obtain ⟨hrow, hclaim⟩ := h.frame hx
    simp only [AbsBook.ownerOf, hrow, hclaim]
    exact fun u hu => hu

theorem Step.nextId_of_drains (h : Step A a B) (hd : a.Drains) : B.nextId = A.nextId := by
  cases h with
  | reserve count => exact absurd hd id
  | _ => rfl

/-- A draining act moves every order along its life. -/
theorem Step.event (h : Step B a C) (hd : a.Drains) (hA : A.WellFormed) (hB : B.WellFormed)
    (hsub : ∀ x, ∀ u ∈ B.ownerOf x, u ∈ A.ownerOf x) (ha : a.AuthorisedBy A user) :
    OrderRun (B.orderState x) ((a.event x).toList.map fun e => (user, e)) (C.orderState x) := by
  have hC := hB.step h
  by_cases hx : a.Touches x
  · cases h with
    | fill y t paid taken hrow hprice hle =>
        obtain rfl : y = x := hx
        rw [orderState_of_row hrow, orderState_of_row (Function.update_self y _ B.rows)]
        simp only [Act.event, if_true, Option.toList_some, List.map_cons, List.map_nil]
        exact .single (.filled t paid taken hprice hle)
    | drop y t hrow hzero =>
        obtain rfl : y = x := hx
        have hrow' : (B.withdraw t.side y).rows y = none := Function.update_self ..
        rw [orderState_of_row hrow, orderState_of_gone hrow' (hB.disjoint y t hrow)
          (hB.row_lt y t hrow)]
        simp only [Act.event, if_true, Option.toList_some, List.map_cons, List.map_nil]
        exact .single (.dropped t hzero)
    | park y t reason expiresAt hrow hexp =>
        obtain rfl : y = x := hx
        subst hexp
        rw [orderState_of_row hrow, orderState_of_claim hC (Function.update_self y _ B.claims)]
        simp only [Act.event, if_true, Option.toList_some, List.map_cons, List.map_nil]
        exact .single (.parked t reason)
    | cancel y t hrow =>
        obtain rfl : y = x := hx
        obtain ⟨t', ht', hu, -, -⟩ := ha
        have howner : t.owner = user := by
          have h := hsub y t.owner (by simp [AbsBook.ownerOf, hrow])
          simp only [AbsBook.ownerOf, ht', Option.map_some, Option.some_or, Option.mem_def,
            Option.some.injEq] at h
          exact h.symm.trans hu
        have hrow' : (B.withdraw t.side y).rows y = none := Function.update_self ..
        rw [orderState_of_row hrow, orderState_of_gone hrow' (hB.disjoint y t hrow)
          (hB.row_lt y t hrow)]
        simp only [Act.event, if_true, Option.toList_some, List.map_cons, List.map_nil]
        exact .single (.cancelled t howner)
    | claim y r hr =>
        obtain rfl : y = x := hx
        obtain ⟨r', hr', hu, -, -⟩ := ha
        have howner : r.owner = user := by
          have h := hsub y r.owner (by simp [AbsBook.ownerOf, rows_of_claim hB hr, hr])
          simp only [AbsBook.ownerOf, rows_of_claim hA hr', hr', Option.map_none, Option.map_some,
            Option.none_or, Option.mem_def, Option.some.injEq] at h
          exact h.symm.trans hu
        have hrow' : (B.putClaim y none).rows y = none := by
          change B.rows y = none
          exact rows_of_claim hB hr
        have hclaim' : (B.putClaim y none).claims y = none := Function.update_self ..
        rw [orderState_of_claim hB hr, orderState_of_gone hrow' hclaim' (hB.claim_lt y r hr)]
        simp only [Act.event, if_true, Option.toList_some, List.map_cons, List.map_nil]
        exact .single (.claimed r howner)
    | place y t => exact absurd hd id
    | reprice y t p => exact absurd hd id
    | _ => exact absurd hx id
  · obtain ⟨hrow, hclaim⟩ := h.frame hx
    rw [orderState_congr hrow hclaim (h.nextId_of_drains hd)]
    have hnone : a.event x = none := by
      cases a with
      | place y t => rfl
      | reprice y p => rfl
      | reserve n => rfl
      | escrowAdd s n => rfl
      | escrowSub s n => rfl
      | _ => exact if_neg hx
    rw [hnone]
    exact .nil _

/-- What a run of draining acts does to the order `x`. -/
def eventsOf (x : OrderId) (acts : List Act) : List OrderEvent := acts.filterMap (Act.event x)

theorem Run.events (h : Run B acts C) (hd : ∀ a ∈ acts, a.Drains) (hA : A.WellFormed)
    (hB : B.WellFormed) (hsub : ∀ x, ∀ u ∈ B.ownerOf x, u ∈ A.ownerOf x)
    (ha : ∀ a ∈ acts, a.AuthorisedBy A user) :
    OrderRun (B.orderState x) ((eventsOf x acts).map fun e => (user, e)) (C.orderState x) := by
  induction h with
  | nil B => exact .nil _
  | @cons B C D a acts hs hr ih =>
      have hda := hd a (List.mem_cons_self ..)
      have hstep := hs.event (x := x) hda hA hB hsub (ha a (List.mem_cons_self ..))
      have hrest := ih (fun a h => hd a (List.mem_cons_of_mem _ h)) (hB.step hs)
        (fun x u hu => hsub x u (hs.ownerOf hda hB u hu)) fun a h =>
          ha a (List.mem_cons_of_mem _ h)
      have hevents : eventsOf x (a :: acts) = (a.event x).toList ++ eventsOf x acts := by
        unfold eventsOf
        cases he : a.event x with
        | none => rw [List.filterMap_cons_none he]; rfl
        | some e => rw [List.filterMap_cons_some he]; rfl
      rw [hevents, List.map_append]
      exact hstep.append hrest

open Finset in
theorem Step.sum_paidBack (h : Step A a B) (hA : A.WellFormed) (s : LimitOrderSide) :
    ∑ x ∈ range A.nextId, (a.event x).elim 0 (OrderEvent.paidBackOn s) = a.refunded s := by
  have hite : ∀ (y x : OrderId) (e : OrderEvent),
      (if y = x then some e else none).elim 0 (OrderEvent.paidBackOn s) =
        if y = x then e.paidBackOn s else 0 := by
    intro y x e
    split_ifs <;> rfl
  cases h with
  | cancel y t hrow =>
      simp only [Act.event, hite]
      rw [sum_ite_eq, if_pos (mem_range.2 (hA.row_lt y t hrow))]
      rfl
  | claim y r hr =>
      simp only [Act.event, hite]
      rw [sum_ite_eq, if_pos (mem_range.2 (hA.claim_lt y r hr))]
      rfl
  | _ => simp [Act.event, hite, OrderEvent.paidBackOn, Act.refunded]

open Finset in
/-- The refunds of a run, order by order. -/
theorem Run.sum_paidBack (h : Run B acts C) (hB : B.WellFormed) (hd : ∀ a ∈ acts, a.Drains)
    (s : LimitOrderSide) :
    ∑ x ∈ range B.nextId, totalOf (OrderEvent.paidBackOn s) (eventsOf x acts) =
      totalOf (Act.refunded s) acts := by
  induction h with
  | nil B => simp [eventsOf]
  | @cons B C D a acts hs hr ih =>
      have hrest := ih (hB.step hs) fun a h => hd a (List.mem_cons_of_mem _ h)
      rw [hs.nextId_of_drains (hd a (List.mem_cons_self ..))] at hrest
      have hsplit : ∀ x, totalOf (OrderEvent.paidBackOn s) (eventsOf x (a :: acts)) =
          (a.event x).elim 0 (OrderEvent.paidBackOn s) +
            totalOf (OrderEvent.paidBackOn s) (eventsOf x acts) := by
        intro x
        unfold eventsOf
        cases he : a.event x with
        | none => rw [List.filterMap_cons_none he]; simp
        | some e => rw [List.filterMap_cons_some he]; rfl
      simp only [hsplit, totalOf_cons]
      rw [sum_add_distrib, hrest, hs.sum_paidBack hB]

end Draining

end Cl8yDex
