import Cl8yDex.Effects
import Mathlib.Data.Prod.Lex

/-!
# First come, first served

An order arrives when it is placed and when it is moved to another price. Stamped with the number
of the operation and its id, the orders of one price stand in the order of their arrival.
-/

namespace Cl8yDex

/-- The number of an operation, then the id within it. -/
abbrev Stamp := ℕ ×ₗ ℕ

def Stamp.operation (f : Stamp) : ℕ := (ofLex f).1

theorem Stamp.lt_of_operation {f : Stamp} {n x : ℕ} (h : f.operation < n) : f < toLex (n, x) :=
  Prod.Lex.lt_iff.2 (.inl h)

/-- The order is new, or it was moved to another price. -/
def arrives (old new : Option OrderTerms) : Bool :=
  match new, old with
  | none, _ => false
  | some _, none => true
  | some u, some t => t.price ≠ u.price

/-- The stamps after operation `n`. -/
def restamp (n : ℕ) (old new : OrderId → Option OrderTerms) (f : OrderId → Stamp) (x : OrderId) :
    Stamp :=
  if arrives (old x) (new x) then toLex (n, x) else f x

section Restamp

variable {n : ℕ} {old new : OrderId → Option OrderTerms} {f : OrderId → Stamp} {x : OrderId}
  {t u : OrderTerms}

theorem restamp_of_new (hold : old x = none) (hnew : new x = some u) :
    restamp n old new f x = toLex (n, x) := by
  simp [restamp, hold, hnew, arrives]

theorem restamp_of_moved (hold : old x = some t) (hnew : new x = some u) (hp : t.price ≠ u.price) :
    restamp n old new f x = toLex (n, x) := by
  simp [restamp, hold, hnew, arrives, hp]

theorem restamp_of_kept (hold : old x = some t) (hnew : new x = some u) (hp : t.price = u.price) :
    restamp n old new f x = f x := by
  simp [restamp, hold, hnew, arrives, hp]

end Restamp

/-- Within one price the orders of a queue stand in the order of their stamps. -/
def AbsBook.Fifo (A : AbsBook) (f : OrderId → Stamp) : Prop :=
  ∀ s, (A.queue s).Pairwise fun x y =>
    ∀ t ∈ A.rows x, ∀ u ∈ A.rows y, t.price = u.price → f x < f y

namespace AbsBook.Fifo

open AbsBook

variable {A B : AbsBook} {f g : OrderId → Stamp} {x : OrderId} {t : OrderTerms}

theorem congr (h : A.Fifo f) (hfg : ∀ x t, A.rows x = some t → g x = f x) : A.Fifo g := by
  intro s
  refine (h s).imp fun {x y} hxy t ht u hu hp => ?_
  rw [hfg x t ht, hfg y u hu]
  exact hxy t ht u hu hp

/-- Orders that leave, or shrink, do not change the order of the others. -/
theorem shrink (h : A.Fifo f) (hq : ∀ s, (B.queue s).Sublist (A.queue s))
    (hrows : ∀ x u, B.rows x = some u → ∃ t, A.rows x = some t ∧ t.price = u.price) : B.Fifo f := by
  intro s
  refine ((h s).sublist (hq s)).imp fun {x y} hxy t' ht' u' hu' hp => ?_
  obtain ⟨t, ht, htp⟩ := hrows x t' ht'
  obtain ⟨u, hu, hup⟩ := hrows y u' hu'
  exact hxy t ht u hu (htp.trans (hp.trans hup.symm))

theorem withdraw (h : A.Fifo f) (s : LimitOrderSide) (x : OrderId) : (A.withdraw s x).Fifo f :=
  h.shrink withdraw_queue_sublist fun _ u hu => ⟨u, (rows_of_withdraw hu).2, rfl⟩

/-- A newcomer queues behind the orders of its price, all of which came before it. -/
theorem place (h : A.Fifo f) (hwf : A.WellFormed) (hrow : A.rows x = none) {v : Stamp}
    (hlast : ∀ y u, A.rows y = some u → u.price = t.price → f y < v) :
    (A.place x t).Fifo (Function.update f x v) := by
  have hold : ∀ y, y ≠ x → (A.place x t).rows y = A.rows y ∧ Function.update f x v y = f y :=
    fun y hy => ⟨place_rows_of_ne hy, Function.update_of_ne hy _ _⟩
  have hne : ∀ s, ∀ y ∈ A.queue s, y ≠ x := fun s y hy he =>
    hwf.notMem_of_row (s := s) hrow (he ▸ hy)
  have hkept : ∀ s, (A.queue s).Pairwise fun y z => ∀ a ∈ (A.place x t).rows y,
      ∀ b ∈ (A.place x t).rows z, a.price = b.price →
        Function.update f x v y < Function.update f x v z := fun s => by
    refine (h s).imp_of_mem fun {y z} hy hz hyz => ?_
    obtain ⟨h1, h2⟩ := hold y (hne s y hy)
    obtain ⟨h3, h4⟩ := hold z (hne s z hz)
    rw [h1, h2, h3, h4]
    exact hyz
  intro s
  by_cases hs : s = t.side
  · subst hs
    rw [place_queue_self]
    refine TailQueue.pairwise_join (hkept t.side) (hwf.staysAhead_mono t.price) ?_ ?_
    · intro y hy _ u hu t' ht' hp
      obtain ⟨h1, h2⟩ := hold y (hne _ y hy)
      rw [place_rows_self, Option.mem_some_iff] at ht'
      subst ht'
      rw [h1] at hu
      rw [h2, Function.update_self]
      exact hlast y u hu hp
    · intro y hy hahead t' ht' u hu hp
      obtain ⟨h1, -⟩ := hold y (hne _ y hy)
      rw [place_rows_self, Option.mem_some_iff] at ht'
      subst ht'
      rw [h1] at hu
      refine absurd ((staysAhead_iff hu).2 ?_) hahead
      rw [hp]
      exact not_better_self
  · rw [place_queue_of_ne hs]
    exact hkept s

end AbsBook.Fifo

section Kinds

open AbsBook

variable {A B : AbsBook} {f : OrderId → Stamp} {acts : List Act} {n : ℕ}

theorem Step.shrinks {a : Act} (h : Step A a B) (hd : a.Drains) :
    (∀ s, (B.queue s).Sublist (A.queue s)) ∧
      ∀ x u, B.rows x = some u → ∃ t, A.rows x = some t ∧ t.price = u.price := by
  cases h with
  | reserve count => exact absurd hd id
  | place x t => exact absurd hd id
  | reprice x t p => exact absurd hd id
  | fill x t paid taken hrow =>
      refine ⟨fun s => .refl _, fun y u hu => ?_⟩
      by_cases hy : y = x
      · subst hy
        change Function.update A.rows y _ y = some u at hu
        rw [Function.update_self] at hu
        cases hu
        exact ⟨t, hrow, rfl⟩
      · rw [putRow_rows_of_ne hy] at hu
        exact ⟨u, hu, rfl⟩
  | drop x t =>
      exact ⟨withdraw_queue_sublist, fun y u hu => ⟨u, (rows_of_withdraw hu).2, rfl⟩⟩
  | park x t =>
      exact ⟨withdraw_queue_sublist, fun y u hu =>
        ⟨u, (rows_of_withdraw (s := t.side) hu).2, rfl⟩⟩
  | cancel x t =>
      exact ⟨withdraw_queue_sublist, fun y u hu => ⟨u, (rows_of_withdraw hu).2, rfl⟩⟩
  | claim x r => exact ⟨fun s => .refl _, fun y u hu => ⟨u, hu, rfl⟩⟩
  | escrowAdd s k => exact ⟨fun s => .refl _, fun y u hu => ⟨u, hu, rfl⟩⟩
  | escrowSub s k => exact ⟨fun s => .refl _, fun y u hu => ⟨u, hu, rfl⟩⟩

theorem Run.shrinks (h : Run A acts B) (hd : ∀ a ∈ acts, a.Drains) :
    (∀ s, (B.queue s).Sublist (A.queue s)) ∧
      ∀ x u, B.rows x = some u → ∃ t, A.rows x = some t ∧ t.price = u.price := by
  induction h with
  | nil A => exact ⟨fun s => .refl _, fun x u hu => ⟨u, hu, rfl⟩⟩
  | cons h _ ih =>
      obtain ⟨hq, hrows⟩ := h.shrinks (hd _ (List.mem_cons_self ..))
      obtain ⟨hq', hrows'⟩ := ih fun a ha => hd a (List.mem_cons_of_mem _ ha)
      refine ⟨fun s => (hq' s).trans (hq s), fun x u hu => ?_⟩
      obtain ⟨v, hv, hvp⟩ := hrows' x u hu
      obtain ⟨t, ht, htp⟩ := hrows x v hv
      exact ⟨t, ht, htp.trans hvp⟩

/-- The placements of a batch, each behind the earlier ones of its price. -/
theorem fifo_of_places {placed : List (OrderId × OrderTerms)} (hrun : Run A (placeActs placed) B)
    (hwf : A.WellFormed) (hf : A.Fifo f)
    (hpair : placed.Pairwise fun r r' => r.2.price = r'.2.price → r.1 < r'.1)
    (hold : ∀ y u, A.rows y = some u → (f y).operation < n ∨
      f y = toLex (n, y) ∧ ∀ r ∈ placed, u.price = r.2.price → y < r.1) :
    ∃ g, B.Fifo g ∧ ∀ y u, B.rows y = some u →
      A.rows y = some u ∧ g y = f y ∨ A.rows y = none ∧ g y = toLex (n, y) := by
  induction placed generalizing A f with
  | nil =>
      cases hrun
      exact ⟨f, hf, fun y u hu => .inl ⟨hu, rfl⟩⟩
  | cons r placed ih =>
      obtain ⟨x, t⟩ := r
      obtain ⟨hfirst, hrest⟩ := List.pairwise_cons.1 hpair
      cases hrun with
      | cons hstep hrun =>
      cases hstep with
      | place _ _ hrow hclaim hlt =>
      have hf' : (A.place x t).Fifo (Function.update f x (toLex (n, x))) := by
        refine hf.place hwf hrow fun y u hu hp => ?_
        rcases hold y u hu with ho | ⟨ho, hlast⟩
        · exact Stamp.lt_of_operation ho
        · rw [ho]
          exact Prod.Lex.lt_iff.2 (.inr ⟨rfl, hlast (x, t) (List.mem_cons_self ..) hp⟩)
      obtain ⟨g, hg, hrows⟩ := ih hrun (hwf.place hrow hclaim hlt) hf' hrest fun y u hu => by
        by_cases hy : y = x
        · subst hy
          rw [place_rows_self] at hu
          cases hu
          exact .inr ⟨Function.update_self .., fun r hr => hfirst r hr⟩
        · rw [place_rows_of_ne hy] at hu
          rw [Function.update_of_ne hy]
          exact (hold y u hu).imp_right fun h =>
            ⟨h.1, fun r hr => h.2 r (List.mem_cons_of_mem _ hr)⟩
      refine ⟨g, hg, fun y u hu => ?_⟩
      rcases hrows y u hu with ⟨hrow', hgy⟩ | ⟨hrow', hgy⟩
      · by_cases hy : y = x
        · subst hy
          rw [Function.update_self] at hgy
          exact .inr ⟨hrow, hgy⟩
        · rw [place_rows_of_ne hy] at hrow'
          rw [Function.update_of_ne hy] at hgy
          exact .inl ⟨hrow', hgy⟩
      · by_cases hy : y = x
        · subst hy
          rw [place_rows_self] at hrow'
          cases hrow'
        · rw [place_rows_of_ne hy] at hrow'
          exact .inr ⟨hrow', hgy⟩

/-- Every stamp is from an operation before the `n`-th. -/
def AbsBook.StampedBefore (A : AbsBook) (f : OrderId → Stamp) (n : ℕ) : Prop :=
  ∀ x t, A.rows x = some t → (f x).operation < n

theorem AbsBook.StampedBefore.restamp (h : A.StampedBefore f n) :
    B.StampedBefore (restamp n A.rows B.rows f) (n + 1) := by
  intro x u hu
  cases ht : A.rows x with
  | none =>
      rw [restamp_of_new ht hu]
      exact Nat.lt_succ_self n
  | some t =>
      by_cases hp : t.price = u.price
      · rw [restamp_of_kept ht hu hp]
        exact Nat.lt_succ_of_lt (h x t ht)
      · rw [restamp_of_moved ht hu hp]
        exact Nat.lt_succ_self n

/-- One operation keeps the orders of every price in the order of their arrival. -/
theorem Kind.fifo (h : Kind A acts) (hrun : Run A acts B) (hwf : A.WellFormed) (hf : A.Fifo f)
    (hold : A.StampedBefore f n) : B.Fifo (restamp n A.rows B.rows f) := by
  cases h with
  | draining hd =>
      obtain ⟨hq, hrows⟩ := hrun.shrinks hd
      refine (hf.shrink hq hrows).congr fun x u hu => ?_
      obtain ⟨t, ht, hp⟩ := hrows x u hu
      exact restamp_of_kept ht hu hp
  | repricing x p =>
      cases hrun with
      | cons hstep hrun =>
      cases hrun
      cases hstep with
      | reprice _ t _ hrow hp =>
      have hf' : ((A.withdraw t.side x).place x { t with price := p }).Fifo
          (Function.update f x (toLex (n, x))) :=
        (hf.withdraw t.side x).place (hwf.withdraw hrow) withdraw_rows_self fun y u hu _ =>
          Stamp.lt_of_operation (hold y u (rows_of_withdraw hu).2)
      refine hf'.congr fun y u hu => ?_
      by_cases hy : y = x
      · subst hy
        rw [Function.update_self]
        rw [place_rows_self] at hu
        cases hu
        exact restamp_of_moved hrow place_rows_self hp
      · have hrow' : A.rows y = some u := by
          rwa [place_rows_of_ne hy, withdraw_rows_of_ne hy] at hu
        rw [Function.update_of_ne hy]
        exact restamp_of_kept hrow' hu rfl
  | @placing side count placed tail h =>
      cases hrun with
      | cons hstep hrun =>
      cases hstep
      obtain ⟨C, hplaces, htail⟩ := hrun.split
      have hwf' := hwf.step (.reserve A count)
      obtain ⟨g, hg, hrows⟩ := fifo_of_places (n := n) hplaces hwf' hf h.arrival
        fun y u hu => .inl (hold y u hu)
      obtain ⟨hq, hkept⟩ := htail.shrinks fun a ha => by
        obtain ⟨k, rfl⟩ := h.tail_eq a ha
        exact trivial
      refine (hg.shrink hq hkept).congr fun y u hu => ?_
      obtain ⟨v, hv, hvp⟩ := hkept y u hu
      rcases hrows y v hv with ⟨hrow, hgy⟩ | ⟨hrow, hgy⟩
      · rw [hgy]
        exact restamp_of_kept hrow hu hvp
      · rw [hgy]
        exact restamp_of_new hrow hu

end Kinds

end Cl8yDex
