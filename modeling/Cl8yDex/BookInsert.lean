import Cl8yDex.BookLinks

/-!
# Finding the place of a new or relinked order

Every route of the search (thread cursor, verified hint, walk towards the tail, walk towards the
head, walk from the head) answers the same seam of the list, or gives up on its step budget. The
comparisons use ids, so the key of the newcomer must exceed every resident at its price.
-/

namespace Cl8yDex

open DoublyLinked Outcome

/-- `q` is the list of the side `s`; an order of that side outside it has no predecessor. -/
structure Listed (b : Book) (s : LimitOrderSide) (q : List OrderId) : Prop where
  head : b.head s = q.head?
  linked : Seg b.links none q none
  nodup : q.Nodup
  side : ∀ x ∈ q, ∃ o, b.orders x = some o ∧ o.side = s
  stray : ∀ x o, b.orders x = some o → o.side = s → x ∉ q → o.prev = none

/-- An order quoting `p` belongs between `l` and `r`. -/
structure Seam (b : Book) (s : LimitOrderSide) (p : Decimal) (l r : List OrderId)
    (found : InsertFindResult) : Prop where
  prev : found.prev = l.getLast?
  next : found.next = r.head?
  nextPrice : ∀ y, r.head? = some y → ∃ o, b.orders y = some o ∧ found.nextPrice = some o.price
  ahead : ∀ x, l.getLast? = some x → ∃ o, b.orders x = some o ∧ ¬better s p o.price
  behind : ∀ y, r.head? = some y → ∃ o, b.orders y = some o ∧ better s p o.price

def SeamOf (b : Book) (s : LimitOrderSide) (p : Decimal) (q : List OrderId)
    (found : InsertFindResult) : Prop :=
  ∃ l r, q = l ++ r ∧ Seam b s p l r found

/-- `id` exceeds every member of `q` that quotes `p`. -/
def Newcomer (b : Book) (p : Decimal) (id : OrderId) (q : List OrderId) : Prop :=
  ∀ x ∈ q, ∀ o, b.orders x = some o → o.price = p → x < id

/-- The cursor names a member, its successor and their prices. -/
def InsertThreadCursor.Valid (cursor : InsertThreadCursor) (b : Book) (q : List OrderId) : Prop :=
  ∃ l r o, q = l ++ cursor.afterId :: r ∧ b.orders cursor.afterId = some o ∧
    o.price = cursor.afterPrice ∧ cursor.nextId = r.head? ∧
    ∀ y, r.head? = some y → ∃ o', b.orders y = some o' ∧ cursor.nextPrice = some o'.price

section Search

variable {b : Book} {s : LimitOrderSide} {p : Decimal} {id : OrderId} {m : ℕ}
  {q l r : List OrderId} {x : OrderId}

theorem load_eq {o : LimitOrder} (h : b.orders x = some o) : b.load x = .ok o := by
  simp [Book.load, h, orThrow]

theorem Listed.node (h : Listed b s (l ++ x :: r)) :
    ∃ o, b.orders x = some o ∧ o.side = s ∧ o.prev = l.getLast? ∧ o.next = r.head? := by
  obtain ⟨o, ho, hs⟩ := h.side x (by simp)
  have hlk : o.toLink = ⟨l.getLast?, r.head?⟩ :=
    Option.some.inj ((Book.links_of_orders ho).symm.trans h.linked.node)
  exact ⟨o, ho, hs, congrArg Link.prev hlk, congrArg Link.next hlk⟩

theorem Newcomer.before_iff {o : LimitOrder} (h : Newcomer b p id q) (hx : x ∈ q)
    (ho : b.orders x = some o) : before s o.price x p id ↔ ¬better s p o.price :=
  before_newcomer_iff fun hp => h x hx o ho hp

theorem Newcomer.iff_before {o : LimitOrder} (h : Newcomer b p id q) (hx : x ∈ q)
    (ho : b.orders x = some o) : before s p id o.price x ↔ better s p o.price :=
  newcomer_before_iff fun hp => h x hx o ho hp

theorem walkInsertFrom_spec (h : Listed b s (l ++ r)) (hnew : Newcomer b p id (l ++ r))
    (hahead : ∀ x, l.getLast? = some x → ∃ o, b.orders x = some o ∧ ¬better s p o.price)
    (left : ℕ) (prev : Option OrderId) (hprev : r = [] → prev = l.getLast?) :
    Meets (walkInsertFrom b s p id m left prev r.head?) (SeamOf b s p (l ++ r))
      (fun e => e = .limitInsertStepsExceeded m) := by
  induction r generalizing l left prev with
  | nil =>
      unfold walkInsertFrom
      exact ⟨l, [], rfl, hprev rfl, rfl, by simp, hahead, by simp⟩
  | cons x r ih =>
      cases left with
      | zero => exact rfl
      | succ left =>
          obtain ⟨o, ho, -, hop, hon⟩ := h.node
          rw [List.head?_cons, walkInsertFrom, load_eq ho, ok_bind]
          split_ifs with hb
          · have hb' := (hnew.iff_before (by simp) ho).1 hb
            refine ⟨l, x :: r, rfl, hop, rfl, ?_, hahead, ?_⟩
            · rintro y ⟨⟩
              exact ⟨o, ho, rfl⟩
            · rintro y ⟨⟩
              exact ⟨o, ho, hb'⟩
          · have hb' := fun hbet => hb ((hnew.iff_before (by simp) ho).2 hbet)
            have hlx : l ++ x :: r = (l ++ [x]) ++ r := by simp
            rw [hlx] at h hnew ⊢
            rw [hon]
            refine ih h hnew ?_ left (some x) (by simp)
            intro y hy
            obtain rfl : x = y := by simpa using hy
            exact ⟨o, ho, hb'⟩

theorem walkInsertTowardHead_spec (h : Listed b s (l ++ x :: r))
    (hnew : Newcomer b p id (l ++ x :: r))
    (hbehind : ∃ o, b.orders x = some o ∧ better s p o.price) (hint : OrderId) (left : ℕ) :
    Meets (walkInsertTowardHead b s p id m hint left (some x)) (SeamOf b s p (l ++ x :: r))
      (fun e => e = .limitInsertStepsExceeded m) := by
  induction l using List.reverseRecOn generalizing x r left with
  | nil =>
      cases left with
      | zero => exact rfl
      | succ left =>
          obtain ⟨o, ho, -, hop, -⟩ := h.node
          obtain ⟨o', ho', hb⟩ := hbehind
          obtain rfl : o = o' := Option.some.inj (ho.symm.trans ho')
          have hbef := (hnew.iff_before (by simp) ho).2 hb
          rw [walkInsertTowardHead, load_eq ho, ok_bind, if_pos hbef, hop]
          refine ⟨[], x :: r, rfl, rfl, rfl, ?_, by simp, ?_⟩
          · rintro y ⟨⟩
            exact ⟨o, ho, rfl⟩
          · rintro y ⟨⟩
            exact ⟨o, ho, hb⟩
  | append_singleton l z ih =>
      cases left with
      | zero => exact rfl
      | succ left =>
          obtain ⟨o, ho, -, hop, -⟩ := h.node
          obtain ⟨o', ho', hb⟩ := hbehind
          obtain rfl : o = o' := Option.some.inj (ho.symm.trans ho')
          have hbef := (hnew.iff_before (by simp) ho).2 hb
          have hlz : l ++ [z] ++ x :: r = l ++ z :: (x :: r) := by simp
          rw [List.getLast?_concat] at hop
          have hq := h
          rw [hlz] at hq
          obtain ⟨oz, hoz, -, -, -⟩ := hq.node
          rw [walkInsertTowardHead, load_eq ho, ok_bind, if_pos hbef, hop]
          change Meets ((b.load z) >>= _) _ _
          rw [load_eq hoz, ok_bind]
          split_ifs with hz
          · have hz' := (hnew.before_iff (by simp) hoz).1 hz
            refine ⟨l ++ [z], x :: r, rfl, by simp [insertFindResult], rfl, ?_, ?_, ?_⟩
            · rintro y ⟨⟩
              exact ⟨o, ho, rfl⟩
            · intro y hy
              obtain rfl : z = y := by simpa using hy
              exact ⟨oz, hoz, hz'⟩
            · rintro y ⟨⟩
              exact ⟨o, ho, hb⟩
          · have hz' : better s p oz.price := by
              by_contra hn
              exact hz ((hnew.before_iff (by simp) hoz).2 hn)
            rw [hlz] at h hnew ⊢
            exact ih h hnew ⟨oz, hoz, hz'⟩ left

theorem walkInsertFromHead_spec (h : Listed b s q) (hnew : Newcomer b p id q) (left : ℕ) :
    Meets (walkInsertFromHead b s p id m left q.head?) (SeamOf b s p q)
      (fun e => e = .limitInsertStepsExceeded m) :=
  walkInsertFrom_spec (l := []) h hnew (by simp) left none fun _ => rfl

theorem orderOnSide_eq_some {o : LimitOrder} :
    b.orderOnSide s x = some o ↔ b.orders x = some o ∧ o.side = s := by
  simp [Book.orderOnSide]

/-- A hint that is not the detached order lies in the list. -/
theorem Listed.mem_of_hint {o : LimitOrder} (h : Listed b s q) (ho : b.orders x = some o)
    (hs : o.side = s) (hhint : ¬(o.prev = none ∧ q.head? ≠ some x)) : x ∈ q := by
  by_contra hx
  have hprev := h.stray x o ho hs hx
  refine hhint ⟨hprev, fun hhead => hx (List.mem_of_head? hhead)⟩

/-- What each answer of the hint check promises about the list. -/
def HintInsertOutcome.Sound (b : Book) (s : LimitOrderSide) (p : Decimal) (q : List OrderId) :
    HintInsertOutcome → Prop
  | ready prev next nextPrice => SeamOf b s p q (insertFindResult prev next nextPrice)
  | headWalk => True
  | walkTowardHead hint => ∃ l r o, q = l ++ hint :: r ∧ b.orders hint = some o ∧
      better s p o.price
  | walkTowardTail start => ∃ l r, q = l ++ start :: r ∧ ∀ x, l.getLast? = some x →
      ∃ o, b.orders x = some o ∧ ¬better s p o.price

theorem tryInsertAfterHint_spec (h : Listed b s q) (hnew : Newcomer b p id q) (hint : OrderId) :
    (tryInsertAfterHint b s q.head? hint p id).1.Sound b s p q := by
  unfold tryInsertAfterHint
  cases hh : b.orderOnSide s hint with
  | none => exact trivial
  | some o =>
      obtain ⟨ho, hs⟩ := orderOnSide_eq_some.1 hh
      simp only
      split_ifs with hstray hbef
      · exact trivial
      · obtain ⟨l, r, rfl⟩ := List.append_of_mem (h.mem_of_hint ho hs hstray)
        have hahead := (hnew.before_iff (by simp) ho).1 hbef
        obtain ⟨o', ho', -, -, hon⟩ := h.node
        obtain rfl : o = o' := Option.some.inj (ho.symm.trans ho')
        have hlast : ∀ y, (l ++ [hint]).getLast? = some y →
            ∃ o, b.orders y = some o ∧ ¬better s p o.price := by
          intro y hy
          obtain rfl : hint = y := by simpa using hy
          exact ⟨o, ho, hahead⟩
        have hlr : l ++ hint :: r = (l ++ [hint]) ++ r := by simp
        rw [hlr] at h hnew ⊢
        rw [hon]
        cases r with
        | nil =>
            exact ⟨l ++ [hint], [], rfl, by simp [insertFindResult], rfl, by simp, hlast, by simp⟩
        | cons z r =>
            obtain ⟨oz, hoz, hsz, -, -⟩ := h.node
            simp only [List.head?_cons, orderOnSide_eq_some.2 ⟨hoz, hsz⟩]
            split_ifs with hz
            · have hz' := (hnew.iff_before (by simp) hoz).1 hz
              refine ⟨l ++ [hint], z :: r, rfl, by simp [insertFindResult], rfl, ?_, hlast, ?_⟩
              · rintro y ⟨⟩
                exact ⟨oz, hoz, rfl⟩
              · rintro y ⟨⟩
                exact ⟨oz, hoz, hz'⟩
            · exact ⟨l ++ [hint], r, rfl, hlast⟩
      · -- the newcomer sorts before the hint
        obtain ⟨l, r, rfl⟩ := List.append_of_mem (h.mem_of_hint ho hs hstray)
        refine ⟨l, r, o, rfl, ho, ?_⟩
        by_contra hn
        exact hbef ((hnew.before_iff (by simp) ho).2 hn)

theorem findInsertByHint_spec (h : Listed b s q) (hnew : Newcomer b p id q)
    (hintAfter : Option OrderId) :
    Meets (findInsertByHint b s p id m q.head? hintAfter) (SeamOf b s p q)
      (fun e => e = .limitInsertStepsExceeded m) := by
  cases hintAfter with
  | none => exact walkInsertFromHead_spec h hnew m
  | some hint =>
      have hspec := tryInsertAfterHint_spec h hnew hint
      unfold findInsertByHint
      simp only
      generalize tryInsertAfterHint b s q.head? hint p id = out at hspec ⊢
      obtain ⟨out, steps⟩ := out
      cases out with
      | ready prev next nextPrice => exact hspec
      | headWalk => exact walkInsertFromHead_spec h hnew _
      | walkTowardHead hint' =>
          obtain ⟨l, r, o, rfl, ho, hb⟩ := hspec
          exact walkInsertTowardHead_spec h hnew ⟨o, ho, hb⟩ hint' _
      | walkTowardTail start =>
          obtain ⟨l, r, rfl, hahead⟩ := hspec
          exact walkInsertFrom_spec h hnew hahead _ none (by simp)

theorem tryInsertAfterThreadCursor_spec {cursor : InsertThreadCursor} {found : InsertFindResult}
    (hnew : Newcomer b p id q) (hcur : cursor.Valid b q)
    (hf : tryInsertAfterThreadCursor s cursor p id = some found) : SeamOf b s p q found := by
  obtain ⟨l, r, o, rfl, ho, hop, hnext, hnp⟩ := hcur
  unfold tryInsertAfterThreadCursor at hf
  split_ifs at hf with hb
  rw [← hop] at hb
  have hahead := (hnew.before_iff (by simp) ho).1 hb
  have hlast : ∀ y, (l ++ [cursor.afterId]).getLast? = some y →
      ∃ o, b.orders y = some o ∧ ¬better s p o.price := by
    intro y hy
    obtain rfl : cursor.afterId = y := by simpa using hy
    exact ⟨o, ho, hahead⟩
  rw [hnext] at hf
  cases r with
  | nil =>
      cases hf
      exact ⟨l ++ [cursor.afterId], [], by simp, by simp [insertFindResult], rfl, by simp, hlast,
        by simp⟩
  | cons z r =>
      obtain ⟨oz, hoz, hzp⟩ := hnp z rfl
      simp only [List.head?_cons, hzp] at hf
      split_ifs at hf with hz
      cases hf
      have hz' := (hnew.iff_before (by simp) hoz).1 hz
      refine ⟨l ++ [cursor.afterId], z :: r, by simp, by simp [insertFindResult], rfl, ?_,
        hlast, ?_⟩
      · rintro y ⟨⟩
        exact ⟨oz, hoz, rfl⟩
      · rintro y ⟨⟩
        exact ⟨oz, hoz, hz'⟩

/-- The search answers the seam of the list or runs out of steps. -/
theorem insertNeighbors_spec (h : Listed b s q) (hnew : Newcomer b p id q)
    (threadCursor : Option InsertThreadCursor) (hintAfter : Option OrderId)
    (hcur : ∀ c, threadCursor = some c → c.Valid b q) :
    Meets (insertNeighbors b s p id m threadCursor hintAfter) (SeamOf b s p q)
      (fun e => e = .limitInsertStepsExceeded m) := by
  unfold insertNeighbors
  cases q with
  | nil =>
      rw [h.head]
      exact ⟨[], [], rfl, rfl, rfl, by simp, by simp, by simp⟩
  | cons z q =>
      rw [h.head, List.head?_cons]
      change Meets (findInsert b s p id m (some z) threadCursor hintAfter) _ _
      unfold findInsert
      cases hc : threadCursor.bind fun cursor => tryInsertAfterThreadCursor s cursor p id with
      | none => exact findInsertByHint_spec (q := z :: q) h hnew hintAfter
      | some found =>
          obtain ⟨cursor, hcursor, hf⟩ := Option.bind_eq_some_iff.1 hc
          exact tryInsertAfterThreadCursor_spec hnew (hcur cursor hcursor) hf

end Search

end Cl8yDex
