import Cl8yDex.BookInsert

/-!
# The stored book represents the abstract one

`Represents b A` ties the order map and the two heads to the queues of `A`. Each primitive of the
stored book then performs the corresponding change of `A`, and an insert fails only by running
out of steps.
-/

namespace Cl8yDex

open DoublyLinked Outcome

structure Represents (b : Book) (A : AbsBook) : Prop where
  rows : b.terms = A.rows
  claims : b.expiredLimitClaims = A.claims
  nextId : b.orderNextId = A.nextId
  bounded : A.nextId ≤ u64Max
  escrow : b.pendingEscrow = A.escrow
  head : ∀ s, b.head s = (A.queue s).head?
  linked : ∀ s, Seg b.links none (A.queue s) none
  wf : A.WellFormed

namespace Represents

variable {b b' : Book} {A : AbsBook} {x y : OrderId} {o : LimitOrder} {t : OrderTerms}
  {s : LimitOrderSide}

theorem initial : Represents Book.initial AbsBook.initial where
  rows := rfl
  claims := rfl
  nextId := rfl
  bounded := by decide
  escrow := rfl
  head _ := rfl
  linked _ := trivial
  wf := AbsBook.WellFormed.initial

theorem row (h : Represents b A) (ho : b.orders x = some o) : A.rows x = some o.toOrderTerms := by
  rw [← h.rows, Book.terms_of_orders ho]

theorem order (h : Represents b A) (ht : A.rows x = some t) :
    ∃ o, b.orders x = some o ∧ o.toOrderTerms = t := by
  rw [← h.rows] at ht
  exact Book.terms_eq_some.1 ht

theorem orders_none (h : Represents b A) : b.orders x = none ↔ A.rows x = none := by
  rw [← h.rows, Book.terms, Option.map_eq_none_iff]

theorem listed (h : Represents b A) (s : LimitOrderSide) : Listed b s (A.queue s) where
  head := h.head s
  linked := h.linked s
  nodup := h.wf.nodup s
  side x hx := by
    obtain ⟨t, ht, hs⟩ := h.wf.row_of_mem hx
    obtain ⟨o, ho, rfl⟩ := h.order ht
    exact ⟨o, ho, hs⟩
  stray x o ho hs hx := absurd ((h.wf.mem_queue s x).2 ⟨_, h.row ho, hs⟩) hx

/-- The two queues share no order. -/
theorem queue_disjoint (h : Represents b A) {s s' : LimitOrderSide} (hs : s' ≠ s)
    (hy : y ∈ A.queue s') : y ∉ A.queue s := by
  intro hy'
  obtain ⟨t, ht, hts⟩ := h.wf.row_of_mem hy
  obtain ⟨u, hu, hus⟩ := h.wf.row_of_mem hy'
  rw [ht, Option.some.injEq] at hu
  subst hu
  exact hs (hts.symm.trans hus)

/-- Reserving ids moves only the counter. -/
theorem reserve (h : Represents b A) {count : ℕ} :
    Meets (b.reserveOrderIdBlock count)
      (fun out => out.2 = A.nextId ∧ count ≠ 0 ∧
        Represents out.1 { A with nextId := A.nextId + count })
      (fun e => e = .invariantViolation .zeroOrderIds ∨
        e = .invariantViolation .orderIdOverflow) := by
  unfold Book.reserveOrderIdBlock
  refine (meets_ensure fun _ => .inl rfl).bind fun _ hcount => ?_
  refine (meets_ensure fun _ => .inr rfl).bind fun _ hmax => ?_
  rw [h.nextId] at hmax
  exact ⟨h.nextId, hcount, h.rows, h.claims, congrArg (· + count) h.nextId, hmax, h.escrow,
    h.head, h.linked, AbsBook.WellFormed.step (.reserve A count) h.wf⟩

theorem saveEscrow (h : Represents b A) (n : ℕ) :
    Represents (b.saveEscrow s n) (A.putEscrow s n) where
  rows := h.rows
  claims := h.claims
  nextId := h.nextId
  bounded := h.bounded
  escrow := by simp only [Book.saveEscrow, AbsBook.putEscrow, h.escrow]
  head := h.head
  linked := h.linked
  wf := ⟨h.wf.mem_queue, h.wf.nodup, h.wf.sorted, h.wf.row_lt, h.wf.claim_lt, h.wf.disjoint⟩

/-- Rewriting the terms of a resting order without moving it. -/
theorem saveTerms (h : Represents b A) (ho : b.orders x = some o) {u : OrderTerms}
    (hside : u.side = o.side) (hprice : u.price = o.price) :
    Represents (b.save x ⟨u, o.toLink⟩) (A.putRow x u) where
  rows := by rw [Book.terms_save, h.rows]; rfl
  claims := h.claims
  nextId := h.nextId
  bounded := h.bounded
  escrow := h.escrow
  head := h.head
  linked s := by
    rw [Book.links_save]
    refine (h.linked s).congr fun y _ => ?_
    by_cases hyx : y = x
    · subst hyx
      rw [Function.update_self, Book.links_of_orders ho]
    · rw [Function.update_of_ne hyx]
  wf := h.wf.putRow (h.row ho) hside hprice

theorem saveClaim (h : Represents b A) (row : Option ExpiredLimitRefund)
    (hwf : (A.putClaim x row).WellFormed) : Represents (b.saveClaim x row) (A.putClaim x row) where
  rows := h.rows
  claims := by simp only [Book.saveClaim, AbsBook.putClaim, h.claims]
  nextId := h.nextId
  bounded := h.bounded
  escrow := h.escrow
  head := h.head
  linked := h.linked
  wf := hwf

/-- The bypass step of both `unlinkOrder` and `detachLimitOrderFromBook`. -/
theorem bypass (h : Represents b A) (ho : b.orders x = some o) :
    ∃ l r b', A.queue o.side = l ++ x :: r ∧ b.bypassOrder x o = .ok b' ∧
      Book.Edited b b' b.terms (DoublyLinked.bypass b.links l.getLast? r.head?)
        (Function.update b.head o.side (l ++ r).head?) := by
  have hx : x ∈ A.queue o.side := h.wf.mem_of_row (h.row ho)
  obtain ⟨l, r, hq⟩ := List.append_of_mem hx
  have hl := h.listed o.side
  rw [hq] at hl
  obtain ⟨b', hb', he⟩ := Book.bypassOrder_spec ho hl.head hl.linked hl.nodup
  exact ⟨l, r, b', hq, hb', he⟩

theorem erase_eq {l r : List OrderId} (h : Represents b A) (hq : A.queue s = l ++ x :: r) :
    (A.queue s).erase x = l ++ r := by
  have hn := h.wf.nodup s
  rw [hq] at hn ⊢
  have hx : x ∉ l := fun hx => (List.disjoint_of_nodup_append hn) hx (by simp)
  rw [List.erase_append_right _ hx, List.erase_cons_head]

/-- After the bypass every side is linked without `x`. -/
theorem bypass_linked {l r : List OrderId} (h : Represents b A) (hq : A.queue s = l ++ x :: r)
    (s' : LimitOrderSide) :
    Seg (DoublyLinked.bypass b.links l.getLast? r.head?) none ((A.withdraw s x).queue s') none := by
  by_cases hs : s' = s
  · subst hs
    have hseg := h.linked s'
    have hn := h.wf.nodup s'
    have hqw : (A.withdraw s' x).queue s' = (A.queue s').erase x := by simp [AbsBook.withdraw]
    rw [hqw, h.erase_eq hq]
    rw [hq] at hseg hn
    exact hseg.bypass hn
  · have hqw : (A.withdraw s x).queue s' = A.queue s' := by simp [AbsBook.withdraw, hs]
    rw [hqw]
    refine (h.linked s').bypass_frame fun y hy hmem => h.queue_disjoint hs hy ?_
    rw [hq]
    rcases List.mem_append.1 hmem with hmem | hmem
    · exact List.mem_append_left _ hmem
    · exact List.mem_append_right _ (List.mem_cons_of_mem x hmem)

theorem bypass_head {l r : List OrderId} (h : Represents b A) (hq : A.queue s = l ++ x :: r)
    (s' : LimitOrderSide) :
    Function.update b.head s (l ++ r).head? s' = ((A.withdraw s x).queue s').head? := by
  by_cases hs : s' = s
  · subst hs
    have hqw : (A.withdraw s' x).queue s' = (A.queue s').erase x := by simp [AbsBook.withdraw]
    rw [hqw, h.erase_eq hq, Function.update_self]
  · have hqw : (A.withdraw s x).queue s' = A.queue s' := by simp [AbsBook.withdraw, hs]
    rw [hqw, Function.update_of_ne hs, h.head]

/-- Changing the links of `x` alone keeps every list that does not hold `x`. -/
theorem seg_update {m : OrderId → Option (Link OrderId)} {q : List OrderId}
    {lk : Option (Link OrderId)} (h : Seg m none q none) (hx : x ∉ q) :
    Seg (Function.update m x lk) none q none :=
  h.congr fun _ hy => Function.update_of_ne (ne_of_mem_of_not_mem hy hx) _ _

/-- Unlinking a stored order succeeds, answers it and takes it out of its queue. -/
theorem unlink (h : Represents b A) (ho : b.orders x = some o) :
    ∃ b', unlinkOrder b x = .ok (b', o) ∧ Represents b' (A.withdraw o.side x) := by
  obtain ⟨l, r, b₁, hq, hb₁, he⟩ := h.bypass ho
  have hwf := h.wf.withdraw (h.row ho)
  refine ⟨b₁.remove x, ?_, ?_, ?_, ?_, h.bounded, ?_, ?_, ?_, hwf⟩
  · simp only [unlinkOrder, load_eq ho, ok_bind, hb₁]
    rfl
  · rw [Book.terms_remove, he.terms, h.rows]
    rfl
  · exact he.claims.trans h.claims
  · exact he.nextId.trans h.nextId
  · exact he.escrow.trans h.escrow
  · intro s
    change b₁.head s = _
    rw [he.head]
    exact h.bypass_head hq s
  · intro s
    rw [Book.links_remove, he.links]
    exact seg_update (h.bypass_linked hq s) (hwf.notMem_of_row AbsBook.withdraw_rows_self)

end Represents

/-- `c` represents `A`, apart from an order `x` that may be stored outside both lists. -/
structure Detached (c : Book) (A : AbsBook) (x : OrderId) : Prop where
  rows : ∀ y, y ≠ x → c.terms y = A.rows y
  claims : c.expiredLimitClaims = A.claims
  nextId : c.orderNextId = A.nextId
  bounded : A.nextId ≤ u64Max
  escrow : c.pendingEscrow = A.escrow
  head : ∀ s, c.head s = (A.queue s).head?
  linked : ∀ s, Seg c.links none (A.queue s) none
  wf : A.WellFormed
  absent : A.rows x = none
  stray : ∀ o, c.orders x = some o → o.prev = none

theorem Represents.detached {b : Book} {A : AbsBook} {x : OrderId} (h : Represents b A)
    (hx : A.rows x = none) : Detached b A x where
  rows y _ := congrFun h.rows y
  claims := h.claims
  nextId := h.nextId
  bounded := h.bounded
  escrow := h.escrow
  head := h.head
  linked := h.linked
  wf := h.wf
  absent := hx
  stray o ho := absurd ((h.row ho).symm.trans hx) (by simp)

theorem Represents.detach {b : Book} {A : AbsBook} {x : OrderId} {o : LimitOrder}
    (h : Represents b A) (ho : b.orders x = some o) :
    ∃ c o', detachLimitOrderFromBook b x = .ok (c, o') ∧ o'.toOrderTerms = o.toOrderTerms ∧
      Detached c (A.withdraw o.side x) x := by
  obtain ⟨l, r, b₁, hq, hb₁, he⟩ := h.bypass ho
  have hwf := h.wf.withdraw (h.row ho)
  refine ⟨b₁.save x { o with prev := none, next := none }, { o with prev := none, next := none },
    ?_, rfl, ?_, ?_, ?_, h.bounded, ?_, ?_, ?_, hwf, AbsBook.withdraw_rows_self, ?_⟩
  · simp only [detachLimitOrderFromBook, load_eq ho, ok_bind, hb₁]
    rfl
  · intro y hy
    rw [Book.terms_save, Function.update_of_ne hy, he.terms, h.rows, AbsBook.withdraw_rows_of_ne hy]
  · exact he.claims.trans h.claims
  · exact he.nextId.trans h.nextId
  · exact he.escrow.trans h.escrow
  · intro s
    change b₁.head s = _
    rw [he.head]
    exact h.bypass_head hq s
  · intro s
    rw [Book.links_save, he.links]
    exact Represents.seg_update (h.bypass_linked hq s)
      (hwf.notMem_of_row AbsBook.withdraw_rows_self)
  · intro o' ho'
    obtain rfl := Option.some.inj ((Function.update_self x _ b₁.orders).symm.trans ho')
    rfl

namespace Detached

variable {c : Book} {A : AbsBook} {x y : OrderId} {t : OrderTerms} {s : LimitOrderSide}

theorem order (h : Detached c A x) (hy : y ≠ x) {u : OrderTerms} (hu : A.rows y = some u) :
    ∃ o, c.orders y = some o ∧ o.toOrderTerms = u := by
  rw [← h.rows y hy] at hu
  exact Book.terms_eq_some.1 hu

theorem row (h : Detached c A x) (hy : y ≠ x) {o : LimitOrder} (ho : c.orders y = some o) :
    A.rows y = some o.toOrderTerms := by
  rw [← h.rows y hy, Book.terms_of_orders ho]

theorem ne_of_mem (h : Detached c A x) (hy : y ∈ A.queue s) : y ≠ x :=
  ne_of_mem_of_not_mem hy (h.wf.notMem_of_row h.absent)

theorem listed (h : Detached c A x) (s : LimitOrderSide) : Listed c s (A.queue s) where
  head := h.head s
  linked := h.linked s
  nodup := h.wf.nodup s
  side y hy := by
    obtain ⟨u, hu, hs⟩ := h.wf.row_of_mem hy
    obtain ⟨o, ho, rfl⟩ := h.order (h.ne_of_mem hy) hu
    exact ⟨o, ho, hs⟩
  stray y o ho hs hy := by
    by_cases hyx : y = x
    · subst hyx
      exact h.stray o ho
    · exact absurd ((h.wf.mem_queue s y).2 ⟨_, h.row hyx ho, hs⟩) hy

/-- A seam of the stored list is where the abstract queue lets a newcomer join. -/
theorem enqueue_of_seam {p : Decimal} {l r : List OrderId} {found : InsertFindResult}
    (h : Detached c A x) (hq : A.queue s = l ++ r) (hseam : Seam c s p l r found) :
    A.enqueue s p x = l ++ x :: r := by
  have hne : ∀ y ∈ l ++ r, y ≠ x := fun y hy => h.ne_of_mem (s := s) (hq ▸ hy)
  have hmono := h.wf.staysAhead_mono (s := s) p
  rw [hq] at hmono
  have hl : ∀ y ∈ l, A.StaysAhead s p y := by
    intro y hy
    have hnil : l ≠ [] := List.ne_nil_of_mem hy
    obtain ⟨o, ho, hb⟩ := hseam.ahead _ (List.getLast?_eq_some_getLast hnil)
    have hlx := hne _ (List.mem_append_left r (List.getLast_mem hnil))
    have hlast : A.StaysAhead s p (l.getLast hnil) :=
      (AbsBook.staysAhead_iff (h.row hlx ho)).2 hb
    by_cases hyl : y = l.getLast hnil
    · rwa [hyl]
    · have hsplit := List.dropLast_append_getLast hnil
      have hyd : y ∈ l.dropLast := by
        rw [← hsplit, List.mem_append] at hy
        exact hy.resolve_right fun hy => hyl (by simpa using hy)
      have hpl := (List.pairwise_append.1 hmono).1
      rw [← hsplit, List.pairwise_append] at hpl
      exact hpl.2.2 y hyd _ (by simp) hlast
  have hr : ∀ y, r.head? = some y → ¬A.StaysAhead s p y := by
    intro y hy
    obtain ⟨o, ho, hb⟩ := hseam.behind y hy
    have hyx := hne y (List.mem_append_right l (List.mem_of_head? hy))
    rw [AbsBook.staysAhead_iff (h.row hyx ho)]
    exact not_not.2 hb
  obtain ⟨h1, h2⟩ := TailQueue.split_unique hl hr
  rw [AbsBook.enqueue, hq, TailQueue.join, h1, h2]

/-- Linking the order at the seam the search answered gives the abstract `place`. -/
theorem link {found : InsertFindResult} (h : Detached c A x) (hclaim : A.claims x = none)
    (hlt : x < A.nextId) (hseam : SeamOf c t.side t.price (A.queue t.side) found) :
    ∃ c', c.linkOrder x t found.prev found.next = .ok c' ∧ Represents c' (A.place x t) ∧
      (nextThreadCursor x t.price found).Valid c' ((A.place x t).queue t.side) := by
  obtain ⟨l, r, hq, hseam⟩ := hseam
  have hx : x ∉ l ++ r := hq ▸ h.wf.notMem_of_row h.absent
  have hlist := h.listed t.side
  rw [hq] at hlist
  obtain ⟨c', hc', he⟩ := Book.linkOrder_spec hlist.head hlist.linked hx
  have henq := h.enqueue_of_seam hq hseam
  have hwf := h.wf.place (t := t) h.absent hclaim hlt
  have hrows : c'.terms = (A.place x t).rows := by
    rw [he.terms]
    funext y
    by_cases hyx : y = x
    · subst hyx
      simp
    · rw [Function.update_of_ne hyx, h.rows y hyx, AbsBook.place_rows_of_ne hyx]
  refine ⟨c', by rw [hseam.prev, hseam.next]; exact hc', ?_, ?_⟩
  · refine ⟨hrows, he.claims.trans h.claims, he.nextId.trans h.nextId, h.bounded,
      he.escrow.trans h.escrow, ?_, ?_, hwf⟩
    · intro s
      rw [he.head]
      by_cases hs : s = t.side
      · subst hs
        rw [Function.update_self, AbsBook.place_queue_self, henq]
      · rw [Function.update_of_ne hs, AbsBook.place_queue_of_ne hs, h.head]
    · intro s
      rw [he.links]
      by_cases hs : s = t.side
      · subst hs
        rw [AbsBook.place_queue_self, henq]
        exact hlist.linked.link hlist.nodup hx
      · rw [AbsBook.place_queue_of_ne hs]
        refine (h.linked s).link_frame (fun y hy hmem => ?_)
          (h.wf.notMem_of_row h.absent)
        obtain ⟨u, hu, hus⟩ := h.wf.row_of_mem hy
        obtain ⟨v, hv, hvs⟩ := h.wf.row_of_mem (s := t.side) (hq ▸ hmem)
        rw [hu, Option.some.injEq] at hv
        subst hv
        exact hs (hus.symm.trans hvs)
  · have hcx : ∃ o, c'.orders x = some o ∧ o.toOrderTerms = t := by
      refine Book.terms_eq_some.1 ?_
      rw [hrows, AbsBook.place_rows_self]
    obtain ⟨o, ho, hot⟩ := hcx
    refine ⟨l, r, o, ?_, ho, by rw [hot]; rfl, hseam.next, ?_⟩
    · rw [AbsBook.place_queue_self, henq]
      rfl
    · intro y hy
      obtain ⟨oy, hoy, hnp⟩ := hseam.nextPrice y hy
      have hyx : y ≠ x := ne_of_mem_of_not_mem (List.mem_append_right l (List.mem_of_head? hy)) hx
      have hty : c'.terms y = some oy.toOrderTerms := by
        rw [hrows, AbsBook.place_rows_of_ne hyx, ← h.rows y hyx, Book.terms_of_orders hoy]
      obtain ⟨o', ho', hoo⟩ := Book.terms_eq_some.1 hty
      refine ⟨o', ho', ?_⟩
      change found.nextPrice = _
      rw [hnp, hoo]

end Detached

section Inserts

variable {b : Book} {A : AbsBook} {x : OrderId} {t : OrderTerms}

/-- An insert of a fresh order is the abstract `place`, or the search ran out of steps. -/
theorem insertOrder_spec (h : Represents b A) (hrow : A.rows x = none)
    (hclaim : A.claims x = none) (hlt : x < A.nextId)
    (hnew : ∀ y ∈ A.queue t.side, ∀ u, A.rows y = some u → u.price = t.price → y < x)
    {threadCursor : Option InsertThreadCursor}
    (hcur : ∀ cu, threadCursor = some cu → cu.Valid b (A.queue t.side))
    (hintAfter : Option OrderId) (maxAdjustSteps : ℕ) :
    Meets (insertOrder b x t threadCursor hintAfter maxAdjustSteps)
      (fun out => Represents out.1 (A.place x t) ∧ out.2.id = x ∧
        out.2.threadCursor.Valid out.1 ((A.place x t).queue t.side))
      (fun e => ∃ max, e = .limitInsertStepsExceeded max) := by
  have hd := h.detached hrow
  have hnew' : Newcomer b t.price x (A.queue t.side) := fun y hy o ho hp =>
    hnew y hy o.toOrderTerms (h.row ho) hp
  have hfind := insertNeighbors_spec (m := min maxAdjustSteps maxAdjustStepsHardCap)
    (hd.listed t.side) hnew' threadCursor hintAfter hcur
  refine (hfind.mono (fun _ hf => hf) fun e he => ⟨_, he⟩).bind fun found hseam => ?_
  obtain ⟨c', hc', hrep, hvalid⟩ := hd.link hclaim hlt hseam
  rw [hc', ok_bind]
  exact ⟨hrep, rfl, hvalid⟩

/-- A repriced order joins the tail of its new price, or the search ran out of steps. -/
theorem relinkLimitOrderPrice_spec {o : LimitOrder} (h : Represents b A)
    (ho : b.orders x = some o) {p : Decimal} (hp : o.price ≠ p) (hintAfter : Option OrderId)
    (maxAdjustSteps : ℕ) :
    Meets (relinkLimitOrderPrice b x p hintAfter maxAdjustSteps)
      (fun b' => Represents b'
        ((A.withdraw o.side x).place x { o.toOrderTerms with price := p }))
      (fun e => ∃ max, e = .limitInsertStepsExceeded max) := by
  obtain ⟨c, o', hc, hterms, hd⟩ := h.detach ho
  have hside : o'.side = o.side := congrArg OrderTerms.side hterms
  unfold relinkLimitOrderPrice
  rw [load_eq ho, ok_bind, if_neg hp, hc, ok_bind]
  simp only [linkOrderAtId, hterms]
  have hnew : Newcomer c p relinkEqualPriceSortId ((A.withdraw o.side x).queue o.side) := by
    intro y hy oy hoy _
    have hlt := hd.wf.row_lt y _ (hd.row (hd.ne_of_mem hy) hoy)
    exact lt_of_lt_of_le hlt hd.bounded
  have hfind := insertNeighbors_spec (m := min maxAdjustSteps maxAdjustStepsHardCap)
    (hd.listed o.side) hnew none hintAfter (by simp)
  refine (hfind.mono (fun _ hf => hf) fun e he => ⟨_, he⟩).bind fun found hseam => ?_
  obtain ⟨c', hc', hrep, -⟩ := hd.link (t := { o.toOrderTerms with price := p })
    (h.wf.disjoint x _ (h.row ho)) (h.wf.row_lt x _ (h.row ho)) hseam
  rw [hc']
  exact hrep

end Inserts

end Cl8yDex
