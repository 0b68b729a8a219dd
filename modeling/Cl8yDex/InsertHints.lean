import Cl8yDex.Arrival
import Cl8yDex.PairRuns

/-!
# The book of every reachable pair

Each side is a doubly linked list with inverse pointers that holds the orders of its side, best
price first and first come first served within a price. No id is handed out twice, and none is both
resting and waiting for its claim.
-/

namespace Cl8yDex

open DoublyLinked

/-- A run of `n` steps to `p`, with the stamp of the last arrival of every order. -/
inductive History : PairStorage → ℕ → (OrderId → Stamp) → Prop
  | start {p : PairStorage} (h : Starts p) (f : OrderId → Stamp) : History p 0 f
  | step {p p' : PairStorage} {n : ℕ} {f : OrderId → Stamp} (h : History p n f) (hc : Change p p') :
      History p' (n + 1) (restamp n p.book.terms p'.book.terms f)

theorem History.invariant {p : PairStorage} {n : ℕ} {f : OrderId → Stamp} (h : History p n f) :
    ∃ A, Healthy p A ∧ A.Fifo f ∧ A.StampedBefore f n := by
  induction h with
  | start h f =>
      refine ⟨_, h.healthy, fun s => .nil, fun x t ht => ?_⟩
      cases ht
  | step _ hc ih =>
      obtain ⟨A, hA, hfifo, hold⟩ := ih
      obtain ⟨acts, A', hmoved, hA'⟩ := hc.healthy hA
      rw [hA.rep.rows, hA'.rep.rows]
      exact ⟨A', hA', hmoved.kind.fifo hmoved.run hA.rep.wf hfifo hold, hold.restamp⟩

/-- The list `l` is the side `s` of the book. -/
structure Book.Lists (b : Book) (s : LimitOrderSide) (l : List OrderId) : Prop where
  head : b.head s = l.head?
  nodup : l.Nodup
  linked : Seg b.links none l none
  nodes : ∀ x, x ∈ l ↔ ∃ o, b.orders x = some o ∧ o.side = s
  inverse : ∀ x ∈ l, ∀ y ∈ l, ∀ o u, b.orders x = some o → b.orders y = some u →
    (o.next = some y ↔ u.prev = some x)
  first : ∀ x o, b.head s = some x → b.orders x = some o → o.prev = none

/-- What the representation promises: both sides in price-time order, and every id in one place. -/
structure Book.Intact (b : Book) (f : OrderId → Stamp) : Prop where
  sides : ∀ s, ∃ l, b.Lists s l ∧
    l.Pairwise fun x y => ∀ o u, b.orders x = some o → b.orders y = some u →
      ¬better s u.price o.price ∧ (o.price = u.price → f x < f y)
  disjoint : ∀ x o, b.orders x = some o → b.expiredLimitClaims x = none
  orders_lt : ∀ x o, b.orders x = some o → x < b.orderNextId
  claims_lt : ∀ x r, b.expiredLimitClaims x = some r → x < b.orderNextId

theorem Represents.lists {b : Book} {A : AbsBook} (h : Represents b A) (s : LimitOrderSide) :
    b.Lists s (A.queue s) where
  head := h.head s
  nodup := h.wf.nodup s
  linked := h.linked s
  nodes x := by
    rw [h.wf.mem_queue]
    constructor
    · rintro ⟨t, ht, hs⟩
      rw [← h.rows] at ht
      obtain ⟨o, ho, rfl⟩ := Book.terms_eq_some.1 ht
      exact ⟨o, ho, hs⟩
    · rintro ⟨o, ho, hs⟩
      exact ⟨_, h.row ho, hs⟩
  inverse x hx y hy o u ho hu := by
    have hinv := (h.linked s).next_iff_prev (h.wf.nodup s) hx hy
    rwa [Book.links_of_orders ho, Book.links_of_orders hu] at hinv
  first x o hx ho := by
    rw [h.head] at hx
    have hlinked := h.linked s
    cases hq : A.queue s with
    | nil => simp [hq] at hx
    | cons y l =>
        rw [hq] at hx hlinked
        obtain rfl : y = x := by simpa using hx
        have hnode := hlinked.1
        rw [Book.links_of_orders ho, Option.some.injEq] at hnode
        exact congrArg Link.prev hnode

theorem Represents.intact {b : Book} {A : AbsBook} {f : OrderId → Stamp} (h : Represents b A)
    (hf : A.Fifo f) : b.Intact f where
  sides s := by
    refine ⟨A.queue s, h.lists s, ((h.wf.sorted s).and (hf s)).imp ?_⟩
    rintro x y ⟨hsorted, hfifo⟩ o u ho hu
    exact ⟨hsorted _ (h.row ho) _ (h.row hu), hfifo _ (h.row ho) _ (h.row hu)⟩
  disjoint x o ho := by
    rw [h.claims]
    exact h.wf.disjoint x _ (h.row ho)
  orders_lt x o ho := by
    rw [h.nextId]
    exact h.wf.row_lt x _ (h.row ho)
  claims_lt x r hr := by
    rw [h.nextId]
    rw [h.claims] at hr
    exact h.wf.claim_lt x r hr

/-- After any run the book is intact. -/
theorem book_intact {p : PairStorage} {n : ℕ} {f : OrderId → Stamp} (h : History p n f) :
    p.book.Intact f := by
  obtain ⟨A, hA, hfifo, -⟩ := h.invariant
  exact hA.rep.intact hfifo

theorem book_intact_sample : sampleBook.book.Intact (restamp 1 samplePool.book.terms
    sampleBook.book.terms (restamp 0 samplePair.book.terms samplePool.book.terms fun _ =>
      toLex (0, 0))) ∧ sampleBook.book.head .bid = some 1 :=
  ⟨book_intact (.step (.step (.start samplePair_starts _) (.transact (by decide +kernel)))
    (.transact (by decide +kernel))), by decide +kernel⟩

end Cl8yDex

/-!
## Hints and cursors only save steps

Whatever hint or thread cursor an insert starts from, it puts the order behind everything of better
or equal price and ahead of everything worse, which is where a walk from the head would put it. It
can only run out of steps, and then it has written nothing.
-/

namespace Cl8yDex

open DoublyLinked Outcome

def Book.Sound (b : Book) : Prop := ∃ A, Represents b A

/-- The id is reserved and unused, and newer than everything resting at the price. -/
structure Book.Fresh (b : Book) (id : OrderId) (t : OrderTerms) : Prop where
  reserved : id < b.orderNextId
  unplaced : b.orders id = none
  unclaimed : b.expiredLimitClaims id = none
  newest : ∀ y o, b.orders y = some o → o.side = t.side → o.price = t.price → y < id

/-- A book in the middle of a batch on one side, with the cursor that the last insert left. -/
inductive Cursored (side : LimitOrderSide) : Book → Option InsertThreadCursor → Prop
  | start {b : Book} (h : b.Sound) : Cursored side b none
  | insert {b b' : Book} {cursor : Option InsertThreadCursor} {id : OrderId} {t : OrderTerms}
      {hintAfter : Option OrderId} {maxAdjustSteps : ℕ} {outcome : BatchInsertOutcome}
      (h : Cursored side b cursor) (hside : t.side = side) (hfresh : b.Fresh id t)
      (hok : insertOrder b id t cursor hintAfter maxAdjustSteps = .ok (b', outcome)) :
      Cursored side b' (some outcome.threadCursor)

/-- The order `id` rests on its terms behind every better or equal price and ahead of every worse
one; the rest of both lists is as it was. -/
structure InPlace (b b' : Book) (id : OrderId) (t : OrderTerms) : Prop where
  side : ∃ q l r, b.Lists t.side q ∧ q.erase id = l ++ r ∧ b'.Lists t.side (l ++ id :: r) ∧
    (∀ y ∈ l, ∀ o, b.orders y = some o → ¬better t.side t.price o.price) ∧
    ∀ y ∈ r, ∀ o, b.orders y = some o → better t.side t.price o.price
  other : ∀ s ≠ t.side, ∃ q, b.Lists s q ∧ b'.Lists s q
  terms : b'.terms = Function.update b.terms id (some t)

/-- The search never answers with the fallback of the walk towards the head. -/
def NoFallback (c : Book) (key : OrderId) (t : OrderTerms) (max : ℕ)
    (threadCursor : Option InsertThreadCursor) (hintAfter : Option OrderId) : Prop :=
  ∀ found, insertNeighbors c t.side t.price key max threadCursor hintAfter = .ok found →
    ∀ hint, found ≠ ⟨none, some hint, none⟩

/-- A walk from the head with steps to spare links the order to the same effect. -/
def HeadWalkGives (c : Book) (id key : OrderId) (t : OrderTerms) (b' : Book) : Prop :=
  ∃ n, ∀ max left, n ≤ left → ∃ found,
    walkInsertFromHead c t.side t.price key max left (c.head t.side) = .ok found ∧
      c.linkOrder id t found.prev found.next = .ok b'

section Search

variable {b c : Book} {A : AbsBook} {s : LimitOrderSide} {p : Decimal} {id key x : OrderId}
  {t : OrderTerms} {l r : List OrderId} {m : ℕ}

variable (p id m) in
theorem walkInsertFrom_isOk (h : Listed b s (l ++ r)) (left : ℕ) (hleft : r.length ≤ left)
    (prev : Option OrderId) : ∃ found, walkInsertFrom b s p id m left prev r.head? = .ok found := by
  induction r generalizing l left prev with
  | nil =>
      cases left <;> exact ⟨_, rfl⟩
  | cons x r ih =>
      cases left with
      | zero => cases hleft
      | succ left =>
          obtain ⟨o, ho, -, -, hon⟩ := h.node
          rw [List.head?_cons, walkInsertFrom, load_eq ho, ok_bind]
          split_ifs with hb
          · exact ⟨_, rfl⟩
          · have hlx : l ++ x :: r = (l ++ [x]) ++ r := by simp
            rw [hlx] at h
            rw [hon]
            exact ih h left (Nat.le_of_succ_le_succ hleft) (some x)

/-- The price order of the book leaves one seam. -/
theorem Detached.seam_unique {found found' : InsertFindResult} (h : Detached c A x)
    (hf : SeamOf c s p (A.queue s) found) (hf' : SeamOf c s p (A.queue s) found') :
    found'.prev = found.prev ∧ found'.next = found.next := by
  obtain ⟨l, r, hq, hseam⟩ := hf
  obtain ⟨l', r', hq', hseam'⟩ := hf'
  have hx := h.wf.notMem_of_row (s := s) h.absent
  have hl : x ∉ l := fun hm => hx (hq ▸ List.mem_append_left r hm)
  have hr : x ∉ r := fun hm => hx (hq ▸ List.mem_append_right l hm)
  have heq : l ++ x :: r = l' ++ x :: r' :=
    (h.enqueue_of_seam hq hseam).symm.trans (h.enqueue_of_seam hq' hseam')
  obtain ⟨rfl, -, rfl⟩ := (List.append_cons_inj_of_notMem hl hr).1 heq
  exact ⟨hseam'.prev.trans hseam.prev.symm, hseam'.next.trans hseam.next.symm⟩

/-- The search and the link that follows, next to a walk from the head. -/
theorem Detached.search (h : Detached c A x) (hclaim : A.claims x = none) (hlt : x < A.nextId)
    (hnew : Newcomer c t.price key (A.queue t.side)) (threadCursor : Option InsertThreadCursor)
    (hintAfter : Option OrderId)
    (hcur : ∀ cu, threadCursor = some cu → cu.Valid c (A.queue t.side)) :
    Meets (insertNeighbors c t.side t.price key m threadCursor hintAfter)
      (fun found => ∃ c', c.linkOrder x t found.prev found.next = .ok c' ∧
        Represents c' (A.place x t) ∧
        (nextThreadCursor x t.price found).Valid c' ((A.place x t).queue t.side) ∧
        HeadWalkGives c x key t c' ∧ ∀ hint, found ≠ ⟨none, some hint, none⟩)
      (fun e => e = .limitInsertStepsExceeded m) := by
  have hlist := h.listed t.side
  refine (insertNeighbors_spec hlist hnew threadCursor hintAfter hcur).weaken fun found hseam => ?_
  obtain ⟨c', hc', hrep, hvalid⟩ := h.link hclaim hlt hseam
  refine ⟨c', hc', hrep, hvalid, ⟨(A.queue t.side).length, fun max left hleft => ?_⟩, ?_⟩
  · obtain ⟨found', hfound'⟩ := walkInsertFrom_isOk t.price key max
      (show Listed _ t.side ([] ++ _) from hlist) left hleft none
    have hseam' := (walkInsertFromHead_spec (m := max) hlist hnew left).success hfound'
    obtain ⟨hprev, hnext⟩ := h.seam_unique hseam hseam'
    refine ⟨found', ?_, by rw [hprev, hnext, hc']⟩
    rw [h.head]
    exact hfound'
  · rintro hint rfl
    obtain ⟨l, r, -, hs⟩ := hseam
    obtain ⟨o, -, hnone⟩ := hs.nextPrice hint hs.next.symm
    cases hnone

end Search

section Inserts

variable {b c : Book} {A : AbsBook} {side : LimitOrderSide} {cursor : Option InsertThreadCursor}
  {x : OrderId} {t : OrderTerms}

/-- A book that represents the abstract `place` has the order in place. -/
theorem Represents.inPlace {b' : Book} {B : AbsBook} (h : Represents b A)
    (h' : Represents b' (B.place x t)) (hrows : ∀ y, y ≠ x → B.rows y = A.rows y)
    (hqueue : B.queue t.side = (A.queue t.side).erase x)
    (hother : ∀ s ≠ t.side, B.queue s = A.queue s) (hB : B.WellFormed) (hx : B.rows x = none) :
    InPlace b b' x t := by
  have hmono := hB.staysAhead_mono (s := t.side) t.price
  have hmem : ∀ y ∈ B.queue t.side, y ≠ x := fun y hy =>
    ne_of_mem_of_not_mem hy (hB.notMem_of_row hx)
  have hold : ∀ y ∈ B.queue t.side, ∀ o, b.orders y = some o →
      (B.StaysAhead t.side t.price y ↔ ¬better t.side t.price o.price) := by
    intro y hy o ho
    have hrow : B.rows y = some o.toOrderTerms := by
      rw [hrows y (hmem y hy), h.row ho]
    exact AbsBook.staysAhead_iff hrow
  refine ⟨⟨A.queue t.side, TailQueue.ahead (B.StaysAhead t.side t.price) (B.queue t.side),
    TailQueue.behind (B.StaysAhead t.side t.price) (B.queue t.side), h.lists t.side, ?_, ?_,
    fun y hy o ho => ?_, fun y hy o ho => ?_⟩, fun s hs => ⟨A.queue s, h.lists s, ?_⟩, ?_⟩
  · rw [← hqueue]
    exact (TailQueue.ahead_append_behind (p := B.StaysAhead t.side t.price)).symm
  · have hlists := h'.lists t.side
    rwa [AbsBook.place_queue_self] at hlists
  · have hyq := (List.takeWhile_sublist _).subset hy
    exact (hold y hyq o ho).1 (TailQueue.of_mem_ahead hy)
  · have hyq := (List.dropWhile_sublist _).subset hy
    have hn := TailQueue.of_mem_behind hmono hy
    rw [hold y hyq o ho] at hn
    exact not_not.1 hn
  · have hlists := h'.lists s
    rwa [AbsBook.place_queue_of_ne hs, hother s hs] at hlists
  · rw [h'.rows, h.rows]
    funext y
    by_cases hy : y = x
    · subst hy
      rw [AbsBook.place_rows_self, Function.update_self]
    · rw [AbsBook.place_rows_of_ne hy, Function.update_of_ne hy, hrows y hy]

section FreshOrder

variable (hfresh : b.Fresh x t) (h : Represents b A)
include hfresh h

theorem Book.Fresh.absent : A.rows x = none ∧ A.claims x = none ∧ x < A.nextId := by
  refine ⟨h.orders_none.1 hfresh.unplaced, ?_, ?_⟩
  · rw [← h.claims]
    exact hfresh.unclaimed
  · rw [← h.nextId]
    exact hfresh.reserved

theorem Book.Fresh.newcomer : Newcomer b t.price x (A.queue t.side) := by
  intro y hy o ho hp
  obtain ⟨u, hu, hs⟩ := h.wf.row_of_mem hy
  rw [h.row ho, Option.some.injEq] at hu
  subst hu
  exact hfresh.newest y o ho hs hp

end FreshOrder

/-- An insert of a fresh order, from any valid cursor. -/
theorem Book.Fresh.insert_spec (hfresh : b.Fresh x t) (h : Represents b A)
    (hcur : ∀ cu, cursor = some cu → cu.Valid b (A.queue t.side)) (hintAfter : Option OrderId)
    (maxAdjustSteps : ℕ) : Meets (insertOrder b x t cursor hintAfter maxAdjustSteps)
      (fun out => InPlace b out.1 x t ∧ HeadWalkGives b x x t out.1 ∧
        Represents out.1 (A.place x t) ∧
        out.2.threadCursor.Valid out.1 ((A.place x t).queue t.side))
      (fun e => e = .limitInsertStepsExceeded (min maxAdjustSteps maxAdjustStepsHardCap)) := by
  obtain ⟨hrow, hclaim, hlt⟩ := hfresh.absent h
  have hd := h.detached hrow
  have hsearch := hd.search (m := min maxAdjustSteps maxAdjustStepsHardCap) hclaim hlt
    (hfresh.newcomer h) cursor hintAfter hcur
  refine hsearch.bind fun found hfound => ?_
  obtain ⟨c', hc', hrep, hvalid, hwalk, -⟩ := hfound
  rw [hc', ok_bind]
  refine ⟨h.inPlace hrep (fun _ _ => rfl) ?_ (fun _ _ => rfl) h.wf hrow, hwalk, hrep, hvalid⟩
  exact (List.erase_of_not_mem (h.wf.notMem_of_row hrow)).symm

theorem Cursored.invariant (h : Cursored side b cursor) : ∃ A, Represents b A ∧
    ∀ cu, cursor = some cu → cu.Valid b (A.queue side) := by
  induction h with
  | start h =>
      obtain ⟨A, hA⟩ := h
      exact ⟨A, hA, by simp⟩
  | @insert b b' cursor id t hint steps outcome _ hside hfresh hok ih =>
      obtain ⟨A, hA, hcur⟩ := ih
      subst hside
      obtain ⟨-, -, hrep, hvalid⟩ := (hfresh.insert_spec hA hcur hint steps).success hok
      refine ⟨_, hrep, fun cu hcu => ?_⟩
      obtain rfl := Option.some.inj hcu
      exact hvalid

/-- A repriced order, whatever the hint. -/
theorem Represents.reprice_spec {o : LimitOrder} {p : Decimal} (h : Represents b A)
    (ho : b.orders x = some o) (hp : o.price ≠ p) (hintAfter : Option OrderId)
    (maxAdjustSteps : ℕ) : ∃ c o', detachLimitOrderFromBook b x = .ok (c, o') ∧
      Meets (relinkLimitOrderPrice b x p hintAfter maxAdjustSteps)
        (fun b' => InPlace b b' x { o.toOrderTerms with price := p } ∧
          HeadWalkGives c x relinkEqualPriceSortId { o.toOrderTerms with price := p } b')
        (fun e => e = .limitInsertStepsExceeded (min maxAdjustSteps maxAdjustStepsHardCap)) ∧
      NoFallback c relinkEqualPriceSortId { o.toOrderTerms with price := p }
        (min maxAdjustSteps maxAdjustStepsHardCap) none hintAfter := by
  obtain ⟨c, o', hc, hterms, hd⟩ := h.detach ho
  have hnew : Newcomer c p relinkEqualPriceSortId ((A.withdraw o.side x).queue o.side) := by
    intro y hy oy hoy _
    have hlt := hd.wf.row_lt y _ (hd.row (hd.ne_of_mem hy) hoy)
    exact lt_of_lt_of_le hlt hd.bounded
  have hsearch := hd.search (t := { o.toOrderTerms with price := p })
    (m := min maxAdjustSteps maxAdjustStepsHardCap) (h.wf.disjoint x _ (h.row ho))
    (h.wf.row_lt x _ (h.row ho)) hnew none hintAfter (by simp)
  refine ⟨c, o', hc, ?_, fun found hfound => ?_⟩
  · unfold relinkLimitOrderPrice
    rw [load_eq ho, ok_bind, if_neg hp, hc, ok_bind]
    simp only [linkOrderAtId, hterms]
    refine hsearch.bind fun found hfound => ?_
    obtain ⟨c', hc', hrep, -, hwalk, -⟩ := hfound
    rw [hc']
    refine ⟨h.inPlace hrep (fun y hy => AbsBook.withdraw_rows_of_ne hy) ?_ (fun s hs => ?_) hd.wf
      hd.absent, hwalk⟩
    · exact Function.update_self ..
    · exact Function.update_of_ne hs _ _
  · exact ((hsearch.success hfound).choose_spec).2.2.2.2

end Inserts

/-- Hints and cursors never change the result of an insert or a reprice. -/
theorem hints_never_change_result {side : LimitOrderSide} {b : Book}
    {cursor : Option InsertThreadCursor} (h : Cursored side b cursor) :
    (∀ id t hintAfter maxAdjustSteps, t.side = side → b.Fresh id t →
      Meets (insertOrder b id t cursor hintAfter maxAdjustSteps)
        (fun out => InPlace b out.1 id t ∧ HeadWalkGives b id id t out.1)
        (fun e => e = .limitInsertStepsExceeded (min maxAdjustSteps maxAdjustStepsHardCap) ∧
          insertNeighbors b t.side t.price id (min maxAdjustSteps maxAdjustStepsHardCap) cursor
            hintAfter = .error e) ∧
      NoFallback b id t (min maxAdjustSteps maxAdjustStepsHardCap) cursor hintAfter) ∧
    ∀ id o price hintAfter maxAdjustSteps, b.orders id = some o → o.price ≠ price →
      ∃ c o', detachLimitOrderFromBook b id = .ok (c, o') ∧
      Meets (relinkLimitOrderPrice b id price hintAfter maxAdjustSteps)
        (fun b' => InPlace b b' id { o.toOrderTerms with price := price } ∧
          HeadWalkGives c id relinkEqualPriceSortId { o.toOrderTerms with price := price } b')
        (fun e => e = .limitInsertStepsExceeded (min maxAdjustSteps maxAdjustStepsHardCap)) ∧
      NoFallback c relinkEqualPriceSortId { o.toOrderTerms with price := price }
        (min maxAdjustSteps maxAdjustStepsHardCap) none hintAfter := by
  obtain ⟨A, hA, hcur⟩ := h.invariant
  refine ⟨fun id t hintAfter maxAdjustSteps hside hfresh => ?_,
    fun id o price hintAfter maxAdjustSteps ho hp => hA.reprice_spec ho hp hintAfter maxAdjustSteps⟩
  subst hside
  obtain ⟨hrow, hclaim, hlt⟩ := hfresh.absent hA
  have hsearch := (hA.detached hrow).search (m := min maxAdjustSteps maxAdjustStepsHardCap) hclaim
    hlt (hfresh.newcomer hA) cursor hintAfter hcur
  have hinsert := hfresh.insert_spec hA hcur hintAfter maxAdjustSteps
  refine ⟨?_, fun found hfound => ((hsearch.success hfound).choose_spec).2.2.2.2⟩
  cases hres : insertOrder b id t cursor hintAfter maxAdjustSteps with
  | ok out => exact ⟨(hinsert.success hres).1, (hinsert.success hres).2.1⟩
  | error e =>
      refine ⟨hinsert.failure hres, ?_⟩
      -- only the search can fail: once it answers, the link goes through
      unfold insertOrder at hres
      cases hfound : insertNeighbors b t.side t.price id (min maxAdjustSteps maxAdjustStepsHardCap)
          cursor hintAfter with
      | ok found =>
          obtain ⟨c', hc', -⟩ := hsearch.success hfound
          simp only [hfound, ok_bind, hc'] at hres
          cases hres
      | error e' =>
          simp only [hfound] at hres
          cases hres
          rfl

theorem hints_never_change_result_sample : ∃ o, sampleBook.book.orders 1 = some o ∧
    ∀ hintAfter, Meets (relinkLimitOrderPrice sampleBook.book 1 ⟨10 ^ 18⟩ hintAfter 5)
      (fun b' => InPlace sampleBook.book b' 1 { o.toOrderTerms with price := ⟨10 ^ 18⟩ })
      (fun e => e = .limitInsertStepsExceeded 5) := by
  obtain ⟨A, hA⟩ := sampleBook_reachable.healthy
  have hprice : (sampleBook.book.orders 1).map (·.price) = some ⟨2 * 10 ^ 18⟩ := by decide +kernel
  obtain ⟨o, ho, hp⟩ := Option.map_eq_some_iff.1 hprice
  refine ⟨o, ho, fun hintAfter => ?_⟩
  have hcur : Cursored .bid sampleBook.book none := .start ⟨A, hA.rep⟩
  obtain ⟨c, o', -, hmeets, -⟩ := (hints_never_change_result hcur).2
    1 o ⟨10 ^ 18⟩ hintAfter 5 ho (by rw [hp]; decide)
  exact hmeets.mono (fun _ h => h.1) fun _ h => h

end Cl8yDex
