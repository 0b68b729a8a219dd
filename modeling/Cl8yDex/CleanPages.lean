import Cl8yDex.MatchRefines
import Cl8yDex.WalkVisits
import Cl8yDex.PairRuns

/-!
# What a clean leaves behind its cursor

A clean moves the cursor one order at a time. The orders it has left behind are those it keeps, in
their order, and the eligible ones have become claims; the cursor is the first of the orders that
are still as they were.
-/

namespace Cl8yDex

open Outcome Relation

/-- A clean takes the order away: expired, unfillable, or below a threshold that is set. -/
def OrderTerms.ToClean (now minRemaining : ℕ) (t : OrderTerms) : Prop :=
  isTimeExpired t.expiresAt now = true ∨ isLimitOrderFillable t.side t.remaining t.price = false ∨
    minRemaining ≠ 0 ∧ t.remaining < minRemaining

instance (now minRemaining : ℕ) : DecidablePred (OrderTerms.ToClean now minRemaining) :=
  fun _ => inferInstanceAs (Decidable (_ ∨ _ ∨ _ ∧ _))

/-- Expired before unfillable before force-cleaned. -/
def OrderTerms.parkReason (now : ℕ) (t : OrderTerms) : ExpiredLimitParkReason :=
  if isTimeExpired t.expiresAt now then .expired
  else if isLimitOrderFillable t.side t.remaining t.price = false then .unfillable
  else .forceCleaned

/-- What a maker can claim of an order that a clean took away. -/
def OrderTerms.cleanRefund (now : ℕ) (t : OrderTerms) : ExpiredLimitRefund :=
  ⟨t.owner, t.side, t.remaining, if t.parkReason now = .expired then t.expiresAt else none,
    some (t.parkReason now)⟩

theorem cleanReason_eq (now minRemaining : ℕ) (t : OrderTerms) :
    cleanReason now minRemaining t =
      if t.ToClean now minRemaining then some (t.parkReason now) else none := by
  unfold cleanReason OrderTerms.ToClean OrderTerms.parkReason isForceDust
  by_cases hexp : isTimeExpired t.expiresAt now = true
  · simp [hexp]
  · by_cases hfill : isLimitOrderFillable t.side t.remaining t.price = true
    · simp [hexp, hfill]
    · simp [hexp, hfill]

/-- The orders of a side that a clean leaves in place. -/
def AbsBook.kept (A : AbsBook) (now minRemaining : ℕ) (x : OrderId) : Bool :=
  (A.rows x).all fun t => ¬t.ToClean now minRemaining

/-- What cleaning has made of the book `A` when it has visited `seen`, the first orders of the
side. -/
structure Swept (A : AbsBook) (side : LimitOrderSide) (now minRemaining : ℕ)
    (seen rest : List OrderId) (A' : AbsBook) : Prop where
  queue : A'.queue side = seen.filter (A.kept now minRemaining) ++ rest
  other : ∀ s, s ≠ side → A'.queue s = A.queue s
  removed : ∀ x ∈ seen, ∀ t, A.rows x = some t → t.ToClean now minRemaining →
    A'.rows x = none ∧ A'.claims x = some (t.cleanRefund now)
  untouched : ∀ x, (x ∈ seen → A.kept now minRemaining x = true) →
    A'.rows x = A.rows x ∧ A'.claims x = A.claims x
  escrow : A'.escrow = A.escrow
  nextId : A'.nextId = A.nextId

/-- The cursor of a clean has left `seen` behind and stands at the head of the rest. -/
def SweptTo (A : AbsBook) (side : LimitOrderSide) (now minRemaining : ℕ)
    (at_ : Option OrderId × Book) : Prop :=
  ∃ seen rest A', A.queue side = seen ++ rest ∧ at_.1 = rest.head? ∧ Represents at_.2 A' ∧
    Swept A side now minRemaining seen rest A'

section Visits

variable {A A' : AbsBook} {b b' : Book} {side : LimitOrderSide} {now minRemaining : ℕ}
  {seen rest : List OrderId} {x : OrderId} {o : LimitOrder}

theorem Swept.start (A : AbsBook) (side : LimitOrderSide) (now minRemaining : ℕ) :
    Swept A side now minRemaining [] (A.queue side) A where
  queue := rfl
  other _ _ := rfl
  removed _ hx := absurd hx List.not_mem_nil
  untouched _ _ := ⟨rfl, rfl⟩
  escrow := rfl
  nextId := rfl

/-- An order that is not eligible stays where it is. -/
theorem Swept.keep (h : Swept A side now minRemaining seen (x :: rest) A')
    (hx : A.kept now minRemaining x = true) :
    Swept A side now minRemaining (seen ++ [x]) rest A' where
  queue := by
    rw [h.queue, List.filter_append, List.filter_cons_of_pos hx, List.filter_nil,
      List.append_assoc, List.singleton_append]
  other := h.other
  removed y hy t hrow hclean := by
    rcases List.mem_append.1 hy with hy | hy
    · exact h.removed y hy t hrow hclean
    · rw [List.mem_singleton.1 hy] at hrow
      simp [AbsBook.kept, hrow, hclean] at hx
  untouched y hy := h.untouched y fun hmem => hy (List.mem_append_left _ hmem)
  escrow := h.escrow
  nextId := h.nextId

/-- An eligible order becomes a claim. -/
theorem Swept.park (h : Swept A side now minRemaining seen (x :: rest) A') {A'' : AbsBook}
    {t : OrderTerms} {e : Option ℕ} (hnot : x ∉ seen) (hrow : A'.rows x = some t)
    (hside : t.side = side) (hclean : t.ToClean now minRemaining)
    (hstep : Step A' (.park x (t.parkReason now) e) A'')
    (hqueue : A''.queue side = seen.filter (A.kept now minRemaining) ++ rest) :
    Swept A side now minRemaining (seen ++ [x]) rest A'' := by
  have hrow₀ : A.rows x = some t := by
    rw [← (h.untouched x fun hmem => absurd hmem hnot).1]
    exact hrow
  have hkept : ¬A.kept now minRemaining x = true := by simp [AbsBook.kept, hrow₀, hclean]
  cases hstep with
  | park _ u _ _ hrow' hexp =>
      obtain rfl : t = u := Option.some.inj (hrow.symm.trans hrow')
      constructor
      · rw [hqueue, List.filter_append, List.filter_cons_of_neg hkept, List.filter_nil,
          List.append_nil]
      · intro s hs
        rw [← h.other s hs]
        exact Function.update_of_ne (hside ▸ hs) _ _
      · intro y hy u hu hcleanu
        by_cases hyx : y = x
        · rw [hyx] at hu ⊢
          obtain rfl : t = u := Option.some.inj (hrow₀.symm.trans hu)
          constructor
          · exact AbsBook.withdraw_rows_self (s := t.side)
          · rw [OrderTerms.cleanRefund, ← hexp]
            exact Function.update_self ..
        · have hmem : y ∈ seen := (List.mem_append.1 hy).resolve_right fun hm =>
            hyx (List.mem_singleton.1 hm)
          obtain ⟨h1, h2⟩ := h.removed y hmem u hu hcleanu
          constructor
          · exact (AbsBook.withdraw_rows_of_ne (s := t.side) hyx).trans h1
          · exact (Function.update_of_ne hyx _ _).trans h2
      · intro y hy
        have hyx : y ≠ x := by
          rintro rfl
          exact hkept (hy (List.mem_append_right _ (List.mem_singleton_self _)))
        obtain ⟨h1, h2⟩ := h.untouched y fun hmem => hy (List.mem_append_left _ hmem)
        constructor
        · exact (AbsBook.withdraw_rows_of_ne (s := t.side) hyx).trans h1
        · exact (Function.update_of_ne hyx _ _).trans h2
      · exact h.escrow
      · exact h.nextId

theorem kept_of_not_clean {t : OrderTerms} (hrow : A.rows x = some t)
    (h : ¬t.ToClean now minRemaining) : A.kept now minRemaining x = true := by
  simp [AbsBook.kept, hrow, h]

/-- The order that the cursor stands at is the next one of the queue. -/
theorem Swept.node (h : Swept A side now minRemaining seen rest A') (hrep : Represents b A')
    (hnodup : (seen ++ rest).Nodup) (hcur : some x = rest.head?) (ho : b.orders x = some o) :
    ∃ r, rest = x :: r ∧ x ∉ seen ∧ o.side = side ∧ o.next = r.head? := by
  cases rest with
  | nil => cases hcur
  | cons y r =>
      cases hcur
      have hnot : x ∉ seen := fun hmem =>
        List.disjoint_of_nodup_append hnodup hmem (List.mem_cons_self ..)
      have hlist := hrep.listed side
      rw [h.queue] at hlist
      obtain ⟨o', ho', hside, -, hnext⟩ := hlist.node
      obtain rfl : o = o' := Option.some.inj (ho.symm.trans ho')
      exact ⟨r, rfl, hnot, hside, hnext⟩

/-- Every turn of a clean sweeps one more order. -/
theorem SweptTo.visit (hwf : A.WellFormed) {at₀ at₁ : Option OrderId × Book}
    (h : SweptTo A side now minRemaining at₀) (hvisit : CleanVisit now minRemaining at₀ at₁) :
    SweptTo A side now minRemaining at₁ := by
  obtain ⟨seen, rest, A', hq, hcur, hrep, hswept⟩ := h
  have hnodup := hwf.nodup side
  rw [hq] at hnodup
  cases hvisit with
  | keep ho hreason =>
      obtain ⟨r, rfl, hnot, hside, hnext⟩ := hswept.node hrep hnodup hcur ho
      rw [cleanReason_eq] at hreason
      split_ifs at hreason with hclean
      have hrow := (hswept.untouched _ fun hmem => absurd hmem hnot).1
      rw [hrep.row ho] at hrow
      have hkept := kept_of_not_clean hrow.symm hclean
      refine ⟨_, r, A', ?_, hnext, hrep, hswept.keep hkept⟩
      rw [hq, List.append_assoc, List.singleton_append]
  | park ho hreason hpark =>
      obtain ⟨r, rfl, hnot, hside, hnext⟩ := hswept.node hrep hnodup hcur ho
      rw [cleanReason_eq] at hreason
      split_ifs at hreason with hclean
      cases hreason
      obtain ⟨b', A'', hb', hstep, hrep', -, hqueue⟩ :=
        parkLimitOrderForClean_spec hrep ho _ _ rfl
      rw [hpark] at hb'
      cases hb'
      rw [hside, hrep.erase_eq hswept.queue] at hqueue
      have hswept' := hswept.park hnot (hrep.row ho) hside hclean hstep hqueue
      refine ⟨_, r, A'', ?_, hnext, hrep', hswept'⟩
      rw [hq, List.append_assoc, List.singleton_append]

theorem SweptTo.visits (hwf : A.WellFormed) {at₀ at₁ : Option OrderId × Book}
    (h : SweptTo A side now minRemaining at₀)
    (hrun : ReflTransGen (CleanVisit now minRemaining) at₀ at₁) :
    SweptTo A side now minRemaining at₁ := by
  induction hrun with
  | refl => exact h
  | tail _ hvisit ih => exact ih.visit hwf hvisit

/-- A clean that is asked to go on at a returned cursor does so. -/
theorem SweptTo.resumes (h : SweptTo A side now minRemaining (some x, b)) :
    resolveMatchStartHint b (some x) side = some x := by
  obtain ⟨seen, rest, A', hq, hcur, hrep, hswept⟩ := h
  have hmem : x ∈ A'.queue side := by
    rw [hswept.queue]
    exact List.mem_append_right _ (List.mem_of_mem_head? (Option.mem_def.2 hcur.symm))
  obtain ⟨o, ho, hside⟩ := (hrep.listed side).side x hmem
  have hstored : b.orderOnSide side x = some o := orderOnSide_eq_some.2 ⟨ho, hside⟩
  unfold resolveMatchStartHint
  simp only [hstored, Option.isSome_some, if_true]

theorem SweptTo.start (h : Represents b A) : SweptTo A side now minRemaining (b.head side, b) :=
  ⟨[], A.queue side, A, rfl, h.head side, h, .start A side now minRemaining⟩

end Visits

end Cl8yDex

/-!
## Paged cleaning is one full pass

Whatever caps stop a clean, the cursor that it returns is still queued. The next call goes on right
there, so the pages together visit the queue of the side once, from its head to its end.
-/

namespace Cl8yDex

open Outcome Relation

/-- Accepted cleans of one side at one time, one after the other: the first starts at `hint`, each
next one at the cursor that the one before returned, and the last returns none. -/
inductive CleanPages (side : LimitOrderSide) (now : ℕ) :
    Option OrderId → PairStorage → List CleanReport → PairStorage → Prop
  | last {p : PairStorage} {q : Querier} {env : Env} {sender : Addr} {hint : Option OrderId}
      {maxOrders : ℕ} {maxSteps : Option ℕ} {out : PairStorage × Response} {report : CleanReport}
      (hnow : env.blockTime = now)
      (h : execute p q env sender (.cleanLimitBook side maxOrders hint maxSteps) = .ok out)
      (hreport : out.2.attributes = .cleanLimitBook report)
      (hcursor : report.resumeCursor = none) : CleanPages side now hint p [report] out.1
  | next {p p' : PairStorage} {q : Querier} {env : Env} {sender : Addr} {hint : Option OrderId}
      {maxOrders : ℕ} {maxSteps : Option ℕ} {out : PairStorage × Response} {report : CleanReport}
      {x : OrderId} {reports : List CleanReport} (hnow : env.blockTime = now)
      (h : execute p q env sender (.cleanLimitBook side maxOrders hint maxSteps) = .ok out)
      (hreport : out.2.attributes = .cleanLimitBook report)
      (hcursor : report.resumeCursor = some x)
      (hrest : CleanPages side now (some x) out.1 reports p') :
      CleanPages side now hint p (report :: reports) p'

section Pages

variable {p p' : PairStorage} {q : Querier} {env : Env} {sender : Addr} {A : AbsBook}
  {side : LimitOrderSide} {now minRemaining maxOrders : ℕ} {hint : Option OrderId}
  {maxSteps : Option ℕ} {out : PairStorage × Response} {report : CleanReport}
  {reports : List CleanReport}

/-- One page: the turns from its start to the cursor it returns. -/
theorem cleanPage_visits
    (h : execute p q env sender (.cleanLimitBook side maxOrders hint maxSteps) = .ok out)
    (hreport : out.2.attributes = .cleanLimitBook report) :
    out.1 = { p with book := out.1.book } ∧
      ReflTransGen (CleanVisit env.blockTime (p.limitCleanConfig.minRemainingForSide side))
        (resolveMatchStartHint p.book hint side, p.book) (report.resumeCursor, out.1.book) ∧
      ((report.capHit = true ∨ report.scanCapped = true) ↔ report.resumeCursor.isSome = true) := by
  obtain ⟨_, -, h⟩ := bind_eq_ok.1 h
  obtain ⟨_, -, h⟩ := bind_eq_ok.1 h
  obtain ⟨⟨st, fin⟩, hclean, h⟩ := bind_eq_ok.1 h
  cases h
  cases hreport
  obtain ⟨_, -, hclean⟩ := bind_eq_ok.1 hclean
  obtain ⟨_, -, hclean⟩ := bind_eq_ok.1 hclean
  obtain ⟨hrun, hflags⟩ := cleanWalk_visits hclean
  exact ⟨rfl, hrun, hflags⟩

/-- The pages go on where the visits so far have stopped. -/
theorem CleanPages.sweep (hwf : A.WellFormed)
    (hmin : p.limitCleanConfig.minRemainingForSide side = minRemaining)
    (hpages : CleanPages side now hint p reports p')
    (hstart : SweptTo A side now minRemaining (resolveMatchStartHint p.book hint side, p.book)) :
    SweptTo A side now minRemaining (none, p'.book) ∧ p' = { p with book := p'.book } ∧
      ∀ r ∈ reports, ((r.capHit = true ∨ r.scanCapped = true) ↔ r.resumeCursor.isSome = true) := by
  induction hpages with
  | last hnow h hreport hcursor =>
      obtain ⟨hp, hrun, hflags⟩ := cleanPage_visits h hreport
      rw [hnow, hmin, hcursor] at hrun
      refine ⟨hstart.visits hwf hrun, hp, ?_⟩
      intro r hr
      rw [List.mem_singleton.1 hr]
      exact hflags
  | @next p p' _ _ _ hint _ _ out report x reports hnow h hreport hcursor _ ih =>
      obtain ⟨hp, hrun, hflags⟩ := cleanPage_visits h hreport
      rw [hnow, hmin, hcursor] at hrun
      have hreached := hstart.visits hwf hrun
      have hmin' : out.1.limitCleanConfig.minRemainingForSide side = minRemaining := by
        rw [hp]
        exact hmin
      have hresume : SweptTo A side now minRemaining
          (resolveMatchStartHint out.1.book (some x) side, out.1.book) := by
        rw [hreached.resumes]
        exact hreached
      obtain ⟨hend, hp', hreports⟩ := ih hmin' hresume
      rw [hp] at hp'
      refine ⟨hend, hp', ?_⟩
      intro r hr
      rcases List.mem_cons.1 hr with rfl | hr
      · exact hflags
      · exact hreports r hr

/-- What one full pass makes of a side. -/
structure FullPass (A : AbsBook) (side : LimitOrderSide) (now minRemaining : ℕ) (A' : AbsBook) :
    Prop where
  survivors : A'.queue side = (A.queue side).filter (A.kept now minRemaining)
  other : ∀ s, s ≠ side → A'.queue s = A.queue s
  removed : ∀ x ∈ A.queue side, ∀ t, A.rows x = some t → t.ToClean now minRemaining →
    A'.rows x = none ∧ A'.claims x = some (t.cleanRefund now)
  untouched : ∀ x, (x ∈ A.queue side → A.kept now minRemaining x = true) →
    A'.rows x = A.rows x ∧ A'.claims x = A.claims x
  escrow : A'.escrow = A.escrow

/-- However the caps cut the cleaning of a side into calls, together they are one full pass, and
each of them says that it was cut exactly when it returns a cursor. -/
theorem paged_clean_eq_full_pass (h : Represents p.book A)
    (hpages : CleanPages side now none p reports p') :
    ∃ A', Represents p'.book A' ∧
      FullPass A side now (p.limitCleanConfig.minRemainingForSide side) A' ∧
      p' = { p with book := p'.book } ∧
      ∀ r ∈ reports, (r.capHit = true ∨ r.scanCapped = true) ↔ r.resumeCursor.isSome = true := by
  obtain ⟨hend, hp, hreports⟩ := hpages.sweep h.wf rfl (.start h)
  obtain ⟨seen, rest, A', hq, hcursor, hrep, hswept⟩ := hend
  obtain rfl : rest = [] := List.head?_eq_none_iff.1 hcursor.symm
  rw [List.append_nil] at hq
  rw [← hq] at hswept
  refine ⟨A', hrep, ?_, hp, hreports⟩
  constructor
  · rw [hswept.queue, List.append_nil]
  · exact hswept.other
  · exact hswept.removed
  · exact hswept.untouched
  · exact hswept.escrow

end Pages

section Sample

/-- Two bids of user 7 at one price, the first of which expires at time 2000. -/
def agedBook : PairStorage :=
  samplePool.transact .permissive (sampleEnv 1006) 2 (.receive ⟨7, 1000000,
    .placeLimitOrderBatch .bid [⟨⟨2 * 10 ^ 18⟩, 600000, 5, some 2000, none⟩,
      ⟨⟨2 * 10 ^ 18⟩, 400000, 5, none, none⟩]⟩)

/-- A clean of the bids that may take one order. -/
def cleanOne (p : PairStorage) (hint : Option OrderId) :
    Except ContractError (PairStorage × Response) :=
  execute p .permissive (sampleEnv 3000) 8 (.cleanLimitBook .bid 1 hint none)

/-- The first page parks the expired bid and stops at the second, which the second page keeps. -/
theorem agedBook_pages : ∃ p' reports, CleanPages .bid 3000 none agedBook reports p' ∧
    p'.book.head .bid = some 2 := by
  have hrun : Meets (cleanOne agedBook none >>= fun out =>
        cleanOne out.1 (some 2) >>= fun out' => pure (out, out'))
      (fun outs =>
        outs.1.2.attributes = .cleanLimitBook ⟨.bid, 1, 1, 0, true, false, some 2⟩ ∧
        outs.2.2.attributes = .cleanLimitBook ⟨.bid, 0, 0, 0, false, false, none⟩ ∧
        outs.2.1.book.head .bid = some 2)
      (fun _ => False) := by
    decide +kernel
  obtain ⟨outs, hok, hfirst, hsecond, hhead⟩ := hrun.accepted
  obtain ⟨out, hpage, hok⟩ := bind_eq_ok.1 hok
  obtain ⟨out', hpage', hok⟩ := bind_eq_ok.1 hok
  cases hok
  exact ⟨out'.1, _, .next rfl hpage hfirst rfl (.last rfl hpage' hsecond rfl), hhead⟩

theorem paged_clean_eq_full_pass_sample : ∃ A p' reports A', Represents agedBook.book A ∧
    CleanPages .bid 3000 none agedBook reports p' ∧ Represents p'.book A' ∧
    FullPass A .bid 3000 (agedBook.limitCleanConfig.minRemainingForSide .bid) A' := by
  have hreach : Reachable agedBook := samplePool_reachable.transact ..
  obtain ⟨A, hA⟩ := hreach.healthy
  obtain ⟨p', reports, hpages, -⟩ := agedBook_pages
  obtain ⟨A', hrep, hpass, -⟩ := paged_clean_eq_full_pass hA.rep hpages
  exact ⟨A, p', reports, A', hA.rep, hpages, hrep, hpass⟩

end Sample

end Cl8yDex
