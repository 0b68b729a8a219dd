import Cl8yDex.MakerOps
import Cl8yDex.DiscountSpec

/-!
# What a batch placement does

Fresh ids go in by book order, so every rung lands behind the residents of its price and behind the
earlier rungs of the batch at that price. The escrow that is counted at the end is what the placed
rungs hold, and what was sent is that, the maker fees and the refund.
-/

namespace Cl8yDex

open Outcome

section Order

variable {side : LimitOrderSide} {a b c : BatchRungPlan}

instance : Std.Total (bookOrderLe side) where
  total a b := by
    by_contra h
    obtain ⟨h1, h2⟩ := not_or.1 h
    rcases before_iff.1 (not_not.1 h1) with hb | ⟨hp, hlt⟩
    · rcases before_iff.1 (not_not.1 h2) with hb' | ⟨hp', -⟩
      · exact better_asymm hb hb'
      · rw [hp'] at hb
        exact not_better_self hb
    · rcases before_iff.1 (not_not.1 h2) with hb' | ⟨-, hlt'⟩
      · rw [hp] at hb'
        exact not_better_self hb'
      · exact lt_asymm hlt hlt'

instance : IsTrans BatchRungPlan (bookOrderLe side) where
  trans a b c hab hbc hca := by
    rcases before_iff.1 hca with hb | ⟨hp, hlt⟩
    · have h1 : ¬better side b.item.price a.item.price := fun h => hab (before_iff.2 (.inl h))
      have h2 : ¬better side c.item.price b.item.price := fun h => hbc (before_iff.2 (.inl h))
      exact not_better_trans h1 h2 hb
    · have h1 : ¬better side b.item.price a.item.price := fun h => hab (before_iff.2 (.inl h))
      have h2 : ¬better side c.item.price b.item.price := fun h => hbc (before_iff.2 (.inl h))
      rw [hp] at h2
      have hpab := eq_of_not_better h2 h1
      have h3 : ¬b.id < a.id := fun h => hab (before_iff.2 (.inr ⟨hpab.symm, h⟩))
      have h4 : ¬c.id < b.id := fun h => hbc (before_iff.2 (.inr ⟨hp.trans hpab, h⟩))
      exact absurd hlt (not_lt.2 ((not_lt.1 h3).trans (not_lt.1 h4)))

/-- Among distinct rungs of one price the sorted order is the order of the ids. -/
theorem id_lt_of_bookOrderLe (h : bookOrderLe side a b) (hne : a.id ≠ b.id)
    (hp : a.item.price = b.item.price) : a.id < b.id := by
  have hn : ¬b.id < a.id := fun hlt => h (before_iff.2 (.inr ⟨hp.symm, hlt⟩))
  exact lt_of_le_of_ne (not_lt.1 hn) hne

end Order

/-- The rungs are numbered from `id` on, without repetition. -/
theorem numberRungs_spec (index : ℕ) (id : OrderId) (items : List LimitOrderPlacementItem) :
    Meets (numberRungs index id items)
      (fun plans => (∀ plan ∈ plans, id ≤ plan.id ∧ plan.id < id + items.length) ∧
        plans.Pairwise (fun a b => a.id < b.id) ∧ ∀ plan ∈ plans, plan.item ∈ items)
      (fun e => ¬e.Underflow) := by
  induction items generalizing index id with
  | nil => exact ⟨by simp, .nil, by simp⟩
  | cons item items ih =>
      refine (ensure_noUnderflow (by rintro ⟨_, _, ⟨⟩⟩)).bind fun _ _ => ?_
      refine (ih (index + 1) (id + 1)).bind fun plans hplans => ?_
      obtain ⟨hrange, hpair, hitems⟩ := hplans
      refine ⟨fun plan hplan => ?_, List.pairwise_cons.2 ⟨fun plan hplan => ?_, hpair⟩,
        fun plan hplan => ?_⟩
      · rw [List.length_cons]
        rcases List.mem_cons.1 hplan with rfl | hplan
        · exact ⟨le_rfl, Nat.lt_add_of_pos_right (Nat.succ_pos _)⟩
        · obtain ⟨h1, h2⟩ := hrange plan hplan
          exact ⟨(Nat.le_succ id).trans h1, by rwa [Nat.add_assoc, Nat.add_comm 1] at h2⟩
      · exact (hrange plan hplan).1
      · rcases List.mem_cons.1 hplan with rfl | hplan
        · exact List.mem_cons_self ..
        · exact List.mem_cons_of_mem _ (hitems plan hplan)

/-- What the sorted rungs satisfy: ids in range, and in order of id at equal prices. -/
theorem sorted_rungs (side : LimitOrderSide) {plans : List BatchRungPlan} {id : OrderId} {n : ℕ}
    (hrange : ∀ plan ∈ plans, id ≤ plan.id ∧ plan.id < id + n)
    (hpair : plans.Pairwise fun a b => a.id < b.id) :
    (∀ plan ∈ plans.insertionSort (bookOrderLe side), id ≤ plan.id ∧ plan.id < id + n) ∧
      (plans.insertionSort (bookOrderLe side)).Pairwise fun a b =>
        a.id ≠ b.id ∧ (a.item.price = b.item.price → a.id < b.id) := by
  have hne : (plans.insertionSort (bookOrderLe side)).Pairwise fun a b => a.id ≠ b.id :=
    ((List.perm_insertionSort _ plans).pairwise_iff fun h => h.symm).2
      (hpair.imp fun h => (ne_of_lt h))
  refine ⟨fun plan hplan => hrange plan ((List.mem_insertionSort _).1 hplan), ?_⟩
  refine (hne.and (List.pairwise_insertionSort (bookOrderLe side) plans)).imp ?_
  rintro a b ⟨h1, h2⟩
  exact ⟨h1, id_lt_of_bookOrderLe h2 h1⟩

section Loop

variable {A A' : AbsBook} {c : BatchParams} {st : BatchState} {plan : BatchRungPlan}
  {items : List LimitOrderPlacementItem} {placed : List (OrderId × OrderTerms)}

/-- The terms are those of a rung, whose amount is escrowed less its maker fee. -/
def OfRung (items : List LimitOrderPlacementItem) (makerBps : ℕ) (t : OrderTerms) : Prop :=
  ∃ item ∈ items, t.remaining + item.amount * makerBps / 10000 = item.amount ∧
    t.price = item.price ∧ t.expiresAt = item.expiresAt

/-- The state of the placement loop: the rungs placed so far and the running sums. -/
structure BatchInv (A : AbsBook) (c : BatchParams) (items : List LimitOrderPlacementItem)
    (st : BatchState) (placed : List (OrderId × OrderTerms)) (A' : AbsBook) : Prop where
  run : Run A (placeActs placed) A'
  rep : Represents st.book A'
  rows : ∀ y u, A'.rows y = some u → A.rows y = some u ∨ (y, u) ∈ placed
  claims : A'.claims = A.claims
  nextId : A'.nextId = A.nextId
  mine : ∀ r ∈ placed, r.2.owner = c.owner ∧ r.2.side = c.side
  rungs : ∀ r ∈ placed, OfRung items c.makerBps r.2
  arrival : placed.Pairwise fun r r' => r.2.price = r'.2.price → r.1 < r'.1
  cursor : ∀ cu, st.threadCursor = some cu → cu.Valid st.book (A'.queue c.side)
  escrow : st.placedEscrowRemaining = totalOf (fun r => r.2.remaining) placed
  amount : st.placedAmountSum = st.placedEscrowRemaining + st.totalMakerFee

/-- The rung still has to go in: nothing placed has its id, nor stands behind it at its price. -/
def Ahead (placed : List (OrderId × OrderTerms)) (plan : BatchRungPlan) : Prop :=
  ∀ r ∈ placed, r.1 ≠ plan.id ∧ (r.2.price = plan.item.price → r.1 < plan.id)

theorem rungAmounts_spec (amount makerBps : ℕ) :
    Meets (rungAmounts amount makerBps)
      (fun out => out.2 + amount * makerBps / 10000 = amount ∧ out.2 + out.1 = amount)
      (fun e => ¬e.Underflow) := by
  have hmul : Meets (mulOrOverflow amount makerBps) (fun n => n = amount * makerBps)
      (fun e => ¬e.Underflow) :=
    Meets.weaken (orThrow_noUnderflow (by rintro ⟨_, _, ⟨⟩⟩)).self fun n hn =>
      (mulOrOverflow_eq_ok.1 hn.1).2
  have hdiv : Meets (divOrZero (amount * makerBps) 10000)
      (fun n => n = amount * makerBps / 10000) (fun e => ¬e.Underflow) :=
    Meets.weaken (orThrow_noUnderflow (by rintro ⟨_, _, ⟨⟩⟩)).self fun n hn =>
      (divOrZero_eq_ok.1 hn.1).2
  unfold rungAmounts
  refine hmul.bind ?_
  rintro _ rfl
  refine hdiv.bind fun fee hfee => ?_
  refine (ensure_noUnderflow (by rintro ⟨_, _, ⟨⟩⟩)).bind fun _ hlt => ?_
  refine ((meets_sub amount fee).mono (fun _ h => h) ?_).bind ?_
  · rintro e ⟨rfl, -⟩ ⟨_, _, ⟨⟩⟩
  rintro remaining ⟨rfl, hle⟩
  refine (ensure_noUnderflow (by rintro ⟨_, _, ⟨⟩⟩)).bind fun _ _ => ?_
  have hsum := Nat.sub_add_cancel hle
  exact ⟨by rwa [hfee] at hsum ⊢, hsum⟩

theorem validatePlacementItem_noUnderflow (item : LimitOrderPlacementItem) (now d0 d1 : ℕ) :
    Meets (validatePlacementItem item now d0 d1) (fun _ => True) (fun e => ¬e.Underflow) := by
  unfold validatePlacementItem
  refine (ensure_noUnderflow (by rintro ⟨_, _, ⟨⟩⟩)).bind fun _ _ => ?_
  refine (mapError_noUnderflow _ (by rintro _ ⟨_, _, ⟨⟩⟩)).bind fun _ _ => ?_
  exact (ensure_noUnderflow (by rintro ⟨_, _, ⟨⟩⟩)).weaken fun _ _ => trivial

theorem insertForBatch_eq (b : Book) (remaining : ℕ) (threadCursor : Option InsertThreadCursor)
    (hintAfter : Option OrderId) : insertForBatch c b plan remaining threadCursor hintAfter =
      insertOrder b plan.id (c.terms plan.item remaining) threadCursor hintAfter
        plan.item.maxAdjustSteps := by
  unfold insertForBatch BatchParams.terms
  cases c.side <;> rfl

/-- An inserted rung joins the placed ones. -/
theorem BatchInv.recordPlaced (h : BatchInv A c items st placed A') (hrow : A'.rows plan.id = none)
    (hclaim : A'.claims plan.id = none) (hlt : plan.id < A'.nextId) (hahead : Ahead placed plan)
    {makerFee remaining : ℕ} (hsum : remaining + makerFee = plan.item.amount)
    (hrung : OfRung items c.makerBps (c.terms plan.item remaining)) {b' : Book}
    {outcome : BatchInsertOutcome}
    (hrep : Represents b' (A'.place plan.id (c.terms plan.item remaining)))
    (hcur : outcome.threadCursor.Valid b'
      ((A'.place plan.id (c.terms plan.item remaining)).queue c.side)) :
    Meets (st.recordPlaced plan makerFee remaining b' outcome)
      (fun st' => BatchInv A c items st' (placed ++ [(plan.id, c.terms plan.item remaining)])
        (A'.place plan.id (c.terms plan.item remaining)))
      (fun e => ¬e.Underflow) := by
  have hover : ∀ e : ContractError, ∀ m n : ℕ, e = .overflow ∧ u128Max < m + n → ¬e.Underflow := by
    rintro e m n ⟨rfl, -⟩ ⟨_, _, ⟨⟩⟩
  unfold BatchState.recordPlaced
  refine ((meets_add _ _).mono (fun _ h => h) fun e he => hover e _ _ he).bind ?_
  rintro fee ⟨rfl, -⟩
  refine ((meets_add _ _).mono (fun _ h => h) fun e he => hover e _ _ he).bind ?_
  rintro amount ⟨rfl, -⟩
  refine ((meets_add _ _).mono (fun _ h => h) fun e he => hover e _ _ he).bind ?_
  rintro escrow ⟨rfl, -⟩
  have hstep := Step.place A' plan.id (c.terms plan.item remaining) hrow hclaim hlt
  refine ⟨?_, hrep, fun y u hu => ?_, h.claims, h.nextId, fun r hr => ?_, fun r hr => ?_, ?_, ?_,
    ?_, ?_⟩
  · rw [placeActs, List.map_append]
    exact h.run.append (.single hstep)
  · by_cases hy : y = plan.id
    · subst hy
      rw [AbsBook.place_rows_self, Option.some.injEq] at hu
      subst hu
      exact .inr (by simp)
    · rw [AbsBook.place_rows_of_ne hy] at hu
      exact (h.rows y u hu).imp_right fun hm => List.mem_append_left _ hm
  · rcases List.mem_append.1 hr with hr | hr
    · exact h.mine r hr
    · rw [List.mem_singleton.1 hr]
      exact ⟨rfl, rfl⟩
  · rcases List.mem_append.1 hr with hr | hr
    · exact h.rungs r hr
    · rw [List.mem_singleton.1 hr]
      exact hrung
  · refine List.pairwise_append.2 ⟨h.arrival, List.pairwise_singleton _ _, fun r hr r' hr' => ?_⟩
    rw [List.mem_singleton.1 hr']
    exact (hahead r hr).2
  · rintro cu hcu
    obtain rfl := Option.some.inj hcu
    exact hcur
  · simp [h.escrow, BatchParams.terms]
  · change st.placedAmountSum + plan.item.amount = _
    have h1 := h.amount
    change _ = st.placedEscrowRemaining + remaining + (st.totalMakerFee + makerFee)
    omega

/-- One rung is placed behind everything at its price, or skipped without a trace. -/
theorem placeRung_spec (h : BatchInv A c items st placed A') {firstId : OrderId}
    (hold : ∀ y u, A.rows y = some u → y < firstId)
    (holdc : ∀ y r, A.claims y = some r → y < firstId) (hid : firstId ≤ plan.id)
    (hlt : plan.id < A.nextId) (hitem : plan.item ∈ items) (hahead : Ahead placed plan) :
    Meets (placeRung c st plan)
      (fun st' => ∃ placed' A'', BatchInv A c items st' placed' A'' ∧
        (placed' = placed ∨ ∃ t, placed' = placed ++ [(plan.id, t)] ∧
          t.price = plan.item.price))
      (fun e => ¬e.Underflow) := by
  unfold placeRung
  refine (validatePlacementItem_noUnderflow _ _ _ _).bind fun _ _ => ?_
  refine (rungAmounts_spec _ _).bind fun amounts hamounts => ?_
  obtain ⟨makerFee, remaining⟩ := amounts
  obtain ⟨hescrow, hsum⟩ := hamounts
  have hrung : OfRung items c.makerBps (c.terms plan.item remaining) :=
    ⟨plan.item, hitem, hescrow, rfl, rfl⟩
  refine (mapError_noUnderflow _ (by rintro _ ⟨_, _, ⟨⟩⟩)).bind fun _ _ => ?_
  have hrow : A'.rows plan.id = none := by
    by_contra hne
    obtain ⟨u, hu⟩ := Option.ne_none_iff_exists'.1 hne
    rcases h.rows _ u hu with hu | hm
    · exact absurd (hold _ u hu) (not_lt.2 hid)
    · exact (hahead _ hm).1 rfl
  have hclaim : A'.claims plan.id = none := by
    by_contra hne
    obtain ⟨r, hr⟩ := Option.ne_none_iff_exists'.1 hne
    rw [h.claims] at hr
    exact absurd (holdc _ r hr) (not_lt.2 hid)
  have hlt' : plan.id < A'.nextId := h.nextId ▸ hlt
  have hnew : ∀ y ∈ A'.queue (c.terms plan.item remaining).side, ∀ u, A'.rows y = some u →
      u.price = (c.terms plan.item remaining).price → y < plan.id := by
    intro y _ u hu hp
    rcases h.rows y u hu with hu | hm
    · exact lt_of_lt_of_le (hold y u hu) hid
    · exact (hahead _ hm).2 hp
  have hins := insertOrder_spec (t := c.terms plan.item remaining) h.rep hrow hclaim hlt' hnew
    h.cursor (plan.item.hintAfterOrderId.or st.lastPlacedHint) plan.item.maxAdjustSteps
  simp only [insertForBatch_eq]
  cases hres : insertOrder st.book plan.id (c.terms plan.item remaining) st.threadCursor
      (plan.item.hintAfterOrderId.or st.lastPlacedHint) plan.item.maxAdjustSteps with
  | ok out =>
      obtain ⟨b', outcome⟩ := out
      obtain ⟨hrep, -, hcur⟩ := hins.success hres
      refine (h.recordPlaced hrow hclaim hlt' hahead hsum hrung hrep hcur).weaken fun st' hst' => ?_
      exact ⟨_, _, hst', .inr ⟨_, rfl, rfl⟩⟩
  | error e =>
      obtain ⟨m, rfl⟩ := hins.failure hres
      exact ⟨placed, A', ⟨h.run, h.rep, h.rows, h.claims, h.nextId, h.mine, h.rungs, h.arrival,
        h.cursor, h.escrow, h.amount⟩, .inl rfl⟩

/-- The whole loop over sorted rungs. -/
theorem placeLoop_spec {firstId : OrderId} (hold : ∀ y u, A.rows y = some u → y < firstId)
    (holdc : ∀ y r, A.claims y = some r → y < firstId) (plans : List BatchRungPlan)
    (hrange : ∀ plan ∈ plans, firstId ≤ plan.id ∧ plan.id < A.nextId)
    (hitems : ∀ plan ∈ plans, plan.item ∈ items)
    (hpair : plans.Pairwise fun a b => a.id ≠ b.id ∧ (a.item.price = b.item.price → a.id < b.id))
    (h : BatchInv A c items st placed A') (hfresh : ∀ r ∈ placed, firstId ≤ r.1)
    (hahead : ∀ plan ∈ plans, Ahead placed plan) :
    Meets (plans.foldlM (placeRung c) st)
      (fun st' => ∃ placed' A'', BatchInv A c items st' placed' A'' ∧ ∀ r ∈ placed', firstId ≤ r.1)
      (fun e => ¬e.Underflow) := by
  induction plans generalizing st placed A' with
  | nil => exact ⟨placed, A', h, hfresh⟩
  | cons plan plans ih =>
      obtain ⟨hfirst, hrest⟩ := List.pairwise_cons.1 hpair
      obtain ⟨hid, hlt⟩ := hrange plan (List.mem_cons_self ..)
      have hstep := placeRung_spec h hold holdc hid hlt (hitems plan (List.mem_cons_self ..))
        (hahead plan (List.mem_cons_self ..))
      refine hstep.bind fun st' hst' => ?_
      obtain ⟨placed', A'', hinv, hplaced⟩ := hst'
      refine ih (fun pl hpl => hrange pl (List.mem_cons_of_mem _ hpl))
        (fun pl hpl => hitems pl (List.mem_cons_of_mem _ hpl)) hrest hinv ?_ ?_
      · rcases hplaced with rfl | ⟨t, rfl, -⟩
        · exact hfresh
        · intro r hr
          rcases List.mem_append.1 hr with hr | hr
          · exact hfresh r hr
          · rw [List.mem_singleton.1 hr]
            exact hid
      · intro pl hpl r hr
        have hold' := hahead pl (List.mem_cons_of_mem _ hpl)
        rcases hplaced with rfl | ⟨t, rfl, hp⟩
        · exact hold' r hr
        · rcases List.mem_append.1 hr with hr | hr
          · exact hold' r hr
          · rw [List.mem_singleton.1 hr]
            exact ⟨(hfirst pl hpl).1, fun he => (hfirst pl hpl).2 (hp.symm.trans he)⟩

end Loop

section Batch

variable {p : PairStorage} {A : AbsBook}

/-- The orders that a placement adds escrow the amounts of their rungs less the maker fee. -/
def Escrows (p : PairStorage) (items : List LimitOrderPlacementItem)
    (out : PairStorage × Response) : Prop :=
  ∃ report, out.2.attributes = .placeLimitOrderBatch report ∧ ∀ x t, p.book.terms x = none →
    out.1.book.terms x = some t → OfRung items (makerFeeBps report.effectiveFeeBps) t

/-- What arrives with a message, by the side whose escrow it is. -/
def incomingOf (info : PairInfo) (token : Addr) (amount : ℕ) (s : LimitOrderSide) : ℕ :=
  if token = info.escrowToken s then amount else 0

theorem checkBatchSize_noUnderflow (sendAmount : ℕ) (orders : List LimitOrderPlacementItem) :
    Meets (checkBatchSize p sendAmount orders) (fun _ => True) (fun e => ¬e.Underflow) := by
  have hsum : ∀ acc, Meets (sumAmounts acc orders) (fun _ => True) (fun e => ¬e.Underflow) := by
    induction orders with
    | nil => exact fun _ => trivial
    | cons item items ih =>
        intro acc
        refine ((meets_add acc item.amount).mono (fun _ h => h) ?_).bind fun acc' _ => ih acc'
        rintro e ⟨rfl, -⟩ ⟨_, _, ⟨⟩⟩
  unfold checkBatchSize
  refine (ensure_noUnderflow (by rintro ⟨_, _, ⟨⟩⟩)).bind fun _ _ => ?_
  refine (ensure_noUnderflow (by rintro ⟨_, _, ⟨⟩⟩)).bind fun _ _ => ?_
  refine (hsum 0).bind fun expected _ => ?_
  exact (ensure_noUnderflow (by rintro ⟨_, _, ⟨⟩⟩)).weaken fun _ _ => trivial

/-- The acts of the loop, on the book that has just handed out the ids. -/
theorem placeRungs_spec {c : BatchParams} {b : Book} {firstId : OrderId}
    (orders : List LimitOrderPlacementItem) (h : Represents b A)
    (hnext : A.nextId = firstId + orders.length) (hold : ∀ y u, A.rows y = some u → y < firstId)
    (holdc : ∀ y r, A.claims y = some r → y < firstId) :
    Meets (placeRungs c b firstId orders)
      (fun st => ∃ placed A', BatchInv A c orders st placed A' ∧ ∀ r ∈ placed, firstId ≤ r.1)
      (fun e => ¬e.Underflow) := by
  unfold placeRungs
  refine (numberRungs_spec 0 firstId orders).bind fun plans hplans => ?_
  obtain ⟨hnumbered, hordered, hitems⟩ := hplans
  obtain ⟨hrange, hpair⟩ := sorted_rungs c.side hnumbered hordered
  have hstart : BatchInv A c orders ⟨b, List.replicate orders.length none, 0, 0, 0, 0, none, none⟩
      [] A :=
    ⟨.nil A, h, fun _ _ hu => .inl hu, rfl, rfl, by simp, by simp, .nil, by simp, rfl, rfl⟩
  refine placeLoop_spec hold holdc _ (fun plan hplan => ?_) (fun plan hplan => ?_) hpair hstart
    (by simp) fun _ _ r hr => by cases hr
  · rw [hnext]
    exact hrange plan hplan
  · exact hitems plan ((List.mem_insertionSort _).1 hplan)

theorem totals_of_places (placed : List (OrderId × OrderTerms)) {side : LimitOrderSide}
    (hside : ∀ r ∈ placed, r.2.side = side) (s : LimitOrderSide) :
    totalOf (Act.receivedOn s) (placeActs placed) =
        (if side = s then totalOf (fun r => r.2.remaining) placed else 0) ∧
      totalOf (Act.releasedOn s) (placeActs placed) = 0 ∧
      totalOf (Act.booked s) (placeActs placed) = 0 ∧
      totalOf (Act.unbooked s) (placeActs placed) = 0 := by
  induction placed with
  | nil => simp [placeActs]
  | cons r placed ih =>
      obtain ⟨h1, h2, h3, h4⟩ := ih fun r' hr' => hside r' (List.mem_cons_of_mem _ hr')
      have hr := hside r (List.mem_cons_self ..)
      simp only [placeActs, List.map_cons, totalOf_cons] at h1 h2 h3 h4 ⊢
      refine ⟨?_, by simpa [Act.releasedOn] using h2, by simpa [Act.booked] using h3,
        by simpa [Act.unbooked] using h4⟩
      rw [h1, Act.receivedOn, OrderTerms.escrowOn, hr]
      split_ifs <;> rfl

/-- The counter takes in the placed escrow, within its range. -/
theorem bookEscrow_spec {A' : AbsBook} {st : BatchState} (h : Represents st.book A')
    (side : LimitOrderSide) : Meets (st.bookEscrow side)
      (fun b' => ∃ tail A'', Run A' tail A'' ∧ Represents b' A'' ∧
        (∀ a ∈ tail, ∃ n, a = .escrowAdd side n) ∧
        (∀ s, totalOf (Act.booked s) tail = if side = s then st.placedEscrowRemaining else 0) ∧
        ((∀ s, A'.escrow s ≤ u128Max) → ∀ s, A''.escrow s ≤ u128Max))
      (fun e => ¬e.Underflow) := by
  unfold BatchState.bookEscrow
  by_cases hz : st.placedEscrowRemaining = 0
  · rw [if_pos hz]
    exact ⟨[], A', .nil A', h, by simp, fun s => by simp [hz], fun hb => hb⟩
  · rw [if_neg hz]
    unfold Book.escrowAdd
    rw [h.escrow]
    refine ((meets_add _ _).mono (fun _ h => h) ?_).bind ?_
    · rintro e ⟨rfl, -⟩ ⟨_, _, ⟨⟩⟩
    rintro total ⟨rfl, hle⟩
    refine ⟨[.escrowAdd side st.placedEscrowRemaining], _, .single (.escrowAdd A' side _),
      h.saveEscrow _, by simp, fun s => by simp [Act.booked], fun hb s => ?_⟩
    by_cases hs : s = side
    · subst hs
      simpa [AbsBook.putEscrow] using hle
    · simpa [AbsBook.putEscrow, hs] using hb s

theorem rows_of_escrowAdds {B B' : AbsBook} {tail : List Act} {side : LimitOrderSide}
    (h : Run B tail B') (htail : ∀ a ∈ tail, ∃ n, a = .escrowAdd side n) : B'.rows = B.rows := by
  induction h with
  | nil B => rfl
  | cons hs _ ih =>
      obtain ⟨n, rfl⟩ := htail _ (List.mem_cons_self ..)
      cases hs
      exact ih fun a ha => htail a (List.mem_cons_of_mem _ ha)

/-- Reserve, place, count: the acts of a whole batch and what they add up to. -/
theorem Placing.effect {user : Addr} {side : LimitOrderSide} {count : ℕ}
    {placed : List (OrderId × OrderTerms)} {tail : List Act} {A' A'' : AbsBook}
    (h : Placing A side count placed tail) (p' : PairStorage) (msgs : List CosmosMsg)
    (hmine : ∀ r ∈ placed, r.2.owner = user)
    (hrun : Run { A with nextId := A.nextId + count } (placeActs placed) A')
    (htail : Run A' tail A'') (hrep : Represents p'.book A'')
    (hbooked : ∀ s, totalOf (Act.booked s) tail =
      if side = s then totalOf (fun r => r.2.remaining) placed else 0)
    (hbound : (∀ s, A'.escrow s ≤ u128Max) → ∀ s, A''.escrow s ≤ u128Max)
    (hinfo : p'.pairInfo = p.pairInfo) :
    Effect A p user (.reserve count :: (placeActs placed ++ tail)) A'' p' msgs ∧
      ∀ s, totalOf (Act.releasedOn s) (.reserve count :: (placeActs placed ++ tail)) = 0 ∧
        totalOf (Act.receivedOn s) (.reserve count :: (placeActs placed ++ tail)) =
          if side = s then totalOf (fun r => r.2.remaining) placed else 0 := by
  have hzero : ∀ s, totalOf (Act.releasedOn s) tail = 0 ∧ totalOf (Act.receivedOn s) tail = 0 ∧
      totalOf (Act.unbooked s) tail = 0 := fun s => by
    refine ⟨totalOf_eq_zero fun a ha => ?_, totalOf_eq_zero fun a ha => ?_,
      totalOf_eq_zero fun a ha => ?_⟩ <;>
    · obtain ⟨n, rfl⟩ := h.tail_eq a ha
      rfl
  have hflow : ∀ s, totalOf (Act.releasedOn s) (.reserve count :: (placeActs placed ++ tail)) = 0 ∧
      totalOf (Act.receivedOn s) (.reserve count :: (placeActs placed ++ tail)) =
        if side = s then totalOf (fun r => r.2.remaining) placed else 0 := fun s => by
    obtain ⟨h1, h2, -, -⟩ := totals_of_places placed h.side_eq s
    obtain ⟨h3, h4, -⟩ := hzero s
    simp [Act.releasedOn, Act.receivedOn, h1, h2, h3, h4]
  have hacts : ∀ a ∈ (.reserve count :: (placeActs placed ++ tail)), a = .reserve count ∨
      (∃ r ∈ placed, a = .place r.1 r.2) ∨ ∃ n, a = .escrowAdd side n := by
    intro a ha
    rcases List.mem_cons.1 ha with rfl | ha
    · exact .inl rfl
    · rcases List.mem_append.1 ha with ha | ha
      · obtain ⟨r, hr, rfl⟩ := List.mem_map.1 ha
        exact .inr (.inl ⟨r, hr, rfl⟩)
      · exact .inr (.inr (h.tail_eq a ha))
  refine ⟨⟨.cons (.reserve A count) (hrun.append htail), hrep, fun s => ?_, .placing h, ?_, ?_, ?_,
    hinfo⟩, hflow⟩
  · obtain ⟨h1, h2⟩ := hflow s
    obtain ⟨-, -, h3, h4⟩ := totals_of_places placed h.side_eq s
    obtain ⟨-, -, h5⟩ := hzero s
    rw [h1, h2]
    simp [Act.booked, Act.unbooked, h3, h4, h5, hbooked]
  · intro a ha
    rcases hacts a ha with rfl | ⟨r, hr, rfl⟩ | ⟨n, rfl⟩
    · exact trivial
    · exact hmine r hr
    · exact trivial
  · intro hb
    refine hbound fun s => ?_
    have h1 := hrun.escrow (s := s)
    obtain ⟨-, -, h3, h4⟩ := totals_of_places placed h.side_eq s
    rw [h3, h4] at h1
    exact h1.le.trans (hb s)
  · rintro ⟨a, ha, hr⟩
    rcases hacts a ha with rfl | ⟨r, -, rfl⟩ | ⟨n, rfl⟩
    · exact absurd hr id
    · exact absurd hr id
    · exact absurd hr id

theorem executePlaceLimitOrdersBatch_spec (h : Represents p.book A) (q : Querier) (env : Env)
    (offerToken owner : Addr) (sendAmount : ℕ) (side : LimitOrderSide)
    (orders : List LimitOrderPlacementItem) :
    Meets (executePlaceLimitOrdersBatch p q env offerToken owner sendAmount side orders)
      (fun out => Operation A p owner (incomingOf p.pairInfo offerToken sendAmount) out ∧
        out.1 = { p with book := out.1.book, discountCache := out.1.discountCache } ∧
        Escrows p orders out)
      (fun e => ¬e.Underflow) := by
  unfold executePlaceLimitOrdersBatch
  refine (checkBatchSize_noUnderflow _ _).bind fun _ _ => ?_
  refine (queryPairAssetDecimals_noUnderflow q p.pairInfo).bind fun decimals _ => ?_
  refine ((effectiveFeeBpsWithDiscountMsgs_spec q _ _ _ _ _).mono (fun _ h => h)
    fun e he => he.noUnderflow).bind fun fees hmsgs => ?_
  obtain ⟨cache, bps, dereg⟩ := fees
  refine (ensure_noUnderflow (by rintro ⟨_, _, ⟨⟩⟩)).bind fun _ htoken => ?_
  refine (h.reserve.mono (fun _ h => h) ?_).bind fun out hout => ?_
  · rintro e (rfl | rfl) ⟨_, _, ⟨⟩⟩
  obtain ⟨b, firstId⟩ := out
  obtain ⟨rfl, hcount, hrep⟩ := hout
  have hloop := placeRungs_spec orders
    (c := ⟨side, owner, env.blockTime, decimals.1, decimals.2, makerFeeBps bps⟩) hrep rfl
    (fun y u hu => h.wf.row_lt y u hu) fun y r hr => h.wf.claim_lt y r hr
  refine hloop.bind fun st hst => ?_
  obtain ⟨placed, A', hinv, hfresh⟩ := hst
  refine (bookEscrow_spec hinv.rep side).bind fun b' hb' => ?_
  obtain ⟨tail, A'', hrun, hrep', htail, hbooked, hbound⟩ := hb'
  refine (ensure_noUnderflow (by rintro ⟨_, _, ⟨⟩⟩)).bind fun _ _ => ?_
  refine ((meets_sub _ _).mono (fun _ h => h) ?_).bind ?_
  · rintro e ⟨rfl, -⟩ ⟨_, _, ⟨⟩⟩
  rintro refund ⟨rfl, hle⟩
  rw [hinv.escrow] at hbooked
  have hplacing : Placing A side orders.length placed tail :=
    ⟨hfresh, fun r hr => (hinv.mine r hr).2, hinv.arrival, htail⟩
  obtain ⟨heff, hflow⟩ := hplacing.effect (p := p)
    { p with book := b', discountCache := cache }
    (dereg ++ maybeTransfer offerToken owner (sendAmount - st.placedAmountSum) ++
      maybeTransfer offerToken p.feeConfig.treasury st.totalMakerFee)
    (fun r hr => (hinv.mine r hr).1) hinv.run hrun hrep' hbooked hbound rfl
  have hrungs : ∀ x t, p.book.terms x = none → b'.terms x = some t →
      OfRung orders (makerFeeBps bps) t := by
    intro x t hx ht
    rw [hrep'.rows, rows_of_escrowAdds hrun htail] at ht
    rw [h.rows] at hx
    rcases hinv.rows x t ht with hold | hplaced
    · change A.rows x = some t at hold
      rw [hx] at hold
      cases hold
    · exact hinv.rungs _ hplaced
  refine ⟨⟨_, A'', heff, fun hd => heff.conserves h rfl fun s => ?_⟩, rfl, _, rfl, hrungs⟩
  obtain ⟨h1, h2⟩ := hflow s
  obtain ⟨h3, h4⟩ := amounts_of_deregisters hmsgs (p.pairInfo.escrowToken s)
  have h5 := hinv.amount
  have h6 := hinv.escrow
  simp only [totalOf_append, pulled_maybeTransfer, sent_maybeTransfer, h3, h4, incomingOf, htoken,
    PairInfo.escrowToken_inj hd]
  rw [h1, h2, ← h6]
  split_ifs
  · omega
  · rfl

theorem executePlaceLimitOrderLadder_spec (h : Represents p.book A) (q : Querier) (env : Env)
    (offerToken owner : Addr) (sendAmount : ℕ) (ladder : LimitOrderLadderSpec) :
    Meets (executePlaceLimitOrderLadder p q env offerToken owner sendAmount ladder)
      (fun out => Operation A p owner (incomingOf p.pairInfo offerToken sendAmount) out ∧
        out.1 = { p with book := out.1.book, discountCache := out.1.discountCache } ∧
        ∃ decimals0 decimals1 orders, Escrows p orders out ∧
          expandLimitLadder ladder p.maxBatchRungs decimals0 decimals1 = .ok orders)
      (fun e => ¬e.Underflow) := by
  unfold executePlaceLimitOrderLadder
  refine (queryPairAssetDecimals_noUnderflow q p.pairInfo).bind fun decimals _ => ?_
  refine (mapError_noUnderflow _ (by rintro _ ⟨_, _, ⟨⟩⟩)).bind fun orders horders => ?_
  refine (executePlaceLimitOrdersBatch_spec h q env offerToken owner sendAmount ladder.side
    orders).weaken fun out hout => ?_
  obtain ⟨hop, hstored, hescrows⟩ := hout
  exact ⟨hop, hstored, _, _, orders, hescrows, horders⟩

end Batch

end Cl8yDex
