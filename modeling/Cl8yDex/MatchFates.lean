import Cl8yDex.MatchTrace

/-!
# What a match walk does to each order it looks at

The executing walk edits the book behind itself. Every order it has looked at is left as it was,
parked with the escrow it had, or filled and then kept, parked or dropped with what the fill left.
All amounts of the walk belong to its fills.
-/

namespace Cl8yDex

open Outcome DoublyLinked

namespace Seen

variable {s : Seen}

instance : DecidablePred Seen.IsFill := fun s =>
  match hv : s.visit with
  | .fill offer taken => isTrue ⟨offer, taken, hv⟩
  | .wrongSide | .expired | .blacklisted | .unfillable | .exhausted | .skip | .worse =>
      isFalse (by rintro ⟨_, _, h⟩; rw [hv] at h; cases h)

theorem not_isFill_of_setsAside (h : s.visit.SetsAside) : ¬s.IsFill := by
  rintro ⟨offer, taken, hv⟩
  rw [hv] at h
  exact False.elim h

/-- The order's terms once the walk has passed it. -/
def after (s : Seen) : OrderTerms := { s.order with remaining := s.order.remaining - s.taken }

def offerTo (a : Addr) (s : Seen) : ℕ := if s.order.owner = a then s.offer else 0

def fillEvent (takerBps : ℕ) (s : Seen) : MatchEvent :=
  limitOrderFillEvent s.id s.order s.offer s.taken (s.commission takerBps)

/-- The fill left more than dust, and enough for another fill. -/
def Survives (s : Seen) : Prop :=
  s.after.remaining ≠ 0 ∧ ¬shouldFlushDust s.after.remaining ∧
    isLimitOrderFillable s.after.side s.after.remaining s.after.price

theorem after_of_setsAside (h : s.visit.SetsAside) : s.after = s.order := by
  unfold after
  rw [(amounts_of_setsAside h).2.1]
  rfl

end Seen

/-- The escrow of an order, of the given terms, waits in a claim of its owner. -/
structure AbsBook.Parked (A : AbsBook) (x : OrderId) (t : OrderTerms) : Prop where
  row : A.rows x = none
  claim : ∃ r, A.claims x = some r ∧ r.owner = t.owner ∧ r.side = t.side ∧
    r.remaining = t.remaining

/-- Where a walk left an order that it looked at. -/
inductive Seen.Fate (A : AbsBook) (s : Seen) : Prop
  | dropped (hfill : s.IsFill) (hrest : s.after.remaining = 0) (hrow : A.rows s.id = none)
      (hclaim : A.claims s.id = none)
  | parked (hpark : A.Parked s.id s.after) (hlost : s.IsFill → ¬s.Survives)
  | resting (hrow : A.rows s.id = some s.after) (hlive : s.IsFill → s.Survives)

def MatchEvent.IsFill : MatchEvent → Prop
  | limitOrderFill .. => True
  | limitOrderExpiredParked .. => False

instance : DecidablePred MatchEvent.IsFill
  | .limitOrderFill .. => isTrue trivial
  | .limitOrderExpiredParked .. => isFalse id

theorem isFill_limitOrderFillEvent (x : OrderId) (o : OrderTerms) (offer taken c : ℕ) :
    (limitOrderFillEvent x o offer taken c).IsFill := by
  unfold limitOrderFillEvent
  cases o.side with
  | bid => exact trivial
  | ask => exact trivial

/-- What the payouts hold for one owner. -/
def paidTo (a : Addr) (payouts : List (Addr × ℕ)) : ℕ :=
  totalOf (fun p => if p.1 = a then p.2 else 0) payouts

theorem creditMaker_paidTo {l l' : List (Addr × ℕ)} {owner : Addr} {amount : ℕ}
    (h : creditMaker l owner amount = .ok l') (a : Addr) :
    paidTo a l' = paidTo a l + if owner = a then amount else 0 := by
  unfold paidTo
  induction l generalizing l' with
  | nil =>
      obtain ⟨total, htotal, h⟩ := bind_eq_ok.1 h
      obtain ⟨-, rfl⟩ := addOrOverflow_eq_ok.1 htotal
      cases h
      simp
  | cons p l ih =>
      obtain ⟨m, n⟩ := p
      unfold creditMaker at h
      split_ifs at h with hlt heq
      · obtain ⟨total, htotal, h⟩ := bind_eq_ok.1 h
        obtain ⟨-, rfl⟩ := addOrOverflow_eq_ok.1 htotal
        cases h
        simp only [totalOf_cons, Nat.zero_add]
        omega
      · obtain ⟨total, htotal, h⟩ := bind_eq_ok.1 h
        obtain ⟨-, rfl⟩ := addOrOverflow_eq_ok.1 htotal
        cases h
        subst heq
        simp only [totalOf_cons]
        by_cases ha : owner = a
        · simp only [if_pos ha]
          omega
        · simp only [if_neg ha]
          omega
      · obtain ⟨l₁, hl₁, h⟩ := bind_eq_ok.1 h
        cases h
        simp only [totalOf_cons, ih hl₁]
        omega

/-- What an executing walk did while it passed the orders `seen`. -/
structure Walked (w : WalkParams) (A : AbsBook) (st : MatchState) (seen : List Seen)
    (A' : AbsBook) (st' : MatchState) : Prop where
  rep : Represents st'.book A'
  passed : Passed w A.rows st.tally seen st'.tally
  fates : ∀ s ∈ seen, s.Fate A'
  rows : ∀ y, y ∉ seen.map Seen.id → A'.rows y = A.rows y
  claims : ∀ y, y ∉ seen.map Seen.id → A'.claims y = A.claims y
  escrow : A'.escrow = A.escrow
  taken : st'.escrowSubTotal = st.escrowSubTotal + totalOf Seen.taken seen
  payouts : ∀ a, paidTo a st'.makerPayouts =
    paidTo a st.makerPayouts + totalOf (Seen.offerTo a) seen
  events : st'.fillEvents.filter MatchEvent.IsFill = st.fillEvents.filter MatchEvent.IsFill ++
    (seen.filter Seen.IsFill).map (Seen.fillEvent w.takerBps)

section Step

variable {w : WalkParams} {A A' : AbsBook} {st st' : MatchState} {x : OrderId} {o : LimitOrder}
  {l r : List OrderId} {b b' : Book}

/-- A park moves one order to the claims and touches nothing else. -/
theorem park_spec {reason : ExpiredLimitParkReason} {e : Option ℕ} {t : OrderTerms}
    (h : Step A (.park x reason e) A') (hrow : A.rows x = some t) : A'.Parked x t ∧
      (∀ y, y ≠ x → A'.rows y = A.rows y ∧ A'.claims y = A.claims y) ∧
      A'.escrow = A.escrow := by
  cases h with
  | park _ u _ _ hrow' hexp =>
      obtain rfl : t = u := Option.some.inj (hrow.symm.trans hrow')
      refine ⟨⟨?_, _, Function.update_self .., rfl, rfl, rfl⟩, ?_, rfl⟩
      · exact AbsBook.withdraw_rows_self (s := t.side)
      · intro y hy
        exact ⟨AbsBook.withdraw_rows_of_ne (s := t.side) hy, Function.update_of_ne hy _ _⟩

/-- After a fill the order is dropped when empty, parked when nobody can fill the rest, and saved
otherwise. -/
theorem finalizeOrderAfterFill_fate (h : Represents b A) (ho : b.orders x = some o)
    (hq : A.queue o.side = l ++ x :: r) {u : LimitOrder} (hlink : u.toLink = o.toLink)
    (hside : u.side = o.side) (hprice : u.price = o.price) {ev : Option MatchEvent}
    (hb : finalizeOrderAfterFill b x u = .ok (b', ev)) :
    ∃ A', Represents b' A' ∧ (∃ l', A'.queue o.side = l' ++ r) ∧
      (∀ y, y ≠ x → A'.rows y = A.rows y ∧ A'.claims y = A.claims y) ∧
      A'.escrow = A.escrow ∧ (∀ e ∈ ev, ¬e.IsFill) ∧
      (u.remaining = 0 ∧ A'.rows x = none ∧ A'.claims x = none ∨
        u.remaining ≠ 0 ∧
          (shouldFlushDust u.remaining ∨ ¬isLimitOrderFillable u.side u.remaining u.price) ∧
          A'.Parked x u.toOrderTerms ∨
        u.remaining ≠ 0 ∧
          ¬(shouldFlushDust u.remaining ∨ ¬isLimitOrderFillable u.side u.remaining u.price) ∧
          A'.rows x = some u.toOrderTerms) := by
  have hrow := h.row ho
  have hclaim := h.wf.disjoint x _ hrow
  have herase := h.erase_eq hq
  have hsaved : Represents (b.save x u) (A.putRow x u.toOrderTerms) := by
    have hterms := h.saveTerms ho (u := u.toOrderTerms) hside hprice
    rwa [← hlink] at hterms
  have hother : ∀ y, y ≠ x → (A.putRow x u.toOrderTerms).rows y = A.rows y := fun y hy =>
    AbsBook.putRow_rows_of_ne hy
  unfold finalizeOrderAfterFill at hb
  by_cases hzero : u.remaining = 0
  · rw [if_pos hzero] at hb
    obtain ⟨b₁, hb₁, hrep⟩ := h.unlink ho
    rw [hb₁] at hb
    cases hb
    refine ⟨_, hrep, ⟨l, ?_⟩, ?_, rfl, by simp, .inl ⟨hzero, AbsBook.withdraw_rows_self, hclaim⟩⟩
    · exact (Function.update_self ..).trans herase
    · intro y hy
      exact ⟨AbsBook.withdraw_rows_of_ne hy, rfl⟩
  · rw [if_neg hzero] at hb
    by_cases hlost : shouldFlushDust u.remaining ∨
        ¬isLimitOrderFillable u.side u.remaining u.price
    · rw [if_pos hlost] at hb
      have hstored : (b.save x u).orders x = some u := by simp [Book.save]
      set reason : ExpiredLimitParkReason :=
        if shouldFlushDust u.remaining then .dustFilled else .unfillable with hreason
      have hexp : none = if reason = .expired then u.expiresAt else none := by
        rw [hreason]
        split_ifs <;> simp_all
      obtain ⟨b₁, A', hb₁, hstep, hrep, -, hqueue⟩ :=
        parkLimitOrderForClean_spec hsaved hstored reason none hexp
      rw [hb₁] at hb
      cases hb
      obtain ⟨hparked, hframe, hescrow⟩ := park_spec hstep (hsaved.row hstored)
      refine ⟨A', hrep, ⟨l, ?_⟩, ?_, hescrow, ?_, .inr (.inl ⟨hzero, hlost, hparked⟩)⟩
      · rw [← hside, hqueue]
        exact hside ▸ herase
      · intro y hy
        exact ⟨(hframe y hy).1.trans (hother y hy), (hframe y hy).2⟩
      · intro e he
        cases he
        exact id
    · rw [if_neg hlost] at hb
      cases hb
      refine ⟨_, hsaved, ⟨l ++ [x], ?_⟩, ?_, rfl, by simp, .inr (.inr ⟨hzero, hlost, ?_⟩)⟩
      · rw [List.append_assoc]
        exact hq
      · intro y hy
        exact ⟨hother y hy, rfl⟩
      · exact Function.update_self ..

/-- An order that is set aside moves no amount. -/
theorem Walked.aside {v : Visit} (hroom : st.tally.makersUsed < w.cap)
    (hrow : A.rows x = some o.toOrderTerms)
    (hvisit : visitOrder w st.tally.left o.toOrderTerms = .ok v) (haside : v.SetsAside)
    (hrep : Represents st'.book A') (htally : st'.tally = st.tally)
    (hfate : A'.rows x = some o.toOrderTerms ∨ A'.Parked x o.toOrderTerms)
    (hframe : ∀ y, y ≠ x → A'.rows y = A.rows y ∧ A'.claims y = A.claims y)
    (hescrow : A'.escrow = A.escrow) (htaken : st'.escrowSubTotal = st.escrowSubTotal)
    (hpay : st'.makerPayouts = st.makerPayouts)
    (hevents : st'.fillEvents.filter MatchEvent.IsFill = st.fillEvents.filter MatchEvent.IsFill) :
    Walked w A st [⟨x, o.toOrderTerms, st.tally.left, v⟩] A' st' := by
  set s : Seen := ⟨x, o.toOrderTerms, st.tally.left, v⟩ with hs
  have hnot : ¬s.IsFill := Seen.not_isFill_of_setsAside haside
  have hafter : s.after = o.toOrderTerms := Seen.after_of_setsAside haside
  obtain ⟨hoffer, hzero, -⟩ := Seen.amounts_of_setsAside (s := s) haside
  refine ⟨hrep, ?_, ?_, ?_, ?_, hescrow, ?_, ?_, ?_⟩
  · rw [htally]
    exact .aside hroom hrow hvisit haside (.nil _)
  · intro s' hs'
    obtain rfl := List.mem_singleton.1 hs'
    rcases hfate with hrest | hpark
    · exact .resting (hafter ▸ hrest) fun hf => absurd hf hnot
    · exact .parked (hafter ▸ hpark) fun hf => absurd hf hnot
  · intro y hy
    exact (hframe y (by simpa [hs] using hy)).1
  · intro y hy
    exact (hframe y (by simpa [hs] using hy)).2
  · rw [htaken, totalOf_cons, hzero]
    rfl
  · intro a
    rw [hpay, totalOf_cons, Seen.offerTo, hoffer]
    simp
  · rw [hevents, List.filter_cons_of_neg (by simpa using hnot)]
    simp

theorem parkUnderCap_walked {v : Visit} (h : Represents st.book A) (ho : st.book.orders x = some o)
    (hq : A.queue w.side = l ++ x :: r) (hside : o.side = w.side)
    (hroom : st.tally.makersUsed < w.cap)
    (hvisit : visitOrder w st.tally.left o.toOrderTerms = .ok v) (haside : v.SetsAside)
    (reason : ExpiredLimitParkReason) (expiresAt : Option ℕ)
    (hexp : expiresAt = if reason = .expired then o.expiresAt else none)
    {park : Book → Except ContractError (Book × MatchEvent)}
    (hpark : park st.book = parkLimitOrderForClean st.book x reason expiresAt)
    (hst : st.parkUnderCap park = .ok st') :
    ∃ A', Walked w A st [⟨x, o.toOrderTerms, st.tally.left, v⟩] A' st' ∧
      ∃ l', A'.queue w.side = l' ++ r := by
  have hrow := h.row ho
  unfold MatchState.parkUnderCap at hst
  by_cases hcap : st.expiredParks < maxExpiredParksPerSwap
  · rw [if_pos hcap, hpark] at hst
    obtain ⟨b₁, A', hb₁, hstep, hrep, -, hqueue⟩ :=
      parkLimitOrderForClean_spec h ho reason expiresAt hexp
    rw [hb₁] at hst
    cases hst
    obtain ⟨hparked, hframe, hescrow⟩ := park_spec hstep hrow
    refine ⟨A', .aside hroom hrow hvisit haside hrep rfl (.inr hparked) hframe hescrow rfl rfl ?_,
      l, ?_⟩
    · rw [List.filter_append]
      exact List.append_nil _
    · rw [← hside, hqueue, h.erase_eq (hside ▸ hq)]
  · rw [if_neg hcap] at hst
    cases hst
    refine ⟨A, .aside hroom hrow hvisit haside h rfl (.inl hrow) (fun y _ => ⟨rfl, rfl⟩) rfl rfl
      rfl rfl, l ++ [x], ?_⟩
    rw [List.append_assoc]
    exact hq

theorem applyFill_walked {offer taken : ℕ} (h : Represents st.book A)
    (ho : st.book.orders x = some o) (hq : A.queue w.side = l ++ x :: r)
    (hroom : st.tally.makersUsed < w.cap)
    (hvisit : visitOrder w st.tally.left o.toOrderTerms = .ok (.fill offer taken))
    (hst : st.applyFill w x o offer taken = .ok st') :
    ∃ A', Walked w A st [⟨x, o.toOrderTerms, st.tally.left, .fill offer taken⟩] A' st' ∧
      ∃ l', A'.queue w.side = l' ++ r := by
  obtain ⟨hside, -, hle, -⟩ := (visitOrder_spec o.toOrderTerms w st.tally.left).success hvisit
  unfold MatchState.applyFill at hst
  obtain ⟨⟨tally, commission⟩, hadd, hst⟩ := bind_eq_ok.1 hst
  obtain ⟨payouts, hpay, hst⟩ := bind_eq_ok.1 hst
  obtain ⟨escrow, hescrow, hst⟩ := bind_eq_ok.1 hst
  obtain ⟨remaining, hremaining, hst⟩ := bind_eq_ok.1 hst
  obtain ⟨⟨b₁, ev⟩, hb, hst⟩ := bind_eq_ok.1 hst
  cases hst
  obtain ⟨-, rfl⟩ := addOrOverflow_eq_ok.1 hescrow
  obtain ⟨-, rfl⟩ := subOrOverflow_eq_ok.1 hremaining
  set s : Seen := ⟨x, o.toOrderTerms, st.tally.left, .fill offer taken⟩ with hs
  have hfill : s.IsFill := ⟨offer, taken, rfl⟩
  obtain ⟨A', hrep, hqueue, hframe, hkept, hev, hfate⟩ :=
    finalizeOrderAfterFill_fate h ho (hside ▸ hq) (u := { o with remaining := o.remaining - taken })
      rfl rfl rfl hb
  obtain ⟨hc, -, -, -⟩ := Tally.addFill_eq_ok hadd
  refine ⟨A', ⟨hrep, .fill hroom (h.row ho) hvisit hadd (.nil _), ?_, ?_, ?_, hkept, rfl, ?_, ?_⟩,
    hside ▸ hqueue⟩
  · intro s' hs'
    obtain rfl := List.mem_singleton.1 hs'
    rcases hfate with ⟨hzero, hrow, hclaim⟩ | ⟨-, hlost, hpark⟩ | ⟨hpos, hlive, hrow⟩
    · exact .dropped hfill hzero hrow hclaim
    · refine .parked hpark fun _ hsurvives => ?_
      rcases hlost with hdust | hunfillable
      · exact hsurvives.2.1 hdust
      · exact hunfillable hsurvives.2.2
    · obtain ⟨hdust, hfillable⟩ := not_or.1 hlive
      exact .resting hrow fun _ => ⟨hpos, hdust, not_not.1 hfillable⟩
  · intro y hy
    exact (hframe y (by simpa [hs] using hy)).1
  · intro y hy
    exact (hframe y (by simpa [hs] using hy)).2
  · intro a
    rw [creditMaker_paidTo hpay a]
    rfl
  · have hparkEvent : ev.toList.filter MatchEvent.IsFill = [] := by
      cases ev with
      | none => rfl
      | some e => exact List.filter_cons_of_neg (by simpa using hev e rfl)
    have hevent : s.fillEvent w.takerBps =
        limitOrderFillEvent x o.toOrderTerms offer taken commission := by
      rw [hc]
      rfl
    rw [List.filter_append, List.filter_cons_of_pos (by
      simpa using isFill_limitOrderFillEvent x o.toOrderTerms offer taken commission), hparkEvent,
      List.filter_cons_of_pos (by simpa using hfill)]
    simp only [List.filter_nil, List.map_cons, List.map_nil, hevent]

/-- A step of the executing walk that goes on has passed its order. -/
theorem matchStep_walked (h : Represents st.book A) (ho : st.book.orders x = some o)
    (hq : A.queue w.side = l ++ x :: r) (hroom : st.tally.makersUsed < w.cap)
    (hstep : matchStep w st x o = .ok (st', none)) :
    ∃ v A', Walked w A st [⟨x, o.toOrderTerms, st.tally.left, v⟩] A' st' ∧
      ∃ l', A'.queue w.side = l' ++ r := by
  have hrow := h.row ho
  unfold matchStep at hstep
  obtain ⟨v, hv, hstep⟩ := bind_eq_ok.1 hstep
  have hj := (visitOrder_spec o.toOrderTerms w st.tally.left).success hv
  have hkept : v.SetsAside → Walked w A st [⟨x, o.toOrderTerms, st.tally.left, v⟩] A st ∧
      ∃ l', A.queue w.side = l' ++ r := fun haside =>
    ⟨.aside hroom hrow hv haside h rfl (.inl hrow) (fun y _ => ⟨rfl, rfl⟩) rfl rfl rfl rfl,
      l ++ [x], by rw [List.append_assoc]; exact hq⟩
  cases v with
  | exhausted => cases hstep
  | worse => cases hstep
  | wrongSide =>
      cases hstep
      exact ⟨_, A, hkept trivial⟩
  | skip =>
      cases hstep
      exact ⟨_, A, hkept trivial⟩
  | expired =>
      obtain ⟨st₁, hpark, hstep⟩ := bind_eq_ok.1 hstep
      cases hstep
      exact ⟨_, parkUnderCap_walked h ho hq hj.1 hroom hv trivial .expired o.expiresAt (by simp)
        (parkExpiredLimitOrderForClaim_eq ho hj.2) hpark⟩
  | blacklisted =>
      obtain ⟨st₁, hpark, hstep⟩ := bind_eq_ok.1 hstep
      cases hstep
      exact ⟨_, parkUnderCap_walked h ho hq hj hroom hv trivial .blacklisted none (by simp) rfl
        hpark⟩
  | unfillable =>
      obtain ⟨st₁, hpark, hstep⟩ := bind_eq_ok.1 hstep
      cases hstep
      exact ⟨_, parkUnderCap_walked h ho hq hj.1 hroom hv trivial .unfillable none (by simp) rfl
        hpark⟩
  | fill offer taken =>
      obtain ⟨st₁, hfill, hstep⟩ := bind_eq_ok.1 hstep
      cases hstep
      exact ⟨_, applyFill_walked h ho hq hroom hv hfill⟩

theorem matchStep_stops {fin : WalkEnd} (hstep : matchStep w st x o = .ok (st', some fin)) :
    st' = st := by
  unfold matchStep at hstep
  obtain ⟨v, hv, hstep⟩ := bind_eq_ok.1 hstep
  cases v with
  | exhausted => cases hstep; rfl
  | worse => cases hstep; rfl
  | wrongSide => cases hstep
  | skip => cases hstep
  | _ =>
      obtain ⟨st₁, -, hstep⟩ := bind_eq_ok.1 hstep
      cases hstep

end Step

end Cl8yDex
