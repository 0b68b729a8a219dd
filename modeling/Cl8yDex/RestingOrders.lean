import Cl8yDex.LiveOrders
import Cl8yDex.Priority

/-!
# No dust and no dead order in a new pair

The book of a reachable pair is live, and so is the book at every turn of a walk over it. The two
branches for unfillable orders, of a match and of a clean, are therefore never taken. A bid that is
neither expired nor blacklisted is filled for all that it buys as soon as a walk brings that much.
-/

namespace Cl8yDex

open Outcome Relation

/-- The walk that stands at the bid fills it for all that its remainder buys. -/
structure FillsCapacity (w : WalkParams) (st : MatchState) (x : OrderId) (o : LimitOrder) :
    Prop where
  fill_pos : 0 < o.price.buys o.remaining
  cost_pos : 0 < o.price.costs (o.price.buys o.remaining)
  visit : visitOrder w st.tally.left o.toOrderTerms =
    .ok (.fill (o.price.buys o.remaining) (o.price.costs (o.price.buys o.remaining)))
  taken : ∀ out, matchStep w st x o = .ok out → out.2 = none ∧
    out.1.tally.left + o.price.buys o.remaining = st.tally.left ∧
    out.1.tally.makersUsed = st.tally.makersUsed + 1 ∧
    out.1.escrowSubTotal = st.escrowSubTotal + o.price.costs (o.price.buys o.remaining)

/-- A match that offers a bid at least its capacity, at a rate that beats the pool's if asked. -/
structure OffersCapacity (w : WalkParams) (st : MatchState) (o : LimitOrder) : Prop where
  side : w.side = .bid
  bid : o.side = .bid
  budget : o.price.buys o.remaining ≤ st.tally.left
  beats : ∀ pool ∈ w.greedyPool, bidBeatsResidualPool o.price w.takerBps pool = .yes

/-- The match stands at the order `x`, in the state `st`. -/
def Meeting (w : WalkParams) (b : Book) (budget : ℕ) (hint : Option OrderId) (x : OrderId)
    (st : MatchState) : Prop :=
  ReflTransGen (MatchVisit w) (resolveMatchStartHint b hint w.side, .start b budget) (some x, st)

/-- Only live orders rest, and what walks over them never do and always do. `Admits` says which
bids a walk is expected to fill. -/
structure NoDeadOrders (p : PairStorage) (Admits : WalkParams → LimitOrder → Prop) : Prop where
  live : ∀ x o, p.book.orders x = some o → limitOrderDustFlushThreshold ≤ o.remaining ∧
    isLimitOrderFillable o.side o.remaining o.price = true
  matching : ∀ w budget hint x st o, Meeting w p.book budget hint x st →
    st.book.orders x = some o → visitOrder w st.tally.left o.toOrderTerms ≠ .ok .unfillable
  cleaning : ∀ now minRemaining start x b o,
    ReflTransGen (CleanVisit now minRemaining) (start, p.book) (some x, b) →
    b.orders x = some o → cleanReason now minRemaining o.toOrderTerms ≠ some .unfillable
  filling : ∀ w budget hint x st o, Meeting w p.book budget hint x st →
    st.book.orders x = some o → OffersCapacity w st o → Admits w o → FillsCapacity w st x o

section Visits

variable {w : WalkParams} {st : MatchState} {x : OrderId} {o : LimitOrder} {left : ℕ}

theorem OrderTerms.Live.visit_ne {t : OrderTerms} (ht : t.Live) :
    visitOrder w left t ≠ .ok .unfillable := by
  intro h
  have hdead := ((visitOrder_spec ..).success h).2
  rw [ht.fillable] at hdead
  cases hdead

theorem OrderTerms.Live.cleanReason_ne {t : OrderTerms} (ht : t.Live) {now minRemaining : ℕ} :
    cleanReason now minRemaining t ≠ some .unfillable := by
  unfold cleanReason
  rw [if_neg (not_not.2 ht.fillable)]
  split_ifs <;> exact nofun

theorem admitFill_of_beats {price : Decimal} {offer taken : ℕ}
    (h : ∀ pool ∈ w.greedyPool, beatsResidualPool w.side price w.takerBps pool = .yes) :
    w.admitFill price offer taken = .fill offer taken := by
  unfold WalkParams.admitFill
  cases hpool : w.greedyPool with
  | none => rfl
  | some pool => simp only [h pool (by rw [hpool]; rfl)]

/-- A fill takes the two amounts of its verdict. -/
theorem matchStep_fill {offer taken : ℕ} {out : MatchState × Option WalkEnd}
    (hvisit : visitOrder w st.tally.left o.toOrderTerms = .ok (.fill offer taken))
    (h : matchStep w st x o = .ok out) : out.2 = none ∧
      out.1.tally.left + offer = st.tally.left ∧
      out.1.tally.makersUsed = st.tally.makersUsed + 1 ∧
      out.1.escrowSubTotal = st.escrowSubTotal + taken := by
  unfold matchStep at h
  rw [hvisit, ok_bind] at h
  obtain ⟨st', hfill, h⟩ := bind_eq_ok.1 h
  cases h
  obtain ⟨⟨tally, commission⟩, hadd, hfill⟩ := bind_eq_ok.1 hfill
  obtain ⟨payouts, -, hfill⟩ := bind_eq_ok.1 hfill
  obtain ⟨escrow, hescrow, hfill⟩ := bind_eq_ok.1 hfill
  obtain ⟨remaining, -, hfill⟩ := bind_eq_ok.1 hfill
  obtain ⟨⟨b', parked⟩, -, hfill⟩ := bind_eq_ok.1 hfill
  cases hfill
  obtain ⟨-, -, hle, rfl⟩ := Tally.addFill_eq_ok hadd
  obtain ⟨-, rfl⟩ := addOrOverflow_eq_ok.1 hescrow
  exact ⟨rfl, Nat.sub_add_cancel hle, rfl, rfl⟩

theorem fillsCapacity_of_eligible (hlive : o.Live) (hoffer : OffersCapacity w st o)
    (helig : w.Eligible o.toOrderTerms) : FillsCapacity w st x o := by
  have hfill := hlive.fillable
  rw [hoffer.bid] at hfill
  obtain ⟨-, hp, -, hbuys, hcosts, hne⟩ := isLimitOrderFillable_iff.1 hfill
  have hcost : 0 < o.price.costs (o.price.buys o.remaining) := Nat.pos_of_ne_zero hne
  have hpos : 0 < o.price.buys o.remaining := by
    apply Nat.pos_of_ne_zero
    intro hzero
    rw [hzero] at hne
    exact hne Reciprocal.cost_zero
  have hbudget := hoffer.budget
  have hplan : planFill w.side st.tally.left o.toOrderTerms =
      .ok (some (o.price.buys o.remaining, o.price.costs (o.price.buys o.remaining))) := by
    rw [hoffer.side]
    change bidFill st.tally.left o.toOrderTerms = _
    rw [bidFill_eq hp hbuys hcosts, min_eq_right hbudget, if_neg hne]
  have hbeats : ∀ pool ∈ w.greedyPool,
      beatsResidualPool w.side o.price w.takerBps pool = .yes := by
    rw [hoffer.side]
    exact hoffer.beats
  have hvisit : visitOrder w st.tally.left o.toOrderTerms =
      .ok (.fill (o.price.buys o.remaining) (o.price.costs (o.price.buys o.remaining))) := by
    rw [visitOrder_eligible helig (by omega), hplan]
    exact congrArg Except.ok (admitFill_of_beats hbeats)
  exact ⟨hpos, hcost, hvisit, fun out hout => matchStep_fill hvisit hout⟩

end Visits

/-- What a walk looks at before the remainder: the expiry and the owner's trading blacklist. -/
structure NotSetAside (w : WalkParams) (o : LimitOrder) : Prop where
  current : isTimeExpired o.expiresAt w.now = false
  allowed : makerOwnerIsTradeBlacklisted w.gate o.owner = .ok false

theorem no_dead_orders {p : PairStorage} (h : Reachable p) : NoDeadOrders p NotSetAside := by
  have hmeet {w : WalkParams} {budget : ℕ} {hint : Option OrderId} {x : OrderId}
      {st : MatchState} {o : LimitOrder} (hrun : Meeting w p.book budget hint x st)
      (ho : st.book.orders x = some o) : o.Live :=
    matchVisits_live (show (MatchState.start p.book budget).book.AllLive from h.live) hrun x _
      (Book.terms_of_orders ho)
  constructor
  · intro x o ho
    have hlive := h.live x _ (Book.terms_of_orders ho)
    exact ⟨hlive.floor, hlive.fillable⟩
  · intro w budget hint x st o hrun ho
    exact (hmeet hrun ho).visit_ne
  · intro now minRemaining start x b o hrun ho
    have hlive := h.live x _ (cleanVisits_shrink hrun x _ (Book.terms_of_orders ho))
    exact hlive.cleanReason_ne
  · intro w budget hint x st o hrun ho hoffer hopen
    have hlive := hmeet hrun ho
    apply fillsCapacity_of_eligible hlive hoffer
    exact ⟨hoffer.bid.trans hoffer.side.symm, hopen.current, hopen.allowed, hlive.fillable⟩

section Sample

/-- A bid of user 7 that expires at time 2000. -/
def datedBook : PairStorage :=
  samplePool.transact .permissive (sampleEnv 1006) 2 (.receive ⟨7, 600000,
    .placeLimitOrderBatch .bid [⟨⟨2 * 10 ^ 18⟩, 600000, 5, some 2000, none⟩]⟩)

def datedBid : LimitOrder := ⟨⟨7, ⟨2 * 10 ^ 18⟩, 599100, .bid, some 2000⟩, ⟨none, none⟩⟩

theorem datedBook_reachable : Reachable datedBook := samplePool_reachable.transact ..

theorem datedBook_bid : datedBook.book.orders 1 = some datedBid ∧
    datedBook.book.head .bid = some 1 := by
  decide +kernel

/-- What the expected fill of the dated bid says about the verdict of a match. -/
theorem datedBid_visit {Admits : WalkParams → LimitOrder → Prop} {w : WalkParams}
    (h : NoDeadOrders datedBook Admits) (hside : w.side = .bid) (hpool : w.greedyPool = none)
    (hopen : Admits w datedBid) : visitOrder w 1000000 datedBid.toOrderTerms ≠ .ok .expired ∧
      visitOrder w 1000000 datedBid.toOrderTerms ≠ .ok .blacklisted := by
  have hmeet : Meeting w datedBook.book 1000000 none 1 (.start datedBook.book 1000000) := by
    have hstart : resolveMatchStartHint datedBook.book none w.side = some 1 := by
      rw [hside]
      exact datedBook_bid.2
    unfold Meeting
    rw [hstart]
  have hoffer : OffersCapacity w (.start datedBook.book 1000000) datedBid := by
    refine ⟨hside, rfl, by decide, ?_⟩
    rw [hpool]
    exact nofun
  have hfills := h.filling _ _ _ _ _ _ hmeet datedBook_bid.1 hoffer hopen
  constructor
  · intro hv
    cases hv.symm.trans hfills.visit
  · intro hv
    cases hv.symm.trans hfills.visit

/-- The expired bid of a reachable book is parked by a match that offers its capacity, and so is the
bid of a blacklisted owner. -/
theorem excluded_bids_not_filled : Reachable datedBook ∧
    ¬NoDeadOrders datedBook (fun _ _ => True) ∧
    ¬NoDeadOrders datedBook (fun w o => isTimeExpired o.expiresAt w.now = false) ∧
    ¬NoDeadOrders datedBook (fun w o =>
      makerOwnerIsTradeBlacklisted w.gate o.owner = .ok false) := by
  let late := walkParams .bid 3000 5 30 none none
  let barred := walkParams .bid 1500 5 30 (some fun _ => some true) none
  refine ⟨datedBook_reachable, ?_, ?_, ?_⟩
  · intro h
    exact (datedBid_visit (w := late) h rfl rfl trivial).1 rfl
  · intro h
    exact (datedBid_visit (w := barred) h rfl rfl rfl).2 rfl
  · intro h
    exact (datedBid_visit (w := late) h rfl rfl rfl).1 rfl

theorem no_dead_orders_sample : NoDeadOrders datedBook NotSetAside ∧
    datedBook.book.orders 1 = some datedBid :=
  ⟨no_dead_orders datedBook_reachable, datedBook_bid.1⟩

end Sample

end Cl8yDex
