import Cl8yDex.LargerBudget
import Cl8yDex.PairRuns

/-!
# When a larger budget buys no less

For bids always: the queue is sorted, so a bid that the smaller budget cannot take whole leaves it
nothing that a bid at a lower price would take. An ask may leave dust that buys more behind it than
the same dust would buy here, and its product with the reciprocal may overflow; without the two, a
larger budget buys no less from asks either.
-/

namespace Cl8yDex

open Outcome DoublyLinked Reciprocal

/-- The larger budget receives and consumes no less, when both quotes succeed. -/
def BuysNoLess (small large : Except ContractError BookSimulateResult) : Prop :=
  ∀ res res', small = .ok res → large = .ok res' →
    res.returnNet ≤ res'.returnNet ∧ res.offerConsumed ≤ res'.offerConsumed

/-- The walk with this budget, as far as it goes, fills nothing behind an order that it could have
filled and did not take whole. -/
def StopsWhenShort (w : WalkParams) (rows : OrderId → Option OrderTerms) (orders : List OrderId)
    (budget : ℕ) : Prop :=
  ∀ seen tally, Passed w rows ⟨budget, 0, 0, 0⟩ seen tally → seen.map Seen.id <+: orders →
    NoFillAfterShort w seen

section Walks

variable {w : WalkParams} {b : Book} {A : AbsBook} {budget small large : ℕ}
  {hint : Option OrderId} {l m r : List Seen} {s x : Seen}

theorem simulateSide_passed (h : Represents b A) {res : BookSimulateResult}
    (hs : simulateSide w b budget hint = .ok res) : ∃ seen rest n tally fin,
      A.startingAt w.side hint = seen.map Seen.id ++ rest ∧ maxScanSteps = seen.length + n ∧
      Passed w A.rows ⟨budget, 0, 0, 0⟩ seen tally ∧ Ends w A.rows n rest tally fin ∧
      res.returnNet = totalOf (Seen.net w.takerBps) seen ∧
      res.offerConsumed = totalOf Seen.offer seen := by
  unfold simulateSide at hs
  rw [h.start] at hs
  obtain ⟨⟨tally, fin⟩, hwalk, hs⟩ := bind_eq_ok.1 hs
  obtain ⟨consumed, hconsumed, hs⟩ := bind_eq_ok.1 hs
  obtain ⟨-, rfl⟩ := subOrOverflow_eq_ok.1 hconsumed
  cases hs
  obtain ⟨l, hq⟩ := A.startingAt_suffix (s := w.side) hint
  obtain ⟨seen, rest, n, hsplit, hsteps, hpassed, hend⟩ := simulateWalk_passed h hq hwalk
  have hout := hpassed.outTotal_eq
  have hleft := hpassed.totals.1
  refine ⟨seen, rest, n, tally, fin, hsplit, hsteps, hpassed, hend, ?_, ?_⟩
  · simpa using hout
  · simp only at hleft ⊢
    omega

theorem simulateSide_mono (h : Represents b A) (hle : small ≤ large)
    (hfits : ∀ x ∈ A.startingAt w.side hint, ∀ t, A.rows x = some t → w.Eligible t →
      w.Fits large t)
    (hshort : StopsWhenShort w A.rows (A.startingAt w.side hint) small) :
    BuysNoLess (simulateSide w b small hint) (simulateSide w b large hint) := by
  intro res res' hres hres'
  obtain ⟨seen, rest, n, tally, fin, hq, hn, hS, -, hnet, hoffer⟩ := simulateSide_passed h hres
  obtain ⟨seen', rest', n', tally', fin', hq', hn', hL, hend, hnet', hoffer'⟩ :=
    simulateSide_passed h hres'
  have hseen : ∀ s ∈ seen, s.IsFill → w.Fits large s.order := by
    rintro s hs ⟨offer, taken, hfill⟩
    obtain ⟨hrow, hvisit, -⟩ := hS.mem hs
    rw [hfill] at hvisit
    apply hfits s.id
    · rw [hq]
      exact List.mem_append_left _ (List.mem_map_of_mem hs)
    · exact hrow
    · exact (eligible_of_fill hvisit).1
  have hmono := hS.outbid hL hend (hq.symm.trans hq') (by omega) rfl hle hseen
    (hshort seen tally hS ⟨rest, hq.symm⟩)
  rw [hnet, hnet', hoffer, hoffer']
  exact ⟨hmono.2, hmono.1⟩

/-- Of two bids in queue order, the first is priced at least as high. -/
theorem Passed.bid_prices (hwf : A.WellFormed) {tally tally' : Tally} {queue : List OrderId}
    (hqueue : queue <:+ A.queue .bid) (hp : Passed w A.rows tally (l ++ s :: (m ++ x :: r)) tally')
    (hinit : (l ++ s :: (m ++ x :: r)).map Seen.id <+: queue) : x.order.price ≤ s.order.price := by
  have hsorted := (hwf.sorted .bid).sublist (hinit.sublist.trans hqueue.sublist)
  rw [List.map_append, List.map_cons, List.map_append, List.map_cons] at hsorted
  have hpair := (List.pairwise_append.1 hsorted).2.1
  have hfirst := (List.pairwise_cons.1 hpair).1 x.id
    (List.mem_append_right _ (List.mem_cons_self ..))
  have hsrow := (hp.mem (s := s) (by simp)).1
  have hxrow := (hp.mem (s := x) (by simp)).1
  exact not_lt.1 (hfirst _ hsrow _ hxrow)

/-- What an amount costs falls with the price. -/
theorem Decimal.costs_price_mono {p q : Decimal} (h : p ≤ q) (n : ℕ) : p.costs n ≤ q.costs n :=
  Nat.div_le_div_right (Nat.mul_le_mul_left n h)

theorem Passed.left_ne_zero {rows : OrderId → Option OrderTerms} {tally tally' : Tally}
    (hp : Passed w rows tally (l ++ s :: (m ++ x :: r)) tally') (hx : x.IsFill) : x.left ≠ 0 := by
  obtain ⟨-, -, hxvisit, -⟩ := hp.apart
  obtain ⟨offer, taken, hxv⟩ := hx
  rw [hxv] at hxvisit
  exact (eligible_of_fill hxvisit).2

/-- Ahead of a fill, an order that may be filled is filled, unless what was left has no plan. -/
theorem Passed.filled_or_unplanned {rows : OrderId → Option OrderTerms} {tally tally' : Tally}
    (hp : Passed w rows tally (l ++ s :: (m ++ x :: r)) tally') (hx : x.IsFill)
    (helig : w.Eligible s.order) :
    s.IsFill ∨ planFill w.side s.left s.order = .ok none := by
  have hxpos := hp.left_ne_zero hx
  obtain ⟨hvisit, hkind, hxvisit, hspent, -⟩ := hp.apart
  obtain ⟨offer, taken, hxv⟩ := hx
  rw [hxv] at hxvisit
  have hpos : s.left ≠ 0 := by omega
  rcases hkind with haside | hfill
  · rcases plan_of_setsAside helig hpos hvisit haside with hnone | ⟨pool, hpool, hskip⟩
    · exact .inr hnone
    · have hgone := (beats_eq_skip helig.fillable).1 hskip
      exact absurd hgone (poolSpotNet_of_fill hxvisit hpool)
  · exact .inl hfill

/-- A walk over bids fills nothing behind a bid that it did not take whole. -/
theorem bids_stop_when_short (h : Represents b A) (hside : w.side = .bid)
    (hsmall : small ≤ u128Max) :
    StopsWhenShort w A.rows (A.startingAt w.side hint) small := by
  rintro seen tally hp hinit l s m x r rfl hx helig
  obtain ⟨front, hfront⟩ := A.startingAt_suffix (s := w.side) hint
  have hprices := hp.bid_prices h.wf ⟨front, hside ▸ hfront.symm⟩ hinit
  obtain ⟨hvisit, -, hxvisit, hspent, hsleft⟩ := hp.apart
  obtain ⟨hp0, hbid⟩ := helig.capacity
  obtain ⟨hcap, hcosts, hne⟩ := hbid hside
  rcases hp.filled_or_unplanned hx helig with hfill | hnone
  · refine ⟨hfill, ?_⟩
    rw [hside]
    obtain ⟨offer', taken', hv⟩ := hfill
    have hso : s.offer = offer' := by simp [Seen.offer, hv]
    rw [hv] at hvisit
    rcases fill_is_maximal (hsleft.trans hsmall) hvisit with ⟨-, hall | hwhole⟩ | ⟨hask, -⟩
    · have hxpos := hp.left_ne_zero hx
      omega
    · change s.offer = _
      rw [hso]
      exact ((token0Capacity_eq_some hp0).1 hwhole).2
    · rw [hside] at hask
      cases hask
  · exfalso
    obtain ⟨offer, taken, hxv⟩ := hx
    rw [hxv] at hxvisit
    rw [hside] at hnone
    have hplan : planFill .bid s.left s.order = _ := bidFill_eq hp0 hcap hcosts
    rw [hnone] at hplan
    have hzero : s.order.price.costs (min s.left (s.order.price.buys s.order.remaining)) = 0 := by
      by_contra hpositive
      rw [if_neg hpositive] at hplan
      cases hplan
    have hmin : min s.left (s.order.price.buys s.order.remaining) = s.left := by
      apply min_eq_left
      by_contra hlt
      rw [min_eq_right (not_le.1 hlt).le] at hzero
      exact hne hzero
    rw [hmin] at hzero
    obtain ⟨-, hoffer, -, hfills⟩ := (visitOrder_spec ..).success hxvisit
    rw [hside] at hfills
    obtain ⟨-, htaken, hcost⟩ := hfills
    -- the later bid would pay even less for the same amount
    have hle : x.order.price.costs offer ≤ s.order.price.costs s.left :=
      (Decimal.costs_mono (by omega)).trans (Decimal.costs_price_mono hprices _)
    have hpaid : taken = x.order.price.costs offer := hcost
    omega

/-- A walk over asks at prices that spend a budget to the end fills nothing behind an ask that it
did not take whole. -/
theorem exact_asks_stop_when_short {rows : OrderId → Option OrderTerms} {orders : List OrderId}
    (hside : w.side = .ask) (hsmall : small ≤ u128Max)
    (hexact : ∀ x ∈ orders, ∀ t, rows x = some t → w.Eligible t →
      t.price.buys small ≤ u128Max ∧ ∀ n ≤ small, t.price.costs (t.price.buys n) = n) :
    StopsWhenShort w rows orders small := by
  rintro seen tally hp hinit l s m x r rfl hx helig
  have hmem : s ∈ l ++ s :: (m ++ x :: r) := by simp
  obtain ⟨hfits, hspends⟩ := hexact s.id (hinit.subset (List.mem_map_of_mem hmem)) s.order
    (hp.mem hmem).1 helig
  obtain ⟨hvisit, -, -, hspent, hsleft⟩ := hp.apart
  have hxpos := hp.left_ne_zero hx
  have hcost : s.order.price.costs (s.order.price.buys s.left) = s.left := hspends _ hsleft
  obtain ⟨-, hp0, -, hfillable⟩ := isLimitOrderFillable_iff.1 helig.fillable
  rcases hp.filled_or_unplanned hx helig with hfill | hnone
  · refine ⟨hfill, ?_⟩
    rw [hside]
    obtain ⟨offer', taken', hv⟩ := hfill
    have hso : s.offer = offer' := by simp [Seen.offer, hv]
    have hst : s.taken = taken' := by simp [Seen.taken, hv]
    rw [hv] at hvisit
    rcases fill_is_maximal (hsleft.trans hsmall) hvisit with ⟨hbid, -⟩ | ⟨-, hall | hbuys⟩
    · rw [hside] at hbid
      cases hbid
    · exact hst.trans hall
    · obtain ⟨-, hoffer, -, hfills⟩ := (visitOrder_spec ..).success hvisit
      rw [hside] at hfills
      have hpaid : offer' = s.order.price.costs taken' := hfills.2.2
      rw [((token0Capacity_eq_some hp0).1 hbuys).2, hcost] at hpaid
      omega
  · exfalso
    rw [hside] at hnone
    have hplan : planFill .ask s.left s.order = _ :=
      askFill_eq hp0 ((Decimal.buys_mono hsleft).trans hfits) (hsleft.trans hsmall)
    rw [hnone] at hplan
    have hzero :
        s.order.price.costs (min s.order.remaining (s.order.price.buys s.left)) = 0 := by
      by_contra hpositive
      rw [if_neg hpositive] at hplan
      cases hplan
    rcases min_choice s.order.remaining (s.order.price.buys s.left) with hmin | hmin
    · -- a fillable ask costs something
      rw [helig.side, hside] at hfillable
      have hwhole : 0 < s.order.price.costs s.order.remaining :=
        Nat.div_pos hfillable Decimal.fractional_pos
      rw [hmin] at hzero
      omega
    · rw [hmin] at hzero
      omega

/-- Bids always give a larger budget no less. Asks do when the smaller budget fills nothing behind
an ask that it left short, and the larger one does not overflow at any ask that may be filled. -/
theorem larger_budget_buys_no_less (h : Represents b A) (hle : small ≤ large)
    (hlarge : large ≤ u128Max) (hint : Option OrderId) (now maxMakerFills bps : ℕ)
    (gate : Option TradeBlacklistGate) (pool : Option GreedyPoolRef) :
    BuysNoLess (simulateMatchBids b now small maxMakerFills hint bps gate pool)
      (simulateMatchBids b now large maxMakerFills hint bps gate pool) ∧
    ((∀ x ∈ A.startingAt .ask hint, ∀ t, A.rows x = some t →
        (walkParams .ask now maxMakerFills bps gate pool).Eligible t →
        token0Capacity large t.price ≠ none) →
      StopsWhenShort (walkParams .ask now maxMakerFills bps gate pool) A.rows
        (A.startingAt .ask hint) small →
      BuysNoLess (simulateMatchAsks b now small maxMakerFills hint bps gate pool)
        (simulateMatchAsks b now large maxMakerFills hint bps gate pool)) := by
  constructor
  · let w := walkParams .bid now maxMakerFills bps gate pool
    apply simulateSide_mono (w := w) h hle
    · intro x hx t ht helig
      exact ⟨hlarge, nofun⟩
    · exact bids_stop_when_short h rfl (hle.trans hlarge)
  · intro hcap hshort
    let w := walkParams .ask now maxMakerFills bps gate pool
    apply simulateSide_mono (w := w) h hle
    · intro x hx t ht helig
      have hfits : ¬u128Max < t.price.buys large := fun hover =>
        hcap x hx t ht helig ((token0Capacity_eq_none helig.capacity.1).2 hover)
      exact ⟨hlarge, fun _ => not_lt.1 hfits⟩
    · exact hshort

end Walks

section Sample

/-- Two asks of user 7, for `n` and `m` of token0, on the empty sample book. -/
def twoAsks (p q n m : ℕ) : PairStorage :=
  samplePool.transact .permissive (sampleEnv 1006) 1 (.receive ⟨7, n + m,
    .placeLimitOrderBatch .ask [⟨⟨p⟩, n, 5, none, none⟩, ⟨⟨q⟩, m, 5, none, none⟩]⟩)

theorem twoAsks_reachable (p q n m : ℕ) : Reachable (twoAsks p q n m) :=
  samplePool_reachable.transact ..

def quoteAsks (p : PairStorage) (budget : ℕ) : Except ContractError BookSimulateResult :=
  simulateMatchAsks p.book 2000 budget 5 none 30 none none

/-- What the quote returns and what it takes from the budget. -/
def amountsOf (quote : Except ContractError BookSimulateResult) : Option (ℕ × ℕ) :=
  (quote.map fun res => (res.returnNet, res.offerConsumed)).toOption

theorem amountsOf_eq_some {quote : Except ContractError BookSimulateResult} {amounts : ℕ × ℕ}
    (h : amountsOf quote = some amounts) :
    ∃ res, quote = .ok res ∧ (res.returnNet, res.offerConsumed) = amounts := by
  cases quote with
  | error => cases h
  | ok res => exact ⟨res, rfl, Option.some.inj h⟩

theorem not_buysNoLess {quote quote' : Except ContractError BookSimulateResult} {net net' : ℕ}
    {consumed consumed' : ℕ} (h : amountsOf quote = some (net, consumed))
    (h' : amountsOf quote' = some (net', consumed')) (hless : net' < net ∨ consumed' < consumed) :
    ¬BuysNoLess quote quote' := by
  obtain ⟨res, hres, hamounts⟩ := amountsOf_eq_some h
  obtain ⟨res', hres', hamounts'⟩ := amountsOf_eq_some h'
  cases hamounts
  cases hamounts'
  intro hmore
  have := hmore res res' hres hres'
  omega

/-- The two bids of the sample book, and two asks at prices that leave no dust. -/
def exactBook : PairStorage :=
  sampleBook.transact .permissive (sampleEnv 1012) 1 (.receive ⟨7, 3000,
    .placeLimitOrderBatch .ask [⟨⟨5 * 10 ^ 17⟩, 1000, 5, none, none⟩,
      ⟨⟨10 ^ 18⟩, 2000, 5, none, none⟩]⟩)

theorem exactBook_asks {A : AbsBook} (h : Represents exactBook.book A) {x : OrderId}
    {t : OrderTerms} (hrow : A.rows x = some t) (hask : t.side = .ask) :
    t.price = ⟨5 * 10 ^ 17⟩ ∨ t.price = ⟨10 ^ 18⟩ := by
  have hasks : ∀ x < exactBook.book.orderNextId, ∀ t ∈ exactBook.book.terms x, t.side = .ask →
      t.price = ⟨5 * 10 ^ 17⟩ ∨ t.price = ⟨10 ^ 18⟩ := by decide +kernel
  refine hasks x ?_ t ?_ hask
  · rw [h.nextId]
    exact h.wf.row_lt x t hrow
  · rw [h.rows]
    exact hrow

/-- A budget is spent to the end at these prices. -/
theorem exact_prices {p : Decimal} (h : p = ⟨5 * 10 ^ 17⟩ ∨ p = ⟨10 ^ 18⟩) (n : ℕ) :
    p.buys n ≤ 2 * n ∧ p.costs (p.buys n) = n := by
  rcases h with rfl | rfl
  · have hbuys : Decimal.buys ⟨5 * 10 ^ 17⟩ n = n * (2 * 10 ^ 18) / 10 ^ 18 := rfl
    have hcosts : Decimal.costs ⟨5 * 10 ^ 17⟩ (2 * n) = 2 * n * (5 * 10 ^ 17) / 10 ^ 18 := rfl
    have hdouble : Decimal.buys ⟨5 * 10 ^ 17⟩ n = 2 * n := by omega
    rw [hdouble]
    omega
  · have hbuys : Decimal.buys ⟨10 ^ 18⟩ n = n * 10 ^ 18 / 10 ^ 18 := rfl
    have hcosts : Decimal.costs ⟨10 ^ 18⟩ n = n * 10 ^ 18 / 10 ^ 18 := rfl
    have hsame : Decimal.buys ⟨10 ^ 18⟩ n = n := by omega
    rw [hsame]
    omega

/-- From the asks, 300 are spent within the first one, and 700 reach the second. -/
theorem larger_budget_buys_no_less_sample :
    BuysNoLess (simulateMatchBids exactBook.book 2000 300000 5 none 30 none none)
      (simulateMatchBids exactBook.book 2000 700000 5 none 30 none none) ∧
    BuysNoLess (quoteAsks exactBook 300) (quoteAsks exactBook 700) ∧
    amountsOf (quoteAsks exactBook 300) = some (600, 300) ∧
    amountsOf (quoteAsks exactBook 700) = some (1199, 700) := by
  have hreachable : Reachable exactBook := sampleBook_reachable.transact ..
  obtain ⟨A, hA⟩ := hreachable.healthy
  have hasks {x : OrderId} {t : OrderTerms} {w : WalkParams} (hside : w.side = .ask)
      (hrow : A.rows x = some t) (helig : w.Eligible t) :
      t.price = ⟨5 * 10 ^ 17⟩ ∨ t.price = ⟨10 ^ 18⟩ :=
    exactBook_asks hA.rep hrow (helig.side.trans hside)
  refine ⟨?_, ?_, by decide +kernel, by decide +kernel⟩
  · exact (larger_budget_buys_no_less hA.rep (show 300000 ≤ 700000 by decide) (by decide) none 2000
      5 30 none none).1
  · refine (larger_budget_buys_no_less hA.rep (show 300 ≤ 700 by decide) (by decide) none 2000
      5 30 none none).2 ?_ ?_
    · intro x _ t hrow helig hnone
      have hover := (token0Capacity_eq_none helig.capacity.1).1 hnone
      have hbuys := (exact_prices (hasks rfl hrow helig) 700).1
      have hmax : 2 * 700 ≤ u128Max := by decide
      omega
    · refine exact_asks_stop_when_short rfl (by decide) fun x _ t hrow helig => ?_
      have hprice := hasks rfl hrow helig
      have hmax : 2 * 300 ≤ u128Max := by decide
      exact ⟨(exact_prices hprice 300).1.trans hmax, fun n _ => (exact_prices hprice n).2⟩

/-- The dust that the first ask leaves buys more behind it than there (twice), and a budget whose
product with the reciprocal overflows buys nothing. -/
theorem larger_budget_buys_less :
    (∀ p q n m, Reachable (twoAsks p q n m)) ∧
      ¬BuysNoLess
        (quoteAsks (twoAsks (13 * 10 ^ 16) (14 * 10 ^ 16) (10 ^ 22) (10 ^ 22)) (10 ^ 19 + 7))
        (quoteAsks (twoAsks (13 * 10 ^ 16) (14 * 10 ^ 16) (10 ^ 22) (10 ^ 22)) (10 ^ 19 + 8)) ∧
      ¬BuysNoLess (quoteAsks (twoAsks 3428571428571428571 (4 * 10 ^ 18) 141 365) 48)
        (quoteAsks (twoAsks 3428571428571428571 (4 * 10 ^ 18) 141 365) 50) ∧
      ¬BuysNoLess (quoteAsks (twoAsks (10 ^ 9) (10 ^ 9) (10 ^ 12) (10 ^ 12)) (10 ^ 20))
        (quoteAsks (twoAsks (10 ^ 9) (10 ^ 9) (10 ^ 12) (10 ^ 12)) (10 ^ 30)) := by
  have hdust : amountsOf (quoteAsks (twoAsks (13 * 10 ^ 16) (14 * 10 ^ 16) (10 ^ 22) (10 ^ 22))
      (10 ^ 19 + 7)) = some (76807692307692307753, 10000000000000000006) := by decide +kernel
  have hmore : amountsOf (quoteAsks (twoAsks (13 * 10 ^ 16) (14 * 10 ^ 16) (10 ^ 22) (10 ^ 22))
      (10 ^ 19 + 8)) = some (76807692307692307747, 10000000000000000007) := by decide +kernel
  have hsmall : amountsOf (quoteAsks (twoAsks 3428571428571428571 (4 * 10 ^ 18) 141 365) 48) =
      some (14, 48) := by decide +kernel
  have hlarge : amountsOf (quoteAsks (twoAsks 3428571428571428571 (4 * 10 ^ 18) 141 365) 50) =
      some (14, 47) := by decide +kernel
  have hfits : amountsOf (quoteAsks (twoAsks (10 ^ 9) (10 ^ 9) (10 ^ 12) (10 ^ 12)) (10 ^ 20)) =
      some (1994004500000, 1996) := by decide +kernel
  have hover : amountsOf (quoteAsks (twoAsks (10 ^ 9) (10 ^ 9) (10 ^ 12) (10 ^ 12)) (10 ^ 30)) =
      some (0, 0) := by decide +kernel
  refine ⟨twoAsks_reachable, ?_, ?_, ?_⟩
  · exact not_buysNoLess hdust hmore (.inl (by decide))
  · exact not_buysNoLess hsmall hlarge (.inr (by decide))
  · exact not_buysNoLess hfits hover (.inl (by decide))

end Sample

end Cl8yDex
