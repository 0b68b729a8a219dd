import Cl8yDex.Priority

/-!
# No trade-through, up to the truncated reciprocal

Whenever a walk fills an order, every eligible order before it is gone, has nothing to give to the
budget left, or was filled at its own turn as far as the truncated reciprocal let it. The last case
is real: eighteen decimals of a reciprocal leave thousands of units of a large bid at price 3.
-/

namespace Cl8yDex

open Outcome DoublyLinked

section Walks

variable {w : WalkParams} {rows : OrderId → Option OrderTerms} {tally tally' : Tally}
  {seen : List Seen} {s x : Seen}

/-- The maker cap holds throughout. -/
theorem Passed.makers_le (h : Passed w rows tally seen tally') (hcap : tally.makersUsed ≤ w.cap) :
    tally'.makersUsed ≤ w.cap := by
  induction h with
  | nil => exact hcap
  | aside _ _ _ _ _ ih => exact ih hcap
  | fill hroom _ _ hadd _ ih =>
      obtain ⟨-, -, -, rfl⟩ := Tally.addFill_eq_ok hadd
      exact ih hroom

theorem makers_eq_length (seen : List Seen) :
    totalOf Seen.makers seen = (seen.filter Seen.IsFill).length := by
  induction seen with
  | nil => rfl
  | cons s seen ih =>
      rw [totalOf_cons, ih]
      by_cases hs : s.IsFill
      · rw [List.filter_cons_of_pos (by simpa using hs), List.length_cons, Nat.add_comm]
        obtain ⟨offer, taken, hv⟩ := hs
        simp [Seen.makers, hv]
      · rw [List.filter_cons_of_neg (by simpa using hs)]
        unfold Seen.makers
        cases hv : s.visit with
        | fill offer taken => exact absurd ⟨offer, taken, hv⟩ hs
        | _ => simp

end Walks

/-- `seen` is what the match with this result looked at. -/
structure Traces (w : WalkParams) (A : AbsBook) (budget : ℕ) (hint : Option OrderId)
    (res : BookMatchResult) (seen : List Seen) : Prop where
  queued : seen.map Seen.id <+: A.startingAt w.side hint
  passed : ∃ tally, Passed w A.rows ⟨budget, 0, 0, 0⟩ seen tally
  events : res.fillEvents.filter MatchEvent.IsFill =
    (seen.filter Seen.IsFill).map (Seen.fillEvent w.takerBps)

/-- Priority among the orders of a walk, where `Settled s x` says why the eligible order `s` may be
passed by before `x` is filled. -/
structure PriceTime (w : WalkParams) (orders : List OrderId) (Settled : Seen → Seen → Prop)
    (seen : List Seen) : Prop where
  subsequence : ((seen.filter Seen.IsFill).map Seen.id).Sublist orders
  eligible : ∀ s ∈ seen, s.IsFill → w.Eligible s.order
  capped : (seen.filter Seen.IsFill).length ≤ w.cap
  priority : ∀ l s m x r, seen = l ++ s :: (m ++ x :: r) → x.IsFill → w.Eligible s.order →
    Settled s x

/-- The order is gone from the book, or the budget that met `x` finds nothing to fill in it. -/
def SpentOrGone (w : WalkParams) (b' : Book) (s x : Seen) : Prop :=
  b'.terms s.id = none ∨ planFill w.side x.left s.after = .ok none

/-- Why an eligible order may be passed by: besides `SpentOrGone`, it was filled at its turn for all
that the truncated reciprocal allowed, a bid by its remainder and an ask by the budget; or the
product of an ask's budget with the reciprocal overflowed. -/
inductive PassedBy (w : WalkParams) (b' : Book) (s x : Seen) : Prop
  | spentOrGone (h : SpentOrGone w b' s x)
  | bidFilled (hside : w.side = .bid) (hfill : s.IsFill)
      (h : token0Capacity s.order.remaining s.order.price = some s.offer)
  | askFilled (hside : w.side = .ask) (hfill : s.IsFill)
      (h : token0Capacity s.left s.order.price = some s.taken)
  | askOverflow (hside : w.side = .ask) (h : token0Capacity s.left s.order.price = none)

section Priority

variable {w : WalkParams} {b b' : Book} {A A' : AbsBook} {budget : ℕ} {hint : Option OrderId}
  {res : BookMatchResult} {st st' : MatchState} {l m r : List Seen} {s x : Seen}

theorem Seen.Fate.gone (h : s.Fate A) (hrest : s.after.remaining = 0) (hfill : s.IsFill) :
    A.rows s.id = none := by
  cases h with
  | dropped _ _ hrow _ => exact hrow
  | parked hpark => exact hpark.row
  | resting _ hlive => exact absurd hrest (hlive hfill).1

theorem Passed.passedBy {tally tally' : Tally} (hbudget : tally.left ≤ u128Max)
    (hp : Passed w A.rows tally (l ++ s :: (m ++ x :: r)) tally') (hfate : s.Fate A')
    (hrows : A'.rows = b'.terms) (hx : x.IsFill) (helig : w.Eligible s.order) :
    PassedBy w b' s x := by
  obtain ⟨hvisit, hkind, hxvisit, hspent, hsleft⟩ := hp.apart
  obtain ⟨offer, taken, hxv⟩ := hx
  rw [hxv] at hxvisit
  obtain ⟨-, hxpos⟩ := eligible_of_fill hxvisit
  have hbound : s.left ≤ u128Max := hsleft.trans hbudget
  have hpos : s.left ≠ 0 := by omega
  rcases hkind with haside | hfill
  · rcases plan_of_setsAside helig hpos hvisit haside with hnone | ⟨pool, hpool, hskip⟩
    · have hless : x.left ≤ s.left := by omega
      rcases planFill_none_mono helig hless hbound hnone with hnone' | ⟨hask, hover⟩
      · rw [← Seen.after_of_setsAside haside] at hnone'
        exact .spentOrGone (.inr hnone')
      · exact .askOverflow hask hover
    · exact absurd ((beats_eq_skip helig.fillable).1 hskip) (poolSpotNet_of_fill hxvisit hpool)
  · obtain ⟨offer', taken', hv⟩ := hfill
    have hso : s.offer = offer' := by simp [Seen.offer, hv]
    have hst : s.taken = taken' := by simp [Seen.taken, hv]
    rw [hv] at hvisit
    rcases fill_is_maximal hbound hvisit with ⟨hbid, hall | hcap⟩ | ⟨hask, hall | hcap⟩
    · -- the budget is used up, so nothing behind this bid can be filled
      omega
    · exact .bidFilled hbid ⟨_, _, hv⟩ (hso ▸ hcap)
    · have hrest : s.after.remaining = 0 := by
        change s.order.remaining - s.taken = 0
        omega
      exact .spentOrGone (.inl (hrows ▸ hfate.gone hrest ⟨_, _, hv⟩))
    · exact .askFilled hask ⟨_, _, hv⟩ (hst ▸ hcap)

theorem matchSide_priority (h : Represents b A) (hbudget : budget ≤ u128Max)
    (hm : matchSide w b budget hint = .ok (b', res)) :
    ∃ seen, Traces w A budget hint res seen ∧
      PriceTime w (A.startingAt w.side hint) (PassedBy w b') seen := by
  obtain ⟨seen, rest, A', st', hsplit, hwalked, hescrow, -, -, -, -, -, hevents⟩ :=
    matchSide_walked h hm
  obtain ⟨-, -, hterms, -⟩ := escrowSubPending_eq_ok hescrow
  have hrows : A'.rows = b'.terms := by rw [hterms, hwalked.rep.rows]
  have hinit : seen.map Seen.id <+: A.startingAt w.side hint := ⟨rest, hsplit.symm⟩
  refine ⟨seen, ⟨hinit, ⟨_, hwalked.passed⟩, ?_⟩, ?_, ?_, ?_, ?_⟩
  · rw [hevents, hwalked.events]
    rfl
  · exact (List.filter_sublist.map Seen.id).trans hinit.sublist
  · intro s hs hfill
    obtain ⟨-, hvisit, -⟩ := hwalked.passed.mem hs
    obtain ⟨offer, taken, hv⟩ := hfill
    rw [hv] at hvisit
    exact (eligible_of_fill hvisit).1
  · have hmakers := hwalked.passed.totals.2.2.2
    have hle := hwalked.passed.makers_le (Nat.zero_le _)
    rw [← makers_eq_length]
    simp only [Nat.zero_add] at hmakers
    rw [← hmakers]
    exact hle
  · rintro l s m x r rfl hx helig
    exact hwalked.passed.passedBy hbudget (hwalked.fates s (by simp)) hrows hx helig

/-- A match fills in queue order, only eligible orders and at most the capped number of them, and
passes by an eligible order for one of the reasons above. -/
theorem price_time_priority (h : Represents b A) (hbudget : budget ≤ u128Max)
    {side : LimitOrderSide} {now maxMakerFills bps : ℕ} {gate : Option TradeBlacklistGate}
    {pool : Option GreedyPoolRef}
    (hm : matchBook side b now budget maxMakerFills hint bps gate pool = .ok (b', res)) :
    ∃ seen, Traces (walkParams side now maxMakerFills bps gate pool) A budget hint res seen ∧
      PriceTime (walkParams side now maxMakerFills bps gate pool) (A.startingAt side hint)
        (PassedBy (walkParams side now maxMakerFills bps gate pool) b') seen := by
  rw [matchBook_eq] at hm
  exact matchSide_priority (w := walkParams side now maxMakerFills bps gate pool) h hbudget hm

end Priority

/-- The same match with nothing but `SpentOrGone` for a reason to pass an eligible order by. -/
def NoTradeThrough (side : LimitOrderSide) (b : Book) (A : AbsBook)
    (now budget maxMakerFills : ℕ) (hint : Option OrderId) (bps : ℕ)
    (gate : Option TradeBlacklistGate) (pool : Option GreedyPoolRef) : Prop :=
  ∀ b' res, matchBook side b now budget maxMakerFills hint bps gate pool = .ok (b', res) →
    ∃ seen, Traces (walkParams side now maxMakerFills bps gate pool) A budget hint res seen ∧
      PriceTime (walkParams side now maxMakerFills bps gate pool) (A.startingAt side hint)
        (SpentOrGone (walkParams side now maxMakerFills bps gate pool) b') seen

/-- A bid at price 3 whose remainder divided by 3 is not what its reciprocal buys. -/
def steepBid : OrderTerms := ⟨7, ⟨3 * 10 ^ 18⟩, 3 * 10 ^ 21, .bid, none⟩

theorem steepBids_matched : ∃ out,
    matchBook .bid (uniformBook steepBid 2) 10 (10 ^ 21) 5 none 30 none none = .ok out ∧
      out.1.terms 1 = some { steepBid with remaining := 3000 } ∧
      (out.2.fillEvents.filter MatchEvent.IsFill).length = 2 := by
  have hfigures : ((matchBook .bid (uniformBook steepBid 2) 10 (10 ^ 21) 5 none 30 none none).map
      fun out => (out.1.terms 1, (out.2.fillEvents.filter MatchEvent.IsFill).length)).toOption =
        some (some { steepBid with remaining := 3000 }, 2) := by decide +kernel
  cases hout : matchBook .bid (uniformBook steepBid 2) 10 (10 ^ 21) 5 none 30 none none with
  | ok out =>
      rw [hout] at hfigures
      obtain ⟨h1, h2⟩ := Prod.mk.inj (Option.some.inj hfigures)
      exact ⟨out, rfl, h1, h2⟩
  | error e =>
      rw [hout] at hfigures
      cases hfigures

/-- Of two equal bids at price 3 the first keeps 3000 and could take 999 more for 2997, but the
1000 left of the budget go to the second. -/
theorem remainder_traded_through : ¬NoTradeThrough .bid (uniformBook steepBid 2)
    (uniformAbs steepBid 2) 10 (10 ^ 21) 5 none 30 none none := by
  intro hclaim
  obtain ⟨⟨b', res⟩, hout, hterms, hcount⟩ := steepBids_matched
  obtain ⟨seen, ⟨⟨rest, hqueued⟩, ⟨tally, hp⟩, hevents⟩, hpriority⟩ := hclaim b' res hout
  have hqueue : (uniformAbs steepBid 2).startingAt .bid none = [1, 2] := rfl
  have hlength : seen.length + rest.length = 2 := by
    have hsize := congrArg List.length (hqueued.trans hqueue)
    simpa using hsize
  rw [hevents, List.length_map] at hcount
  have hall : (seen.filter Seen.IsFill).length = seen.length :=
    le_antisymm (List.length_filter_le _ _) (by omega)
  have hfills : ∀ s ∈ seen, s.IsFill := fun s hs => by
    simpa using List.length_filter_eq_length_iff.1 hall s hs
  obtain ⟨s, x, rfl⟩ := List.length_eq_two.1 (hall.symm.trans hcount)
  have hids : s.id = 1 ∧ x.id = 2 := by
    have hl := hqueued.trans hqueue
    simp only [List.map_cons, List.map_nil, List.cons_append, List.cons.injEq] at hl
    exact ⟨hl.1, hl.2.1⟩
  obtain ⟨-, hrow, hleft, hvisit, -⟩ := hp.head
  rw [hids.1] at hrow
  have hs : s.order = steepBid := (Option.some.inj hrow).symm
  have hvisit' : visitOrder (walkParams .bid 10 5 30 none none) (10 ^ 21) steepBid =
      .ok (.fill (10 ^ 21 - 1000) (3 * 10 ^ 21 - 3000)) := by decide +kernel
  rw [hs] at hvisit
  have hv := Except.ok.inj (hvisit.symm.trans hvisit')
  rw [← List.singleton_append] at hp
  obtain ⟨tally₁, h1, hp⟩ := hp.split
  have hspent := h1.totals.1
  rw [totalOf_cons, totalOf_nil, Nat.add_zero, Seen.offer, hv] at hspent
  obtain ⟨-, -, hxleft, -, -⟩ := hp.head
  have hx : x.left = 1000 := by
    simp only at hspent
    omega
  have hafter : s.after = { steepBid with remaining := 3000 } := by
    unfold Seen.after Seen.taken
    rw [hv, hs]
    rfl
  have helig : (walkParams .bid 10 5 30 none none).Eligible s.order := by
    rw [hs]
    exact (eligible_of_fill hvisit').1
  rcases hpriority.priority [] s [] x [] rfl (hfills x (by simp)) helig with hgone | hnone
  · rw [hids.1, hterms] at hgone
    cases hgone
  · rw [hx, hafter] at hnone
    have hplan : planFill .bid 1000 { steepBid with remaining := 3000 } =
        .ok (some (999, 2997)) := by
      decide +kernel
    rw [show (walkParams .bid 10 5 30 none none).side = .bid from rfl, hplan] at hnone
    cases hnone

theorem price_time_priority_sample : ∃ out seen,
    matchBook .bid (uniformBook steepBid 2) 10 (10 ^ 21) 5 none 30 none none = .ok out ∧
      Traces (walkParams .bid 10 5 30 none none) (uniformAbs steepBid 2) (10 ^ 21) none out.2
        seen ∧
      PriceTime (walkParams .bid 10 5 30 none none) ((uniformAbs steepBid 2).startingAt .bid none)
        (PassedBy (walkParams .bid 10 5 30 none none) out.1) seen := by
  obtain ⟨out, hout, -, -⟩ := steepBids_matched
  obtain ⟨seen, htraces, hpriority⟩ :=
    price_time_priority (uniform_represents (by decide)) (by decide) hout
  exact ⟨out, seen, hout, htraces, hpriority⟩

end Cl8yDex
