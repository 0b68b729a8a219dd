import Cl8yDex.MatchFates
import Cl8yDex.SwapLegsSpec
import Cl8yDex.UniformBook

/-!
# The accounts of a match

A whole match passes a part of its queue. Its totals, its payouts and the escrow it takes are sums
over the fills among the orders it passed; the others keep what they had.
-/

namespace Cl8yDex

open Outcome DoublyLinked

section Walk

variable {w : WalkParams} {A A' A'' : AbsBook} {st st' st'' : MatchState} {seen : List Seen}
  {s : Seen} {l r : List OrderId}

theorem Walked.nil (h : Represents st.book A) : Walked w A st [] A st :=
  ⟨h, .nil _, by simp, fun _ _ => rfl, fun _ _ => rfl, rfl, rfl, fun _ => rfl, by simp⟩

theorem Passed.congr {rows rows' : OrderId → Option OrderTerms} {tally tally' : Tally}
    (h : Passed w rows tally seen tally') (hrows : ∀ y ∈ seen.map Seen.id, rows' y = rows y) :
    Passed w rows' tally seen tally' := by
  induction h with
  | nil => exact .nil _
  | aside hroom hrow hvisit haside _ ih =>
      rw [List.map_cons, List.forall_mem_cons] at hrows
      exact .aside hroom (hrows.1.trans hrow) hvisit haside (ih hrows.2)
  | fill hroom hrow hvisit hadd _ ih =>
      rw [List.map_cons, List.forall_mem_cons] at hrows
      exact .fill hroom (hrows.1.trans hrow) hvisit hadd (ih hrows.2)

/-- The fate of an order outlives changes to other orders. -/
theorem Seen.Fate.congr (h : s.Fate A) (hrow : A'.rows s.id = A.rows s.id)
    (hclaim : A'.claims s.id = A.claims s.id) : s.Fate A' := by
  cases h with
  | dropped hfill hrest hr hc => exact .dropped hfill hrest (hrow.trans hr) (hclaim.trans hc)
  | parked hpark hlost =>
      obtain ⟨c, hc, hterms⟩ := hpark.claim
      exact .parked ⟨hrow.trans hpark.row, c, hclaim.trans hc, hterms⟩ hlost
  | resting hr hlive => exact .resting (hrow.trans hr) hlive

/-- Walks over different orders compose. -/
theorem Walked.cons (h : Walked w A st [s] A' st') (h' : Walked w A' st' seen A'' st'')
    (hs : s.id ∉ seen.map Seen.id) : Walked w A st (s :: seen) A'' st'' where
  rep := h'.rep
  passed := by
    apply h.passed.append
    apply h'.passed.congr
    intro y hy
    have hne : y ≠ s.id := ne_of_mem_of_not_mem hy hs
    exact (h.rows y (by simpa using hne)).symm
  fates := by
    intro s' hs'
    rcases List.mem_cons.1 hs' with rfl | hs'
    · exact (h.fates _ (List.mem_singleton.2 rfl)).congr (h'.rows _ hs) (h'.claims _ hs)
    · exact h'.fates s' hs'
  rows := by
    intro y hy
    rw [List.map_cons, List.mem_cons, not_or] at hy
    exact (h'.rows y hy.2).trans (h.rows y (by simpa using hy.1))
  claims := by
    intro y hy
    rw [List.map_cons, List.mem_cons, not_or] at hy
    exact (h'.claims y hy.2).trans (h.claims y (by simpa using hy.1))
  escrow := h'.escrow.trans h.escrow
  taken := by
    have h1 := h.taken
    have h2 := h'.taken
    simp only [totalOf_cons, totalOf_nil] at h1 ⊢
    omega
  payouts := by
    intro a
    have h1 := h.payouts a
    have h2 := h'.payouts a
    simp only [totalOf_cons, totalOf_nil] at h1 ⊢
    omega
  events := by
    rw [h'.events, h.events, List.append_assoc, ← List.map_append, ← List.filter_append]
    rfl

/-- A finished executing walk has passed a part of its queue and done nothing else. -/
theorem matchWalk_walked {n : ℕ} {fin : WalkEnd} (h : Represents st.book A)
    (hq : A.queue w.side = l ++ r) (hw : matchWalk w n r.head? st = .ok (st', fin)) :
    ∃ seen rest A', r = seen.map Seen.id ++ rest ∧ Walked w A st seen A' st' := by
  induction n generalizing A st l r with
  | zero =>
      cases hw
      exact ⟨[], r, A, rfl, .nil h⟩
  | succ n ih =>
      unfold matchWalk at hw
      by_cases hroom : st.tally.makersUsed < w.cap
      · rw [if_pos hroom] at hw
        cases r with
        | nil =>
            cases hw
            exact ⟨[], [], A, rfl, .nil h⟩
        | cons x r =>
            obtain ⟨o, ho, hrow, hnext⟩ := h.node hq
            simp only [List.head?_cons, load_eq ho, ok_bind] at hw
            obtain ⟨⟨st₁, stop⟩, hstep, hw⟩ := bind_eq_ok.1 hw
            cases stop with
            | some fin' =>
                cases hw
                obtain rfl := matchStep_stops hstep
                exact ⟨[], x :: r, A, rfl, .nil h⟩
            | none =>
                obtain ⟨v, A₁, hwalked, l', hq'⟩ := matchStep_walked h ho hq hroom hstep
                rw [hnext] at hw
                obtain ⟨seen, rest, A', rfl, hrest⟩ := ih hwalked.rep hq' hw
                refine ⟨_ :: seen, rest, A', rfl, hwalked.cons hrest fun hx => ?_⟩
                have hn := (h.listed w.side).nodup
                rw [hq] at hn
                have hxr := (List.nodup_cons.1 (List.nodup_append.1 hn).2.1).1
                exact hxr (List.mem_append_left rest hx)
      · rw [if_neg hroom] at hw
        cases hw
        exact ⟨[], r, A, rfl, .nil h⟩

end Walk

section Accounts

variable {w : WalkParams} {b b' : Book} {A : AbsBook} {side : LimitOrderSide}
  {budget bps : ℕ} {hint : Option OrderId} {res : BookMatchResult}

/-- The maker gives at most what its price asks: a bid pays at most `price` token1 for a token0,
and an ask gets less than one raw unit of token1 short of `price` for each token0. -/
def MakerProtected : LimitOrderSide → Decimal → ℕ → ℕ → Prop
  | .bid, price, offer, taken => taken * Decimal.fractional ≤ price.atomics * offer
  | .ask, price, offer, taken =>
      price.atomics * taken < (offer + 1) * Decimal.fractional

theorem FillsAt.makerProtected {price : Decimal} {offer taken : ℕ}
    (h : FillsAt side price offer taken) : MakerProtected side price offer taken := by
  cases side with
  | bid =>
      obtain ⟨-, -, rfl⟩ := h
      change _ * _ ≤ _
      rw [Nat.mul_comm price.atomics]
      exact Nat.div_mul_le_self _ _
  | ask =>
      obtain ⟨-, -, rfl⟩ := h
      change _ < _
      rw [Nat.mul_comm price.atomics, Nat.mul_comm _ Decimal.fractional]
      exact Nat.lt_mul_div_succ _ Decimal.fractional_pos

/-- An order of these terms rests in the book or waits, with this remainder, in a claim. -/
def Book.Keeps (b : Book) (x : OrderId) (t : OrderTerms) : Prop :=
  b.terms x = some t ∨ b.terms x = none ∧ ∃ r, b.expiredLimitClaims x = some r ∧
    r.owner = t.owner ∧ r.side = t.side ∧ r.remaining = t.remaining

/-- The accounts of one match that passed the orders `seen`. -/
structure FillAccounts (side : LimitOrderSide) (budget bps : ℕ) (b b' : Book)
    (res : BookMatchResult) (seen : List Seen) : Prop where
  stored : ∀ s ∈ seen, b.terms s.id = some s.order
  consumed_le : res.offerConsumed ≤ budget
  consumed : res.offerConsumed = totalOf Seen.offer seen
  payouts : payoutSum res.makerPayouts = res.offerConsumed
  payee : ∀ a, paidTo a res.makerPayouts = totalOf (Seen.offerTo a) seen
  split : res.returnNet + res.commissionTotal = totalOf Seen.taken seen
  escrow : b'.pendingEscrow side + totalOf Seen.taken seen = b.pendingEscrow side
  otherEscrow : b'.pendingEscrow side.other = b.pendingEscrow side.other
  commission : res.commissionTotal = totalOf (Seen.commission (takerFeeBps bps)) seen
  fee : makerFeeBps bps + takerFeeBps bps = bps
  events : res.fillEvents.filter MatchEvent.IsFill =
    (seen.filter Seen.IsFill).map (Seen.fillEvent (takerFeeBps bps))
  protected_ : ∀ s ∈ seen, s.IsFill → s.taken ≤ s.order.remaining ∧
    MakerProtected side s.order.price s.offer s.taken
  filled : ∀ s ∈ seen, s.IsFill →
    s.after.remaining = 0 ∧ b'.terms s.id = none ∨ b'.Keeps s.id s.after
  unfilled : ∀ s ∈ seen, ¬s.IsFill → s.offer = 0 ∧ s.taken = 0 ∧
    s.commission (takerFeeBps bps) = 0 ∧ b'.Keeps s.id s.order
  untouched : ∀ y, y ∉ seen.map Seen.id →
    b'.terms y = b.terms y ∧ b'.expiredLimitClaims y = b.expiredLimitClaims y

/-- Taking the walk's total moves the counter of its side only. -/
theorem escrowSubPending_eq_ok {s : LimitOrderSide} {n : ℕ} {path : EscrowPath}
    (h : b.escrowSubPending s n path = .ok b') : b'.pendingEscrow s + n = b.pendingEscrow s ∧
      b'.pendingEscrow s.other = b.pendingEscrow s.other ∧ b'.terms = b.terms ∧
      b'.expiredLimitClaims = b.expiredLimitClaims := by
  unfold Book.escrowSubPending at h
  by_cases hzero : n = 0
  · rw [if_pos hzero] at h
    cases h
    exact ⟨by omega, rfl, rfl, rfl⟩
  · rw [if_neg hzero] at h
    obtain ⟨rest, hrest, h⟩ := bind_eq_ok.1 h
    obtain ⟨hle, rfl⟩ := checkedSub_eq_some.1 (orThrow_eq_ok.1 hrest)
    cases h
    refine ⟨?_, ?_, rfl, rfl⟩
    · simp only [Book.saveEscrow, Function.update_self]
      omega
    · exact Function.update_of_ne (LimitOrderSide.other_ne s) _ _

/-- A finished match is a walk over a part of the queue and one escrow step. -/
theorem matchSide_walked (h : Represents b A)
    (hm : matchSide w b budget hint = .ok (b', res)) :
    ∃ seen rest A' st', A.startingAt w.side hint = seen.map Seen.id ++ rest ∧
      Walked w A ⟨b, ⟨budget, 0, 0, 0⟩, 0, 0, 0, [], []⟩ seen A' st' ∧
      st'.book.escrowSubPending w.side st'.escrowSubTotal .matchWalk = .ok b' ∧
      res.returnNet = st'.tally.outTotal ∧ res.offerConsumed = budget - st'.tally.left ∧
      res.commissionTotal = st'.tally.commissionTotal ∧ res.makersUsed = st'.tally.makersUsed ∧
      res.makerPayouts = st'.makerPayouts ∧ res.fillEvents = st'.fillEvents := by
  obtain ⟨l, hq⟩ := A.startingAt_suffix (s := w.side) hint
  unfold matchSide at hm
  rw [h.start] at hm
  obtain ⟨⟨st', fin⟩, hwalk, hm⟩ := bind_eq_ok.1 hm
  obtain ⟨b₁, hescrow, hm⟩ := bind_eq_ok.1 hm
  obtain ⟨consumed, hconsumed, hm⟩ := bind_eq_ok.1 hm
  obtain ⟨-, rfl⟩ := subOrOverflow_eq_ok.1 hconsumed
  cases hm
  let start : MatchState := ⟨b, ⟨budget, 0, 0, 0⟩, 0, 0, 0, [], []⟩
  have hstart : Represents start.book A := h
  obtain ⟨seen, rest, A', hsplit, hwalked⟩ := matchWalk_walked hstart hq hwalk
  exact ⟨seen, rest, A', st', hsplit, hwalked, hescrow, rfl, rfl, rfl, rfl, rfl, rfl⟩

theorem matchSide_accounts (h : Represents b A) (hbal : A.escrow w.side = A.held w.side)
    (hbps : w.takerBps = takerFeeBps bps) (hm : matchSide w b budget hint = .ok (b', res)) :
    ∃ seen, seen.map Seen.id <+: A.startingAt w.side hint ∧
      FillAccounts w.side budget bps b b' res seen := by
  obtain ⟨-, acts, A₁, hmatched⟩ := (matchSide_spec h hbal budget hint).success hm
  obtain ⟨seen, rest, A', st', hsplit, hwalked, hescrow, hreturn, hconsumed, hcommission, -,
    hpayouts, hevents⟩ := matchSide_walked h hm
  obtain ⟨hsub, hother, hterms, hclaims⟩ := escrowSubPending_eq_ok hescrow
  obtain ⟨hleft, hout, hcom, -⟩ := hwalked.passed.totals
  have htaken := hwalked.taken
  have hrep := hwalked.rep
  have hstill : st'.book.pendingEscrow = b.pendingEscrow := by
    rw [hrep.escrow, hwalked.escrow, h.escrow]
  simp only [Nat.zero_add] at hleft hout hcom htaken
  rw [hbps] at hout hcom
  refine ⟨seen, ⟨rest, hsplit.symm⟩, ?_, hmatched.consumed_le, ?_, hmatched.payouts, ?_, ?_, ?_,
    ?_, ?_, maker_add_taker bps, ?_, ?_, ?_, ?_, ?_⟩
  · intro s hs
    rw [h.rows]
    exact (hwalked.passed.mem hs).1
  · omega
  · intro a
    rw [hpayouts, hwalked.payouts a]
    exact Nat.zero_add _
  · omega
  · rw [← hstill, ← htaken]
    exact hsub
  · rw [hother, hstill]
  · omega
  · rw [hevents, hwalked.events, hbps]
    rfl
  · intro s hs hfill
    obtain ⟨-, -, hle, hat⟩ := hwalked.passed.fill_spec hs hfill
    exact ⟨hle, hat.makerProtected⟩
  · intro s hs _
    rw [Book.Keeps, hterms, hclaims, hrep.rows, hrep.claims]
    cases hwalked.fates s hs with
    | dropped _ hrest hrow => exact .inl ⟨hrest, hrow⟩
    | parked hpark => exact .inr (.inr ⟨hpark.row, hpark.claim⟩)
    | resting hrow => exact .inr (.inl hrow)
  · intro s hs hnot
    have haside := (hwalked.passed.mem hs).2.2.resolve_right hnot
    obtain ⟨h1, h2, -⟩ := Seen.amounts_of_setsAside haside
    have hafter := Seen.after_of_setsAside haside
    refine ⟨h1, h2, ?_, ?_⟩
    · unfold Seen.commission
      rw [h2]
      simp
    · rw [Book.Keeps, hterms, hclaims, hrep.rows, hrep.claims]
      cases hwalked.fates s hs with
      | dropped hfill => exact absurd hfill hnot
      | parked hpark => exact .inr (hafter ▸ ⟨hpark.row, hpark.claim⟩)
      | resting hrow => exact .inl (hafter ▸ hrow)
  · intro y hy
    rw [hterms, hclaims, hrep.rows, hrep.claims, h.rows, h.claims]
    exact ⟨hwalked.rows y hy, hwalked.claims y hy⟩

/-- Every finished match is accounted for by its fills. -/
theorem fill_accounting (h : Represents b A) (hbal : A.escrow side = A.held side)
    {now maxMakerFills : ℕ} {gate : Option TradeBlacklistGate} {pool : Option GreedyPoolRef}
    (hm : matchBook side b now budget maxMakerFills hint bps gate pool = .ok (b', res)) :
    ∃ seen, seen.map Seen.id <+: A.startingAt side hint ∧
      FillAccounts side budget bps b b' res seen := by
  rw [matchBook_eq] at hm
  exact matchSide_accounts (w := walkParams side now maxMakerFills bps gate pool) h hbal rfl hm

end Accounts

/-- A bid at price 2 for up to 500 token0. -/
def openBid : OrderTerms := ⟨7, ⟨2 * 10 ^ 18⟩, 1000, .bid, none⟩

/-- A budget of 700 empties the first of two such bids and takes 200 from the second. -/
theorem fill_accounting_sample : ∃ out seen,
    matchBook .bid (uniformBook openBid 2) 10 700 5 none 30 none none = .ok out ∧
      out.2.offerConsumed = 700 ∧
      seen.map Seen.id <+: (uniformAbs openBid 2).startingAt .bid none ∧
      FillAccounts .bid 700 30 (uniformBook openBid 2) out.1 out.2 seen := by
  have hfigures : ((matchBook .bid (uniformBook openBid 2) 10 700 5 none 30 none none).map
      fun out => out.2.offerConsumed).toOption = some 700 := by decide +kernel
  cases hout : matchBook .bid (uniformBook openBid 2) 10 700 5 none 30 none none with
  | ok out =>
      rw [hout] at hfigures
      obtain ⟨seen, hinit, haccounts⟩ :=
        fill_accounting (uniform_represents (by decide)) (uniform_balanced .bid) hout
      exact ⟨out, seen, rfl, Option.some.inj hfigures, hinit, haccounts⟩
  | error e =>
      rw [hout] at hfigures
      cases hfigures

end Cl8yDex
