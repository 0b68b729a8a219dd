import Cl8yDex.LocalPool
import Cl8yDex.MirroredWalk
import Cl8yDex.Swap

/-!
# Local quotes and the pair's simulation

A mirror that holds a pair's numbers quotes the leg as the pair simulates it, over every book,
split and direction.
-/

namespace Cl8yDex.LocalQuote

open Outcome Listing

/-- The mirror holds what the pair holds, with the books as far as a walk can reach. -/
structure Reflects (m : BookMirror) (p : PairStorage) (A : AbsBook) (feeBps : ℕ) : Prop where
  asset0 : m.asset0Addr = p.pairInfo.token0
  asset1 : m.asset1Addr = p.pairInfo.token1
  reserve0 : m.reserve0 = p.reserves.1
  reserve1 : m.reserve1 = p.reserves.2
  fee : m.feeBps = feeBps
  bids : ∃ ids rest, A.queue .bid = ids ++ rest ∧ Covers A maxScanSteps m.bids ids rest
  asks : ∃ ids rest, A.queue .ask = ids ++ rest ∧ Covers A maxScanSteps m.asks ids rest

section Book

variable {w : WalkParams} {b : Book} {A : AbsBook} {rows : List RestingOrderRow}
  {budget maxFills fee now : ℕ}

theorem takerFeeBps_le {fee : ℕ} (h : fee ≤ 10000) : takerFeeBps fee ≤ 10000 :=
  (Nat.sub_le _ _).trans h

/-- The two simulations of a side. -/
theorem simulateMatchSide_agrees {side : LimitOrderSide} {gate : TradeBlacklistGate}
    {ids rest : List OrderId} (hclear : ∀ owner, gate owner = some false) (hfee : fee ≤ 10000)
    (hrep : Represents b A) (hq : A.queue side = ids ++ rest)
    (hc : Covers A maxScanSteps rows ids rest) (hbudget : budget ≤ u128Max) :
    Agree (fun r s => s.returnNet = r.returnNet ∧ s.offerConsumed = r.offerConsumed ∧
        s.commissionTotal = r.commissionAmount ∧ s.offerConsumed ≤ budget)
      (simulateMatchSide side now rows budget maxFills fee none)
      (simulateSide (walkParams side now maxFills fee (some gate) none) b budget none) := by
  have hopen : Open (walkParams side now maxFills fee (some gate) none) := by
    refine ⟨rfl, fun owner => ?_, takerFeeBps_le hfee⟩
    change orThrow (gate owner) _ = _
    rw [hclear]
    rfl
  have hhead : resolveMatchStartHint b none side = (ids ++ rest).head? := by
    change b.head side = _
    rw [hrep.head, hq]
  have hwalk := localWalk_agrees (l := []) ⟨budget, 0, 0, 0⟩ hopen hrep hq hc hbudget
  unfold simulateMatchSide simulateSide
  change Agree _ (localWalk side now (min maxFills maxMakerFillsHardCap) (localTakerFeeBps fee)
    maxScanSteps rows ⟨budget, 0, 0, 0⟩ >>= _) (simulateWalk _ b maxScanSteps
      (resolveMatchStartHint b none side) _ >>= _)
  rw [hhead]
  have hspent := localWalk_left_le side now (min maxFills maxMakerFillsHardCap)
    (localTakerFeeBps fee) maxScanSteps rows ⟨budget, 0, 0, 0⟩
  cases hlocal : localWalk side now (min maxFills maxMakerFillsHardCap) (localTakerFeeBps fee)
      maxScanSteps rows ⟨budget, 0, 0, 0⟩ with
  | error e =>
      obtain ⟨e', he⟩ := hwalk.failure hlocal
      rw [he]
      exact trivial
  | ok tally =>
      obtain ⟨⟨tally', fin⟩, hpair, heq⟩ := hwalk.success hlocal
      change tally' = tally at heq
      have hle : tally.left ≤ budget := hspent.success hlocal
      rw [hpair, heq, ok_bind, ok_bind]
      dsimp only
      rw [subOrOverflow_eq_ok.2 ⟨hle, rfl⟩]
      exact ⟨rfl, rfl, rfl, Nat.sub_le _ _⟩

end Book

section Pool

variable {wide : WideDivision} {i o x fee g : ℕ} {leg : Cl8yDex.PoolLeg}

theorem spotLinearSpread_eq_ok {s : ℕ} (h : spotLinearSpreadOverGross x i o g = .ok s) :
    s = x * o / i - g := by
  unfold spotLinearSpreadOverGross at h
  obtain ⟨_, -, h⟩ := bind_eq_ok.1 h
  obtain ⟨k, hk, h⟩ := bind_eq_ok.1 h
  obtain ⟨_, -, h⟩ := bind_eq_ok.1 h
  obtain ⟨-, rfl⟩ := mul256_eq_ok.1 hk
  cases h
  rfl

theorem pairLeg_spread (hx : x ≠ 0) (h : Cl8yDex.simulatePoolLeg i o x fee = .ok leg) :
    leg.spreadAmount = x * o / i - leg.grossOutput := by
  unfold Cl8yDex.simulatePoolLeg at h
  rw [if_neg hx] at h
  obtain ⟨⟨k, ni, no, g⟩, -, h⟩ := bind_eq_ok.1 h
  obtain ⟨c, -, h⟩ := bind_eq_ok.1 h
  obtain ⟨r, -, h⟩ := bind_eq_ok.1 h
  obtain ⟨s, hs, h⟩ := bind_eq_ok.1 h
  cases h
  exact spotLinearSpread_eq_ok hs

/-- The pool leg of a local quote, with the fields that the pair reports. -/
def localPoolLeg (wide : WideDivision) (i o x fee : ℕ) : Except DbSimError Cl8yDex.PoolLeg := do
  let gross ← simulatePoolLeg wide i o x 0
  let commission := swapFeeAmount gross fee
  let poolNet ← orThrow (checkedSub gross commission) .invalidNumeric
  let ideal ← idealOutput i o x
  return ⟨x, gross, poolNet, commission, ideal - gross⟩

/-- The two pool legs agree where the spot value of the input is a machine integer. -/
theorem localPoolLeg_agrees (wide : WideDivision) (hi : i ≤ u128Max) (ho : o ≤ u128Max)
    (hfee : fee ≤ 10000) (hideal : x * o / i ≤ u128Max) :
    Agree (fun a b => b = a) (localPoolLeg wide i o x fee)
      (Cl8yDex.simulatePoolLeg i o x fee) := by
  by_cases hx : x = 0
  · have hzero : swapFeeAmount 0 fee = 0 := by
      rw [swapFeeAmount_eq hfee, Nat.zero_mul, Nat.zero_div]
    unfold localPoolLeg simulatePoolLeg Cl8yDex.simulatePoolLeg idealOutput
    rw [if_pos hx, if_pos hx, if_pos hx, ok_bind, hzero, hx]
    exact rfl
  have hrefused : ¬((0 < i ∧ 0 < o) ∧ i + x ≤ u128Max) →
      ∃ e, Cl8yDex.simulatePoolLeg i o x fee = .error e := by
    intro hno
    cases hleg : Cl8yDex.simulatePoolLeg i o x fee with
    | error e => exact ⟨e, rfl⟩
    | ok leg =>
        have hpriced := simulatePoolLeg_eq_ok hx hleg
        exact absurd ⟨hpriced.reserves, hpriced.inRange⟩ hno
  by_cases hfunded : 0 < i ∧ 0 < o
  · obtain ⟨hipos, hopos⟩ := hfunded
    unfold localPoolLeg
    rw [simulatePoolLeg_eq hipos hi hopos ho]
    by_cases hadd : i + x ≤ u128Max
    · obtain ⟨leg, hleg, -, -⟩ := Cl8yDex.Listing.simulatePoolLeg_eq hipos hopos ho
        (Nat.pos_of_ne_zero hx) hadd hfee hideal
      have hpriced := simulatePoolLeg_eq_ok hx hleg
      have hspread := pairLeg_spread hx hleg
      have hsplit := hpriced.split
      have hcommission := hpriced.commission
      have hinput := hpriced.input
      rw [hpriced.gross] at hspread hsplit hcommission
      have hcle : leg.commissionAmount ≤ ConstantProduct.output i o x := by omega
      have hnet : ConstantProduct.output i o x - leg.commissionAmount = leg.returnAmount := by omega
      have htaken : checkedSub (ConstantProduct.output i o x) leg.commissionAmount =
          some leg.returnAmount := by
        rw [checkedSub, if_pos hcle, hnet]
      rw [if_pos hadd, ok_bind, swapFeeAmount_eq hfee, ← hcommission, hleg]
      dsimp only
      rw [htaken, orThrow_some, ok_bind, idealOutput_eq, if_pos hideal, ok_bind, ← hspread,
        ← hpriced.gross, ← hinput]
      exact rfl
    · obtain ⟨e, he⟩ := hrefused fun h => hadd h.2
      rw [if_neg hadd, he]
      exact trivial
  · obtain ⟨e, he⟩ := hrefused fun h => hfunded h.1
    have hempty : ¬(i ≠ 0 ∧ o ≠ 0) := by omega
    unfold localPoolLeg simulatePoolLeg
    rw [he, if_neg hx, ensure, if_neg hempty]
    exact trivial

end Pool

section Leg

variable {wide : WideDivision} {m : BookMirror} {p : PairStorage} {A : AbsBook} {q : Querier}
  {env : Env} {fee offer bookInput maxFills : ℕ} {offerToken : Addr}

theorem quoteHybridLeg_eq :
    quoteHybridLeg wide m env.blockTime offerToken offer bookInput maxFills = (do
      ensure (bookInput ≤ offer ∧ m.feeBps ≤ 10000 ∧
        (m.freshness = .fresh ∨ m.freshness = .emptyPool)) DbSimError.invalidNumeric
      let reserves ← orThrow (m.reserves offerToken) DbSimError.invalidNumeric
      let book ← quoteBook m env.blockTime offerToken bookInput maxFills
      let actual ← orThrow (checkedSub offer book.offerConsumed) DbSimError.invalidNumeric
      let leg ← localPoolLeg wide reserves.1 reserves.2 actual m.feeBps
      let total ← orThrow (checkedAdd leg.returnAmount book.returnNet) DbSimError.invalidNumeric
      return ⟨⟨total, leg.returnAmount, leg.commissionAmount, leg.spreadAmount, leg.input⟩,
        book.returnNet, book.commissionAmount⟩) := by
  unfold quoteHybridLeg localPoolLeg
  simp only [bind_assoc, pure_bind]

/-- The token that a taker of a side offers. -/
theorem Reflects.reserves (h : Reflects m p A fee) {side : LimitOrderSide}
    (hside : p.pairInfo.takenSide offerToken = .ok side) :
    m.reserves offerToken = some (inputReserve p.reserves side, outputReserve p.reserves side) := by
  unfold PairInfo.takenSide at hside
  unfold HopMirror.reserves
  rw [h.asset0, h.asset1, h.reserve0, h.reserve1]
  split_ifs at hside ⊢
  · cases hside
    rfl
  · cases hside
    rfl

/-- The split that leaves the rest of an offer to the pool. -/
def declaredSplit (offer bookInput maxFills : ℕ) : HybridSwapParams :=
  ⟨offer - bookInput, bookInput, maxFills, none⟩

theorem quoteBook_agrees (offer maxFills : ℕ) (hr : Reflects m p A fee) (hrep : Represents p.book A)
    (hclear : ∀ owner, tradeBlacklistGate q p.pairInfo env.contract owner = some false)
    (hfee : fee ≤ 10000) {side : LimitOrderSide}
    (hside : p.pairInfo.takenSide offerToken = .ok side) (hbook : bookInput ≤ u128Max) :
    Agree (fun r s => s.returnNet = r.returnNet ∧ s.offerConsumed = r.offerConsumed ∧
        s.commissionTotal = r.commissionAmount ∧ s.offerConsumed ≤ bookInput)
      (quoteBook m env.blockTime offerToken bookInput maxFills)
      (simulateBookLeg p q env side (planDeclared (declaredSplit offer bookInput maxFills))
        fee) := by
  unfold quoteBook simulateBookLeg planDeclared declaredSplit
  dsimp only
  by_cases hzero : bookInput = 0
  · rw [if_pos hzero, if_neg (by omega)]
    exact ⟨rfl, rfl, rfl, Nat.zero_le _⟩
  rw [if_neg hzero, if_pos (Nat.pos_of_ne_zero hzero), hr.asset0, hr.fee]
  unfold PairInfo.takenSide at hside
  split_ifs at hside ⊢
  · cases hside
    obtain ⟨ids, rest, hq, hc⟩ := hr.bids
    exact simulateMatchSide_agrees hclear hfee hrep hq hc hbook
  · cases hside
    obtain ⟨ids, rest, hq, hc⟩ := hr.asks
    exact simulateMatchSide_agrees hclear hfee hrep hq hc hbook

/-- A quote and the pair's answer name the same amounts. -/
structure HybridLegQuote.Matches (l : HybridLegQuote) (offer : ℕ)
    (r : HybridSimulationResponse) : Prop where
  total : r.returnAmount = l.returnAmount
  pool : r.poolReturnAmount = l.poolReturnAmount
  poolCommission : r.poolCommissionAmount = l.commissionAmount
  book : r.bookReturnAmount = l.bookReturnNet
  bookCommission : r.bookCommissionAmount = l.bookCommissionAmount
  spread : r.spreadAmount = l.spreadAmount
  consumed : l.poolInputActual + r.limitBookOfferConsumed = offer

end Leg

end Cl8yDex.LocalQuote
