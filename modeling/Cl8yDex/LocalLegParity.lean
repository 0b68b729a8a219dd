import Cl8yDex.MirrorParity
import Cl8yDex.LocalInverse
import Cl8yDex.PairRuns
import Cl8yDex.UniformBook

/-!
# How large the commissions of a quote are

The commission of a fill and the output of a pool whose spot value is a machine integer are both so
far below the largest machine integer that the pair can always add up the commissions of a leg that
the indexer quotes.
-/

namespace Cl8yDex.LocalQuote

open Outcome Listing

section Fills

/-- Each fill's commission is a part of a machine integer that is divided by 10000. -/
structure Thin (cap : ℕ) (tally : Tally) : Prop where
  makers : tally.makersUsed ≤ cap
  commission : tally.commissionTotal ≤ tally.makersUsed * (u128Max / 10000)

variable {m : BookMirror} {side : LimitOrderSide} {fee budget bookInput maxFills : ℕ}
  {offerToken : Addr} {tally : Tally} {cap takerBps now offered taken : ℕ} {row : RestingOrderRow}

theorem addLocalFill_thin (h : Thin cap tally) (hroom : tally.makersUsed < cap) :
    Meets (addLocalFill takerBps tally offered taken) (Thin cap) (fun _ => True) := by
  unfold addLocalFill
  apply (meets_orThrow fun _ => trivial).bind
  intro scaled hscaled
  obtain ⟨hfits, rfl⟩ := checkedMul_eq_some.1 hscaled
  apply (meets_orThrow fun _ => trivial).bind
  intro total htotal
  have hsum : total = tally.commissionTotal + taken * takerBps / 10000 := by
    unfold checkedAdd at htotal
    split_ifs at htotal
    exact (Option.some.inj htotal).symm
  apply (meets_orThrow fun _ => trivial).bind
  intro out _
  constructor
  · exact hroom
  · have hpart : taken * takerBps / 10000 ≤ u128Max / 10000 := Nat.div_le_div_right hfits
    calc total = tally.commissionTotal + taken * takerBps / 10000 := hsum
      _ ≤ tally.makersUsed * (u128Max / 10000) + u128Max / 10000 :=
        Nat.add_le_add h.commission hpart
      _ = (tally.makersUsed + 1) * (u128Max / 10000) := (Nat.succ_mul _ _).symm

theorem localWalk_thin (n : ℕ) (rows : List RestingOrderRow) (h : Thin cap tally) :
    Meets (localWalk side now cap takerBps n rows tally) (Thin cap) (fun _ => True) := by
  induction n generalizing rows tally with
  | zero => exact h
  | succ n ih =>
      unfold localWalk
      cases rows with
      | nil => exact h
      | cons row rows =>
          dsimp only
          split_ifs with hstop
          · exact h
          · have hroom : tally.makersUsed < cap := by omega
            have hstep : Meets (localStep side now takerBps tally row) (Thin cap)
                (fun _ => True) := by
              unfold localStep
              split_ifs
              · exact h
              · cases (economicOrderTerms row).bind (localFill side tally.left) with
                | none => exact h
                | some out => exact addLocalFill_thin h hroom
            apply hstep.bind
            exact fun _ => ih rows

theorem simulateMatchSide_thin {rows : List RestingOrderRow} :
    Meets (simulateMatchSide side now rows budget maxFills fee none)
      (fun book => book.commissionAmount ≤ u128Max / 100) (fun _ => True) := by
  have hstart : Thin (min maxFills maxMakerFillsHardCap) ⟨budget, 0, 0, 0⟩ :=
    ⟨Nat.zero_le _, Nat.zero_le _⟩
  unfold simulateMatchSide
  apply (localWalk_thin maxScanSteps _ hstart).bind
  rintro tally ⟨hmakers, hcommission⟩
  have hcap : tally.makersUsed ≤ 100 := hmakers.trans (min_le_right _ _)
  calc tally.commissionTotal ≤ tally.makersUsed * (u128Max / 10000) := hcommission
    _ ≤ 100 * (u128Max / 10000) := Nat.mul_le_mul_right _ hcap
    _ ≤ u128Max / 100 := by decide

theorem quoteBook_thin : Meets (quoteBook m now offerToken bookInput maxFills)
    (fun book => book.commissionAmount ≤ u128Max / 100) (fun _ => True) := by
  unfold quoteBook
  split_ifs
  · exact Nat.zero_le _
  · exact simulateMatchSide_thin
  · exact simulateMatchSide_thin

end Fills

section Pool

variable {fee : ℕ}

/-- An output whose spot value is a machine integer is at most half of the largest one. -/
theorem output_le_half {i o x : ℕ} (hi : 0 < i) (ho : o ≤ u128Max)
    (hideal : x * o / i ≤ u128Max) : ConstantProduct.output i o x ≤ u128Max / 2 := by
  have hsum := ConstantProduct.output_add (o := o) (x := x) hi
  have hproduct := ConstantProduct.product_le (o := o) (x := x) hi
  have hspot : x * o < i * (u128Max + 1) := by
    have hlt : x * o < i * (x * o / i + 1) := Nat.lt_mul_div_succ _ hi
    exact hlt.trans_le (Nat.mul_le_mul_left i (Nat.succ_le_succ hideal))
  have hwhole : x * o ≤ x * u128Max := Nat.mul_le_mul_left x ho
  generalize ConstantProduct.output i o x = out at hsum ⊢
  generalize ConstantProduct.reserveAfter i o x = after at hsum hproduct
  generalize u128Max = top at hspot hwhole ⊢
  have hshare : (i + x) * out ≤ x * o := by
    have hexpand : (i + x) * out + (i + x) * after = i * o + x * o := by
      rw [← Nat.mul_add, hsum, Nat.add_mul]
    omega
  rw [Nat.le_div_iff_mul_le (by decide)]
  by_contra hgt
  -- twice the output would be worth more than both bounds on it together
  have hlarge : (i + x) * (top + 1) ≤ (i + x) * (out * 2) :=
    Nat.mul_le_mul_left (i + x) (not_le.1 hgt)
  have htwice : (i + x) * (out * 2) = 2 * ((i + x) * out) := by ring
  have hbounds : (i + x) * (top + 1) = i * (top + 1) + x * top + x := by ring
  omega

theorem localPoolLeg_narrow (wide : WideDivision) {i o : ℕ} (x : ℕ) (hi : i ≤ u128Max)
    (ho : o ≤ u128Max) (hfee : fee ≤ 10000) : Meets (localPoolLeg wide i o x fee)
      (fun leg => leg.input = x ∧ x * o / i ≤ u128Max ∧ leg.commissionAmount ≤ u128Max / 2)
      (fun _ => True) := by
  have hgross : Meets (simulatePoolLeg wide i o x 0)
      (fun g => x * o / i ≤ u128Max → g ≤ u128Max / 2) (fun _ => True) := by
    by_cases hx : x = 0
    · unfold simulatePoolLeg
      rw [if_pos hx]
      exact fun _ => Nat.zero_le _
    by_cases hfunded : 0 < i ∧ 0 < o
    · rw [simulatePoolLeg_eq hfunded.1 hi hfunded.2 ho]
      split_ifs
      · exact output_le_half hfunded.1 ho
      · exact trivial
    · have hempty : ¬(i ≠ 0 ∧ o ≠ 0) := by omega
      unfold simulatePoolLeg
      rw [if_neg hx, ensure, if_neg hempty]
      exact trivial
  unfold localPoolLeg
  apply hgross.bind
  intro gross hhalf
  apply (meets_true _).bind
  intro net _
  rw [idealOutput_eq]
  split_ifs with hideal
  · refine ⟨rfl, hideal, ?_⟩
    rw [swapFeeAmount_eq hfee]
    exact (ConstantProduct.fee_le hfee).trans (hhalf hideal)
  · exact trivial

end Pool

end Cl8yDex.LocalQuote

/-!
## The local quote equals the pair's answer

Whenever the local quote of a leg succeeds, the pair's simulation answers with the same amounts; and
it fails only where the pair fails too, or where the spot value of the pool input is too wide.
-/

namespace Cl8yDex.LocalQuote

open Outcome Listing

variable {wide : WideDivision} {m : BookMirror} {p : PairStorage} {A : AbsBook} {q : Querier}
  {env : Env} {fee offer bookInput maxFills : ℕ} {offerToken : Addr} {side : LimitOrderSide}
  {belief : Option Decimal}

/-- The legs of the pair's simulation and its answer, once the split is accepted. -/
def answerSplit (p : PairStorage) (q : Querier) (env : Env) (side : LimitOrderSide)
    (split : HybridSwapParams) (fee : ℕ) : Except ContractError HybridSimulationResponse := do
  let legs ← simulateLegs p q env side (planDeclared split) fee
  legs.response

/-- The spot value of what the book leaves to the pool is wider than a machine integer. -/
def TooWide (m : BookMirror) (p : PairStorage) (now : ℕ) (side : LimitOrderSide) (offerToken : Addr)
    (offer bookInput maxFills : ℕ) : Prop :=
  ∃ book, quoteBook m now offerToken bookInput maxFills = .ok book ∧
    u128Max < (offer - book.offerConsumed) * outputReserve p.reserves side /
      inputReserve p.reserves side

theorem poolInputAmount_eq {consumed : ℕ} (hbook : bookInput ≤ offer) (hoffer : offer ≤ u128Max)
    (hle : consumed ≤ bookInput) :
    poolInputAmount (planDeclared (declaredSplit offer bookInput maxFills)) consumed =
      .ok (offer - consumed) := by
  have hsum : offer - bookInput + (bookInput - consumed) = offer - consumed := by omega
  have hfits : offer - bookInput + (bookInput - consumed) ≤ u128Max := by omega
  unfold poolInputAmount planDeclared declaredSplit
  dsimp only
  rw [subOrOverflow_eq_ok.2 ⟨hle, rfl⟩, ok_bind, addOrOverflow_eq_ok.2 ⟨hfits, rfl⟩, hsum]

/-- The two totals of a leg. -/
theorem response_agrees {book : BookSimResult} {s : BookSimulateResult} {leg : Cl8yDex.PoolLeg}
    (hnet : s.returnNet = book.returnNet) (hcommission : s.commissionTotal = book.commissionAmount)
    (hconsumed : leg.input + s.offerConsumed = offer)
    (hsum : leg.commissionAmount + book.commissionAmount ≤ u128Max) :
    Meets (do
      let total ← orThrow (checkedAdd leg.returnAmount book.returnNet) DbSimError.invalidNumeric
      return (⟨⟨total, leg.returnAmount, leg.commissionAmount, leg.spreadAmount, leg.input⟩,
        book.returnNet, book.commissionAmount⟩ : HybridLegQuote))
      (fun l => ∃ r, (⟨s, leg⟩ : QuotedLegs).response = .ok r ∧ l.Matches offer r)
      (fun _ => ∃ e, (⟨s, leg⟩ : QuotedLegs).response = .error e) := by
  unfold QuotedLegs.response
  dsimp only
  rw [hnet, hcommission]
  by_cases hfits : leg.returnAmount + book.returnNet ≤ u128Max
  · have hfits' : book.returnNet + leg.returnAmount ≤ u128Max := by omega
    rw [checkedAdd, if_pos hfits, orThrow_some, ok_bind, addOrOverflow_eq_ok.2 ⟨hfits', rfl⟩,
      ok_bind, addOrOverflow_eq_ok.2 ⟨hsum, rfl⟩]
    refine ⟨_, rfl, ?_⟩
    constructor
    · exact Nat.add_comm _ _
    · rfl
    · rfl
    · rfl
    · rfl
    · rfl
    · exact hconsumed
  · have hwide : ¬book.returnNet + leg.returnAmount ≤ u128Max := by omega
    rw [checkedAdd, if_neg hfits, addOrOverflow, checkedAdd, if_neg hwide]
    exact ⟨_, rfl⟩

theorem Reflects.reserves_le (hr : Reflects m p A fee) :
    p.reserves.1 ≤ u128Max ∧ p.reserves.2 ≤ u128Max := by
  rw [← hr.reserve0, ← hr.reserve1]
  exact ⟨m.reserve0_le, m.reserve1_le⟩

theorem answerSplit_agrees (hr : Reflects m p A fee) (hrep : Represents p.book A)
    (hfresh : m.freshness = .fresh ∨ m.freshness = .emptyPool)
    (hclear : ∀ owner, tradeBlacklistGate q p.pairInfo env.contract owner = some false)
    (hfee : fee ≤ 10000) (hside : p.pairInfo.takenSide offerToken = .ok side)
    (hbook : bookInput ≤ offer) (hoffer : offer ≤ u128Max) :
    Meets (quoteHybridLeg wide m env.blockTime offerToken offer bookInput maxFills)
      (fun l => ∃ r, answerSplit p q env side (declaredSplit offer bookInput maxFills) fee = .ok r ∧
        l.Matches offer r)
      (fun _ => (∃ e, answerSplit p q env side (declaredSplit offer bookInput maxFills) fee =
          .error e) ∨
        TooWide m p env.blockTime side offerToken offer bookInput maxFills) := by
  have hagree := quoteBook_agrees offer maxFills hr hrep hclear hfee hside (hbook.trans hoffer)
  obtain ⟨h0, h1⟩ := hr.reserves_le
  have hi : inputReserve p.reserves side ≤ u128Max := by
    cases side with
    | bid => exact h0
    | ask => exact h1
  have ho : outputReserve p.reserves side ≤ u128Max := by
    cases side with
    | bid => exact h1
    | ask => exact h0
  have hguard : bookInput ≤ offer ∧ m.feeBps ≤ 10000 ∧
      (m.freshness = .fresh ∨ m.freshness = .emptyPool) := ⟨hbook, hr.fee ▸ hfee, hfresh⟩
  rw [quoteHybridLeg_eq, ensure_pos hguard, ok_bind, hr.reserves hside, orThrow_some, ok_bind]
  unfold answerSplit simulateLegs
  cases hlocal : quoteBook m env.blockTime offerToken bookInput maxFills with
  | error e =>
      obtain ⟨e', he⟩ := hagree.failure hlocal
      rw [he]
      exact .inl ⟨e', rfl⟩
  | ok book =>
      obtain ⟨s, hs, hnet, hconsumed, hcommission, hle⟩ := hagree.success hlocal
      have hactual : checkedSub offer book.offerConsumed = some (offer - s.offerConsumed) := by
        rw [← hconsumed, checkedSub, if_pos (hle.trans hbook)]
      rw [hs, ok_bind, ok_bind, poolInputAmount_eq hbook hoffer hle, ok_bind, hactual, orThrow_some,
        ok_bind, hr.fee]
      dsimp only
      have hnarrow := localPoolLeg_narrow wide (offer - s.offerConsumed) hi ho hfee
      have hthin : book.commissionAmount ≤ u128Max / 100 := quoteBook_thin.success hlocal
      by_cases hideal : (offer - s.offerConsumed) * outputReserve p.reserves side /
          inputReserve p.reserves side ≤ u128Max
      · have hleg := localPoolLeg_agrees wide hi ho hfee hideal
        cases hlocalLeg : localPoolLeg wide (inputReserve p.reserves side)
            (outputReserve p.reserves side) (offer - s.offerConsumed) fee with
        | error e =>
            obtain ⟨e', he⟩ := hleg.failure hlocalLeg
            rw [he]
            exact .inl ⟨e', rfl⟩
        | ok leg =>
            obtain ⟨leg', hpair, heq⟩ := hleg.success hlocalLeg
            obtain ⟨hinput, -, hhalf⟩ := hnarrow.success hlocalLeg
            have hoffered : leg.input + s.offerConsumed = offer := by omega
            have hsum : leg.commissionAmount + book.commissionAmount ≤ u128Max :=
              (Nat.add_le_add hhalf hthin).trans (by decide)
            rw [hpair, heq, ok_bind, ok_bind]
            exact (response_agrees hnet hcommission hoffered hsum).mono (fun _ h => h)
              fun _ h => .inl h
      · have hwide : TooWide m p env.blockTime side offerToken offer bookInput maxFills :=
          ⟨book, hlocal, by rw [← hconsumed]; exact not_le.1 hideal⟩
        cases hlocalLeg : localPoolLeg wide (inputReserve p.reserves side)
            (outputReserve p.reserves side) (offer - s.offerConsumed) fee with
        | error e => exact .inr hwide
        | ok leg => exact absurd (hnarrow.success hlocalLeg).2.1 hideal

/-- Nothing is answered on an offer of nothing. -/
theorem answerSplit_zero (hzero : offer = 0) (hbook : bookInput = 0) :
    answerSplit p q env side (declaredSplit offer bookInput maxFills) fee = .ok .zero := by
  rw [hzero, hbook]
  rfl

/-- A fresh mirror quotes every leg that the pair accepts as the pair answers it. -/
theorem local_quote_agrees (hr : Reflects m p A fee) (hrep : Represents p.book A)
    (hfresh : m.freshness = .fresh ∨ m.freshness = .emptyPool)
    (hclear : ∀ owner, tradeBlacklistGate q p.pairInfo env.contract owner = some false)
    (hfee : fee ≤ 10000) (hside : p.pairInfo.takenSide offerToken = .ok side)
    (hbook : bookInput ≤ offer) (hoffer : offer ≤ u128Max) (hbelief : quoteBelief belief = .ok ())
    (haccepted : ∃ plan, planQuote offer belief
      (.declared (declaredSplit offer bookInput maxFills)) = .ok plan) :
    Meets (quoteHybridLeg wide m env.blockTime offerToken offer bookInput maxFills)
      (fun l => ∃ r, simulateHybridSwapBeforeHooksWithFee p q env offer
          (some (declaredSplit offer bookInput maxFills)) none offerToken fee belief = .ok r ∧
        l.Matches offer r)
      (fun _ => (∃ e, simulateHybridSwapBeforeHooksWithFee p q env offer
          (some (declaredSplit offer bookInput maxFills)) none offerToken fee belief = .error e) ∨
        TooWide m p env.blockTime side offerToken offer bookInput maxFills) := by
  have hsame : simulateHybridSwapBeforeHooksWithFee p q env offer
      (some (declaredSplit offer bookInput maxFills)) none offerToken fee belief =
      answerSplit p q env side (declaredSplit offer bookInput maxFills) fee := by
    unfold simulateHybridSwapBeforeHooksWithFee
    by_cases hzero : offer = 0
    · rw [if_pos hzero, answerSplit_zero hzero (by omega)]
    · obtain ⟨plan, hplan⟩ := haccepted
      have hdeclared : plan = planDeclared (declaredSplit offer bookInput maxFills) := by
        unfold planQuote at hplan
        obtain ⟨_, -, hplan⟩ := bind_eq_ok.1 hplan
        obtain ⟨_, -, hplan⟩ := bind_eq_ok.1 hplan
        cases hplan
        rfl
      have hmode : resolveMode (some (declaredSplit offer bookInput maxFills)) none =
          .ok (.declared (declaredSplit offer bookInput maxFills)) := rfl
      rw [if_neg hzero, hbelief, ok_bind, hmode, ok_bind, hplan, ok_bind, hside, ok_bind, hdeclared]
      rfl
  rw [hsame]
  exact answerSplit_agrees hr hrep hfresh hclear hfee hside hbook hoffer

section Sample

/-- A bid for a million token0 at price one. -/
def loneBid : OrderTerms := ⟨7, ⟨10 ^ 18⟩, 1000000, .bid, none⟩

def loneBidRow : RestingOrderRow := ⟨1, "bid", 1, 1000000, none⟩

theorem loneBidRow_mirrors : loneBidRow.Mirrors loneBid where
  side := rfl
  price := by
    have hscale : (decimalScale : ℚ) ≠ 0 := by exact_mod_cast decimalScale_pos.ne'
    exact (div_self hscale).symm
  remaining := rfl
  expiry := rfl
  priceFits := by decide
  remainingFits := by decide

/-- A pair with the one bid and the mirror of it. -/
def bidPair : PairStorage :=
  { samplePair with reserves := (1000000, 3000000), book := uniformBook loneBid 1 }

def bidMirror (freshness : MirrorFreshness) : BookMirror where
  asset0Addr := 1
  asset1Addr := 2
  reserve0 := 1000000
  reserve1 := 3000000
  feeBps := 30
  freshness := freshness
  reserve0_le := by decide
  reserve1_le := by decide
  bids := [loneBidRow]
  asks := []

theorem bidMirror_reflects (freshness : MirrorFreshness) :
    Reflects (bidMirror freshness) bidPair (uniformAbs loneBid 1) 30 where
  asset0 := rfl
  asset1 := rfl
  reserve0 := rfl
  reserve1 := rfl
  fee := rfl
  bids := by
    refine ⟨[1], [], rfl, ?_, .inl rfl⟩
    exact .cons ⟨loneBid, rfl, loneBidRow_mirrors⟩ .nil
  asks := ⟨[], [], rfl, .nil, .inl rfl⟩

/-- A quote of 700000 token0 that offers 200000 of them to the book. -/
def bidQuote (freshness : MirrorFreshness) : Except DbSimError HybridLegQuote :=
  quoteHybridLeg exactDivision (bidMirror freshness) 10 1 700000 200000 5

def bidAnswer : Except ContractError HybridSimulationResponse :=
  simulateHybridSwapBeforeHooksWithFee bidPair .permissive (sampleEnv 10) 700000
    (some (declaredSplit 700000 200000 5)) none 1 30 none

theorem local_quote_agrees_sample : ∃ l r, bidQuote .fresh = .ok l ∧ bidAnswer = .ok r ∧
    l.Matches 700000 r := by
  have hok : Meets (bidQuote .fresh) (fun _ => True) (fun _ => False) := by decide +kernel
  have hrep : Represents bidPair.book (uniformAbs loneBid 1) := uniform_represents (by decide)
  obtain ⟨l, hl, -⟩ := hok.accepted
  have hagree := @local_quote_agrees exactDivision (bidMirror .fresh) bidPair (uniformAbs loneBid 1)
    .permissive (sampleEnv 10) 30 700000 200000 5 1 .bid none (bidMirror_reflects .fresh) hrep
    (.inl rfl) (fun _ => rfl) (by decide) rfl (by decide) (by decide) rfl ⟨_, rfl⟩
  obtain ⟨r, hr, hmatch⟩ := hagree.success hl
  exact ⟨l, r, hl, hr, hmatch⟩

/-- A mirror that is marked stale is refused, although it holds what the pair holds. -/
theorem stale_mirror_refused :
    Reflects (bidMirror .stale) bidPair (uniformAbs loneBid 1) 30 ∧
    bidQuote .stale = .error .invalidNumeric ∧
    Meets bidAnswer (fun _ => True) (fun _ => False) ∧
    ¬TooWide (bidMirror .stale) bidPair 10 .bid 1 700000 200000 5 := by
  refine ⟨bidMirror_reflects .stale, rfl, by decide +kernel, ?_⟩
  rintro ⟨book, -, hwide⟩
  change u128Max < (700000 - book.offerConsumed) * 3000000 / 1000000 at hwide
  have hle : (700000 - book.offerConsumed) * 3000000 / 1000000 ≤ 700000 * 3000000 / 1000000 :=
    Nat.div_le_div_right (Nat.mul_le_mul_right _ (Nat.sub_le _ _))
  exact absurd (hwide.trans_le hle) (by decide)

end Sample

end Cl8yDex.LocalQuote
