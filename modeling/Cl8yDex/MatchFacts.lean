import Cl8yDex.Matching
import Cl8yDex.BookRefines

/-!
# What one verdict of the match walk can be

A fill is at the maker's own price, fits both the taker's budget and the maker's remainder, and
splits the ask-side amount exactly into the taker's net and the commission.
-/

namespace Cl8yDex

open Outcome

variable {price : Decimal} {order : OrderTerms} {w : WalkParams} {left offer taken : ℕ}

theorem adjustFill_spec {limit fill cost fill' cost' : ℕ}
    (hcost : Decimal.checkedMulFloor fill price = some cost)
    (h : adjustFill price limit fill cost = some (fill', cost')) (hfill : fill' ≠ 0) :
    fill' ≤ fill ∧ cost' ≤ limit ∧ Decimal.checkedMulFloor fill' price = some cost' := by
  induction fill generalizing cost with
  | zero =>
      cases h
      exact absurd rfl hfill
  | succ fill ih =>
      unfold adjustFill at h
      split_ifs at h with hlt hzero
      · cases h
        exact absurd rfl hfill
      · obtain ⟨adjusted, hadj, hrec⟩ := Option.bind_eq_some_iff.1 h
        obtain ⟨h1, h2, h3⟩ := ih hadj hrec
        exact ⟨h1.trans (Nat.le_succ fill), h2, h3⟩
      · cases h
        exact ⟨le_rfl, not_lt.1 hlt, hcost⟩

theorem pricedFill_spec {limit maxFill fill cost : ℕ}
    (h : pricedFill price limit maxFill = some (fill, cost)) :
    0 < fill ∧ 0 < cost ∧ fill ≤ maxFill ∧ cost ≤ limit ∧
      cost = fill * price.atomics / Decimal.fractional := by
  unfold pricedFill at h
  split_ifs at h with hmax
  obtain ⟨c, hc, h⟩ := Option.bind_eq_some_iff.1 h
  obtain ⟨⟨f, c'⟩, hadj, h⟩ := Option.bind_eq_some_iff.1 h
  change (if f = 0 ∨ c' = 0 then none else some (f, c')) = some (fill, cost) at h
  split_ifs at h with hzero
  cases h
  obtain ⟨hf, hc0⟩ := not_or.1 hzero
  obtain ⟨h1, h2, h3⟩ := adjustFill_spec hc hadj hf
  exact ⟨Nat.pos_of_ne_zero hf, Nat.pos_of_ne_zero hc0, h1, h2,
    (Decimal.checkedMulFloor_eq_some.1 h3).2⟩

theorem bidFill_spec (h : bidFill left order = .ok (some (offer, taken))) :
    offer ≤ left ∧ taken ≤ order.remaining ∧ FillsAt .bid order.price offer taken := by
  obtain ⟨_, _, h⟩ := bind_eq_ok.1 h
  obtain ⟨cap, _, hfill⟩ := Option.bind_eq_some_iff.1 (Except.ok.inj h)
  obtain ⟨h1, h2, h3, h4, h5⟩ := pricedFill_spec hfill
  exact ⟨h3.trans (min_le_left _ _), h4, h1, h2, h5⟩

theorem askFill_spec (h : askFill left order = .ok (some (offer, taken))) :
    offer ≤ left ∧ taken ≤ order.remaining ∧ FillsAt .ask order.price offer taken := by
  have h := Except.ok.inj h
  split_ifs at h
  obtain ⟨cap, _, h⟩ := Option.bind_eq_some_iff.1 h
  obtain ⟨⟨fillT0, cost⟩, hfill, h⟩ := Option.bind_eq_some_iff.1 h
  cases h
  obtain ⟨h1, h2, h3, h4, h5⟩ := pricedFill_spec hfill
  exact ⟨h4, h3.trans (min_le_left _ _), h2, h1, h5⟩

theorem planFill_spec {s : LimitOrderSide} (h : planFill s left order = .ok (some (offer, taken))) :
    offer ≤ left ∧ taken ≤ order.remaining ∧ FillsAt s order.price offer taken := by
  cases s with
  | bid => exact bidFill_spec h
  | ask => exact askFill_spec h

/-- What a verdict means for the order it is about. -/
def Visit.Justified (w : WalkParams) (left : ℕ) (order : OrderTerms) : Visit → Prop
  | wrongSide => order.side ≠ w.side
  | expired => order.side = w.side ∧ isTimeExpired order.expiresAt w.now
  | blacklisted => order.side = w.side
  | unfillable => order.side = w.side ∧
      isLimitOrderFillable order.side order.remaining order.price = false
  | exhausted => left = 0
  | skip | worse => True
  | fill offer taken => order.side = w.side ∧ offer ≤ left ∧ taken ≤ order.remaining ∧
      FillsAt w.side order.price offer taken

theorem gate_spec (gate : Option TradeBlacklistGate) (owner : Addr) :
    Meets (makerOwnerIsTradeBlacklisted gate owner) (fun _ => True)
      (fun e => e = .blacklistGuardUnavailable) := by
  unfold makerOwnerIsTradeBlacklisted
  cases gate with
  | none => exact trivial
  | some gate =>
      have hprobe := meets_orThrow (x := gate owner) (E := fun e => e = .blacklistGuardUnavailable)
        (e := ContractError.blacklistGuardUnavailable) fun _ => rfl
      exact hprobe.weaken fun _ _ => trivial

theorem planFill_meets (s : LimitOrderSide) :
    Meets (planFill s left order) (fun plan => ∀ offer taken, plan = some (offer, taken) →
      offer ≤ left ∧ taken ≤ order.remaining ∧ FillsAt s order.price offer taken)
      (fun e => e = .invariantViolation .zeroBidPrice) := by
  cases hplan : planFill s left order with
  | ok plan =>
      rintro offer taken rfl
      exact planFill_spec hplan
  | error e =>
      cases s with
      | ask => cases hplan
      | bid =>
          rcases bind_eq_error.1 hplan with h | ⟨_, _, h⟩
          · exact (ensure_eq_error.1 h).2.symm
          · cases h

theorem admitFill_justified (hside : order.side = w.side) (hfill : offer ≤ left ∧
    taken ≤ order.remaining ∧ FillsAt w.side order.price offer taken) :
    (w.admitFill order.price offer taken).Justified w left order := by
  unfold WalkParams.admitFill
  cases hpool : w.greedyPool with
  | none => exact ⟨hside, hfill⟩
  | some pool =>
      simp only
      cases hbeats : beatsResidualPool w.side order.price w.takerBps pool with
      | yes => exact ⟨hside, hfill⟩
      | no => exact trivial
      | skip => exact trivial

variable (w left order) in
theorem visitOrder_spec :
    Meets (visitOrder w left order) (Visit.Justified w left order)
      (fun e => e = .blacklistGuardUnavailable ∨ e = .invariantViolation .zeroBidPrice) := by
  unfold visitOrder
  by_cases hside : order.side = w.side
  · rw [if_neg (not_not.2 hside)]
    by_cases hexp : isTimeExpired order.expiresAt w.now = true
    · rw [if_pos hexp]
      exact ⟨hside, hexp⟩
    · rw [if_neg hexp]
      refine ((gate_spec w.gate order.owner).mono (fun _ h => h) fun _ he => .inl he).bind
        fun black _ => ?_
      by_cases hblack : black = true
      · rw [if_pos hblack]
        exact hside
      · rw [if_neg hblack]
        by_cases hfillable : isLimitOrderFillable order.side order.remaining order.price = true
        · rw [if_neg (not_not.2 hfillable)]
          by_cases hleft : left = 0
          · rw [if_pos hleft]
            exact hleft
          · rw [if_neg hleft]
            refine ((planFill_meets w.side).mono (fun _ h => h) fun _ he => .inr he).bind
              fun plan hplan => ?_
            cases plan with
            | none => exact trivial
            | some fill => exact admitFill_justified hside (hplan _ _ rfl)
        · rw [if_pos hfillable]
          exact ⟨hside, by simpa using hfillable⟩
  · rw [if_pos hside]
    exact hside

/-- The totals after a fill; the ask-side amount is split without remainder. -/
theorem Tally.addFill_eq_ok {tally tally' : Tally} {bps commission : ℕ}
    (h : tally.addFill bps offer taken = .ok (tally', commission)) :
    commission = taken * bps / 10000 ∧ commission ≤ taken ∧ offer ≤ tally.left ∧
      tally' = ⟨tally.left - offer, tally.outTotal + (taken - commission),
        tally.commissionTotal + commission, tally.makersUsed + 1⟩ := by
  unfold Tally.addFill at h
  obtain ⟨scaled, h1, h⟩ := bind_eq_ok.1 h
  obtain ⟨comm, h2, h⟩ := bind_eq_ok.1 h
  obtain ⟨net, h3, h⟩ := bind_eq_ok.1 h
  obtain ⟨ct, h4, h⟩ := bind_eq_ok.1 h
  obtain ⟨left', h5, h⟩ := bind_eq_ok.1 h
  obtain ⟨out, h6, h⟩ := bind_eq_ok.1 h
  simp only [mulOrOverflow_eq_ok, divOrZero_eq_ok, subOrOverflow_eq_ok, addOrOverflow_eq_ok]
    at h1 h2 h3 h4 h5 h6
  obtain ⟨-, rfl⟩ := h1
  obtain ⟨-, rfl⟩ := h2
  obtain ⟨hle, rfl⟩ := h3
  obtain ⟨-, rfl⟩ := h4
  obtain ⟨hoff, rfl⟩ := h5
  obtain ⟨-, rfl⟩ := h6
  cases h
  exact ⟨rfl, hle, hoff, rfl⟩

/-- Adding a fill can only overflow. -/
theorem Tally.addFill_error {tally : Tally} {bps : ℕ} {e : ContractError}
    (h : tally.addFill bps offer taken = .error e) : e = .overflow ∨ e = .divideByZero := by
  unfold Tally.addFill mulOrOverflow divOrZero subOrOverflow addOrOverflow at h
  simp only [bind_eq_error, orThrow_eq_error] at h
  rcases h with ⟨_, rfl⟩ | ⟨_, _, ⟨_, rfl⟩ | ⟨_, _, ⟨_, rfl⟩ | ⟨_, _, ⟨_, rfl⟩ |
    ⟨_, _, ⟨_, rfl⟩ | ⟨_, _, ⟨_, rfl⟩ | ⟨_, _, h⟩⟩⟩⟩⟩⟩
  all_goals first | exact .inl rfl | exact .inr rfl | cases h

theorem simulateStep_meets {tally : Tally} :
    Meets (simulateStep w tally order) (fun _ => True) (fun e => ¬e.Underflow) := by
  unfold simulateStep
  refine ((visitOrder_spec _ _ _).mono (fun _ h => h) ?_).bind fun v _ => ?_
  · rintro e (rfl | rfl) ⟨_, _, ⟨⟩⟩
  have hadd : ∀ offer taken, Meets (tally.addFill w.takerBps offer taken) (fun _ => True)
      (fun e => ¬e.Underflow) := by
    intro offer taken
    cases hadd : tally.addFill w.takerBps offer taken with
    | ok out => exact trivial
    | error e =>
        rintro ⟨_, _, rfl⟩
        rcases Tally.addFill_error hadd with h | h <;> cases h
  cases v with
  | fill offer taken =>
      refine (hadd offer taken).bind fun out _ => ?_
      refine ((meets_sub order.remaining taken).mono (fun _ _ => trivial) ?_).bind
        fun (_ : ℕ) (_ : True) => trivial
      rintro e ⟨rfl, -⟩ ⟨_, _, ⟨⟩⟩
  | _ => exact trivial

/-- A read-only walk never runs into the escrow counters. -/
theorem simulateWalk_meets (b : Book) (n : ℕ) (cur : Option OrderId) (tally : Tally) :
    Meets (simulateWalk w b n cur tally) (fun _ => True) (fun e => ¬e.Underflow) := by
  induction n generalizing cur tally with
  | zero => exact trivial
  | succ n ih =>
      unfold simulateWalk
      by_cases hcap : tally.makersUsed < w.cap
      · rw [if_pos hcap]
        cases cur with
        | none => exact trivial
        | some oid =>
            have hload : Meets (b.load oid) (fun _ => True) (fun e => ¬e.Underflow) := by
              refine (meets_orThrow fun _ => ?_).weaken fun _ _ => trivial
              rintro ⟨_, _, ⟨⟩⟩
            refine hload.bind fun o _ => simulateStep_meets.bind fun out _ => ?_
            obtain ⟨tally', fin⟩ := out
            cases fin with
            | some fin => exact trivial
            | none => exact ih o.next tally'
      · rw [if_neg hcap]
        exact trivial

end Cl8yDex
