import Cl8yDex.MatchTrace
import Cl8yDex.SwapLegsSpec
import Cl8yDex.UniformBook

/-!
# What a reported scan cap means

The step counter is tested before the end of the list and before the budget. A walk that passes
exactly `maxScanSteps` orders is therefore reported as cut short even when no order follows or
nothing is left to spend. On every other book the report is right.
-/

namespace Cl8yDex

open Outcome DoublyLinked

section Reports

variable {w : WalkParams} {b : Book} {A : AbsBook} {side : LimitOrderSide} {budget : ℕ}
  {hint : Option OrderId} {orders : List OrderId}

/-- A walk over `orders` reports its scan cap, by the flag or as the greedy stop reason, only when
an order was left unvisited, a part of the budget unspent and a maker slot free. -/
def CapMeansCut (orders : List OrderId) (budget cap : ℕ)
    (result : Except ContractError BookSimulateResult) : Prop :=
  ∀ res, result = .ok res → res.scanStepsCapped = true ∨ res.greedyStop = some .scanCap →
    maxScanSteps < orders.length ∧ res.offerConsumed < budget ∧ res.makersUsed < cap

/-- The first `maxScanSteps` orders are all set aside or filled, with a maker slot to spare, and
they are the last ones or their fills take the whole budget. -/
def SpentAtCap (w : WalkParams) (rows : OrderId → Option OrderTerms) (orders : List OrderId)
    (budget : ℕ) : Prop :=
  ∃ seen rest tally, orders = seen.map Seen.id ++ rest ∧ seen.length = maxScanSteps ∧
    Passed w rows ⟨budget, 0, 0, 0⟩ seen tally ∧ totalOf Seen.makers seen < w.cap ∧
    (rest = [] ∨ totalOf Seen.offer seen = budget)

theorem greedyStop_scanCap {greedy worse capped : Bool} {makersUsed cap left : ℕ}
    (h : greedyStopAfterWalk greedy worse capped makersUsed cap left = some .scanCap) :
    capped = true := by
  unfold greedyStopAfterWalk at h
  split_ifs at h <;> first | assumption | cases h

theorem Ends.of_capped {rows : OrderId → Option OrderTerms} {n : ℕ} {s : List OrderId}
    {tally : Tally} {fin : WalkEnd} (h : Ends w rows n s tally fin)
    (hcap : fin.scanStepsCapped = true) : n = 0 ∧ tally.makersUsed < w.cap := by
  cases h with
  | scanned hroom => exact ⟨rfl, hroom⟩
  | full => cases hcap
  | listEnd => cases hcap
  | exhausted => cases hcap
  | worse => cases hcap

/-- A capped walk has passed exactly the first `maxScanSteps` orders. -/
theorem capped_walk (h : Represents b A) {res : BookSimulateResult}
    (hres : simulateSide w b budget hint = .ok res) (hcap : res.scanStepsCapped = true) :
    ∃ seen rest tally, A.startingAt w.side hint = seen.map Seen.id ++ rest ∧
      seen.length = maxScanSteps ∧ Passed w A.rows ⟨budget, 0, 0, 0⟩ seen tally ∧
      totalOf Seen.makers seen < w.cap ∧ res.offerConsumed = totalOf Seen.offer seen ∧
      totalOf Seen.offer seen ≤ budget ∧ res.makersUsed = totalOf Seen.makers seen := by
  obtain ⟨l, hq⟩ := A.startingAt_suffix (s := w.side) hint
  unfold simulateSide at hres
  rw [h.start] at hres
  obtain ⟨⟨tally, fin⟩, hwalk, hres⟩ := bind_eq_ok.1 hres
  obtain ⟨consumed, hconsumed, hres⟩ := bind_eq_ok.1 hres
  cases hres
  obtain ⟨seen, rest, m, hsplit, hlen, hp, hend⟩ := simulateWalk_passed h hq hwalk
  obtain ⟨rfl, hroom⟩ := hend.of_capped hcap
  obtain ⟨-, rfl⟩ := subOrOverflow_eq_ok.1 hconsumed
  obtain ⟨hleft, -, -, hmakers⟩ := hp.totals
  simp only at hleft hmakers
  refine ⟨seen, rest, tally, hsplit, hlen.symm, hp, ?_, ?_, ?_, ?_⟩
  · omega
  · change budget - tally.left = _
    omega
  · omega
  · change tally.makersUsed = _
    omega

/-- Where the orders run out or the budget is spent at the cap, the report is wrong. -/
theorem SpentAtCap.reported (h : Represents b A)
    (hspent : SpentAtCap w A.rows (A.startingAt w.side hint) budget) :
    ∃ res, simulateSide w b budget hint = .ok res ∧ res.scanStepsCapped = true ∧
      ¬((maxScanSteps < (A.startingAt w.side hint).length) ∧ res.offerConsumed < budget) := by
  obtain ⟨seen, rest, tally, hsplit, hlen, hp, hroom, hlast⟩ := hspent
  obtain ⟨l, hq⟩ := A.startingAt_suffix (s := w.side) hint
  obtain ⟨hleft, -, -, hmakers⟩ := hp.totals
  simp only at hleft hmakers
  have hwalk := simulateWalk_of_passed h 0 hp (hsplit ▸ hq)
  have hcapped : tally.makersUsed < w.cap := by omega
  rw [Nat.add_zero, hlen, ← hsplit, simulateWalk, if_pos hcapped] at hwalk
  have hle : tally.left ≤ budget := by omega
  refine ⟨⟨tally.outTotal, budget - tally.left, tally.makersUsed, true,
    greedyStopAfterWalk w.greedyPool.isSome false true tally.makersUsed w.cap tally.left,
    tally.commissionTotal⟩, ?_, rfl, ?_⟩
  · unfold simulateSide
    rw [h.start, hwalk, ok_bind]
    simp only [subOrOverflow, checkedSub, if_pos hle, orThrow_some, ok_bind]
    rfl
  · rintro ⟨hlong, hshort⟩
    change budget - tally.left < budget at hshort
    rcases hlast with rfl | hall
    · rw [hsplit, List.append_nil, List.length_map, hlen] at hlong
      exact lt_irrefl _ hlong
    · omega

theorem simulated_cap_iff (h : Represents b A) :
    CapMeansCut (A.startingAt w.side hint) budget w.cap (simulateSide w b budget hint) ↔
      ¬SpentAtCap w A.rows (A.startingAt w.side hint) budget := by
  constructor
  · intro hmeans hspent
    obtain ⟨res, hres, hcap, hnot⟩ := hspent.reported h
    obtain ⟨h1, h2, -⟩ := hmeans res hres (.inl hcap)
    exact hnot ⟨h1, h2⟩
  · intro hnot res hres hflag
    have hcap : res.scanStepsCapped = true := by
      rcases hflag with hcap | hstop
      · exact hcap
      · unfold simulateSide at hres
        obtain ⟨⟨tally, fin⟩, -, hres⟩ := bind_eq_ok.1 hres
        obtain ⟨consumed, -, hres⟩ := bind_eq_ok.1 hres
        cases hres
        exact greedyStop_scanCap hstop
    obtain ⟨seen, rest, tally, hsplit, hlen, hp, hroom, hoffer, hle, hmakers⟩ :=
      capped_walk h hres hcap
    have hrest : rest ≠ [] := fun hnil =>
      hnot ⟨seen, rest, tally, hsplit, hlen, hp, hroom, .inl hnil⟩
    have hall : totalOf Seen.offer seen ≠ budget := fun hall =>
      hnot ⟨seen, rest, tally, hsplit, hlen, hp, hroom, .inr hall⟩
    have hpos := List.length_pos_iff.2 hrest
    refine ⟨?_, by omega, by omega⟩
    rw [hsplit, List.length_append, List.length_map, hlen]
    omega

/-- The executing walk reports the cap when the read-only one does. -/
theorem matched_cap_iff (h : Represents b A) (hbal : A.escrow w.side = A.held w.side)
    (hbudget : budget ≤ u128Max) (hheld : A.held w.side ≤ u128Max) :
    CapMeansCut orders budget w.cap ((matchSide w b budget hint).map fun out => out.2.quoted) ↔
      CapMeansCut orders budget w.cap (simulateSide w b budget hint) := by
  have hm := matchSide_spec (w := w) h hbal budget hint
  cases hout : matchSide w b budget hint with
  | ok out =>
      rw [(hm.success hout).1]
      rfl
  | error e =>
      rcases hm.failure hout with he | ⟨-, hno⟩
      · rw [he]
        constructor
        · intro _ res hres
          cases hres
        · intro _ res hres
          cases hres
      · exact absurd ⟨hbudget, hheld⟩ hno

/-- The reported scan cap is right exactly when the orders do not run out, and the budget is not
used up, at the cap. -/
theorem scan_cap_means_cut_iff (h : Represents b A) (hbal : A.escrow side = A.held side)
    (hbudget : budget ≤ u128Max) (hheld : A.held side ≤ u128Max) (now maxMakerFills bps : ℕ)
    (gate : Option TradeBlacklistGate) (pool : Option GreedyPoolRef) :
    (CapMeansCut (A.startingAt side hint) budget (min maxMakerFills maxMakerFillsHardCap)
        (simulateMatchBook side b now budget maxMakerFills hint bps gate pool) ↔
      ¬SpentAtCap (walkParams side now maxMakerFills bps gate pool) A.rows
        (A.startingAt side hint) budget) ∧
    (CapMeansCut (A.startingAt side hint) budget (min maxMakerFills maxMakerFillsHardCap)
        ((matchBook side b now budget maxMakerFills hint bps gate pool).map
          fun out => out.2.quoted) ↔
      ¬SpentAtCap (walkParams side now maxMakerFills bps gate pool) A.rows
        (A.startingAt side hint) budget) := by
  rw [simulateMatchBook_eq, matchBook_eq]
  let w := walkParams side now maxMakerFills bps gate pool
  have hsim : CapMeansCut (A.startingAt w.side hint) budget w.cap (simulateSide w b budget hint) ↔
      ¬SpentAtCap w A.rows (A.startingAt w.side hint) budget := simulated_cap_iff h
  constructor
  · exact hsim
  · exact (matched_cap_iff h hbal hbudget hheld).trans hsim

end Reports

/-- A walk passes any number of orders of the same terms that are set aside. -/
theorem Passed.of_uniform {w : WalkParams} {rows : OrderId → Option OrderTerms} {t : OrderTerms}
    {v : Visit} {tally : Tally} (hroom : tally.makersUsed < w.cap)
    (hvisit : visitOrder w tally.left t = .ok v) (haside : v.SetsAside) (l : List OrderId)
    (hl : ∀ x ∈ l, rows x = some t) :
    Passed w rows tally (l.map fun x => ⟨x, t, tally.left, v⟩) tally := by
  induction l with
  | nil => exact .nil tally
  | cons x l ih =>
      exact .aside hroom (hl x (List.mem_cons_self ..)) hvisit haside
        (ih fun y hy => hl y (List.mem_cons_of_mem x hy))

/-- A bid that has expired by block time 10. -/
def staleBid : OrderTerms := ⟨7, ⟨10 ^ 18⟩, 1000, .bid, some 5⟩

theorem staleBids_represented : Represents (uniformBook staleBid maxScanSteps)
    (uniformAbs staleBid maxScanSteps) := uniform_represents (by decide)

theorem staleBids_spent : SpentAtCap (walkParams .bid 10 5 30 none none)
    (uniformAbs staleBid maxScanSteps).rows
    ((uniformAbs staleBid maxScanSteps).startingAt .bid none) 700 := by
  have hq : (uniformAbs staleBid maxScanSteps).startingAt .bid none = List.range' 1 maxScanSteps :=
    uniform_queue_self (t := staleBid)
  have hrows : ∀ x ∈ List.range' 1 maxScanSteps,
      (uniformAbs staleBid maxScanSteps).rows x = some staleBid := by
    intro x hx
    rw [← uniform_queue_self (t := staleBid)] at hx
    exact uniform_row.2 ⟨(mem_uniform_queue.1 hx).2, rfl⟩
  have hroom : (⟨700, 0, 0, 0⟩ : Tally).makersUsed < (walkParams .bid 10 5 30 none none).cap := by
    decide
  have hvisit : visitOrder (walkParams .bid 10 5 30 none none) 700 staleBid = .ok .expired := rfl
  have hp := Passed.of_uniform hroom hvisit trivial (List.range' 1 maxScanSteps) hrows
  refine ⟨_, [], _, ?_, ?_, hp, ?_, .inl rfl⟩
  · rw [hq, List.map_map, List.append_nil]
    exact (List.map_id _).symm
  · rw [List.length_map, List.length_range']
  · obtain ⟨-, -, -, hmakers⟩ := hp.totals
    simp only at hmakers
    rw [Nat.zero_add] at hmakers
    rw [← hmakers]
    decide

/-- Five hundred expired bids and nothing behind them: the walk reaches the end of the list with
its whole budget left and is reported as capped, quoted and executed. -/
theorem scan_cap_reported_at_list_end :
    ¬CapMeansCut ((uniformAbs staleBid maxScanSteps).startingAt .bid none) 700
        (min 5 maxMakerFillsHardCap)
        (simulateMatchBids (uniformBook staleBid maxScanSteps) 10 700 5 none 30 none none) ∧
      ¬CapMeansCut ((uniformAbs staleBid maxScanSteps).startingAt .bid none) 700
        (min 5 maxMakerFillsHardCap)
        ((matchBids (uniformBook staleBid maxScanSteps) 10 700 5 none 30 none none).map
          fun out => out.2.quoted) := by
  have hheld : (uniformAbs staleBid maxScanSteps).held .bid ≤ u128Max :=
    uniform_balanced (t := staleBid) .bid ▸ by decide
  let w := walkParams .bid 10 5 30 none none
  let A := uniformAbs staleBid maxScanSteps
  have hsim : ¬CapMeansCut (A.startingAt .bid none) 700 w.cap
      (simulateSide w (uniformBook staleBid maxScanSteps) 700 none) := fun h =>
    (simulated_cap_iff staleBids_represented).1 h staleBids_spent
  have hbal : A.escrow w.side = A.held w.side := uniform_balanced .bid
  constructor
  · exact hsim
  · exact fun h => hsim ((matched_cap_iff staleBids_represented hbal (by decide) hheld).1 h)

theorem scan_cap_means_cut_iff_sample :
    (CapMeansCut ((uniformAbs staleBid maxScanSteps).startingAt .bid none) 700
        (min 5 maxMakerFillsHardCap)
        (simulateMatchBook .bid (uniformBook staleBid maxScanSteps) 10 700 5 none 30 none none) ↔
      ¬SpentAtCap (walkParams .bid 10 5 30 none none) (uniformAbs staleBid maxScanSteps).rows
        ((uniformAbs staleBid maxScanSteps).startingAt .bid none) 700) ∧
    (CapMeansCut ((uniformAbs staleBid maxScanSteps).startingAt .bid none) 700
        (min 5 maxMakerFillsHardCap)
        ((matchBook .bid (uniformBook staleBid maxScanSteps) 10 700 5 none 30 none none).map
          fun out => out.2.quoted) ↔
      ¬SpentAtCap (walkParams .bid 10 5 30 none none) (uniformAbs staleBid maxScanSteps).rows
        ((uniformAbs staleBid maxScanSteps).startingAt .bid none) 700) :=
  scan_cap_means_cut_iff staleBids_represented (uniform_balanced .bid) (by decide)
    (uniform_balanced (t := staleBid) .bid ▸ by decide) 10 5 30 none none

end Cl8yDex
