import Cl8yDex.MatchRefines

/-!
# The executing walk and the simulated walk agree

Both loops look at the same orders in the same order: the executing one changes only orders it has
passed, so the rest of the queue still reads as it did at the start. The escrow it takes is part of
what the book holds, which leaves its running sums in range.
-/

namespace Cl8yDex

open Outcome DoublyLinked

/-- The payouts stay within the budget and the escrow taken within what the side holds. -/
def MatchState.Roomy (st : MatchState) (A : AbsBook) (s : LimitOrderSide) : Prop :=
  payoutSum st.makerPayouts + st.tally.left ≤ u128Max ∧ st.escrowSubTotal + A.held s ≤ u128Max

section Step

variable {w : WalkParams} {A A' : AbsBook} {st st' : MatchState} {x : OrderId} {o : LimitOrder}
  {l r : List OrderId} {acts : List Act}

theorem totalOf_received_of_matches {s : LimitOrderSide} (h : ∀ a ∈ acts, a.Matches s) :
    totalOf (Act.receivedOn s) acts = 0 :=
  totalOf_eq_zero fun a ha => by
    cases a with
    | place x t => exact absurd (h _ ha) id
    | _ => rfl

/-- A match takes from its side exactly what its fills release. -/
theorem MatchEffect.held (h : MatchEffect w A acts A' st st') (hwf : A.WellFormed) :
    A'.held w.side + totalOf (Act.releasedOn w.side) acts = A.held w.side := by
  have h1 := h.run.held (s := w.side) hwf
  rwa [totalOf_received_of_matches h.matches_, Nat.add_zero] at h1

theorem MatchEffect.roomy (h : MatchEffect w A acts A' st st') (hwf : A.WellFormed) :
    st'.Roomy A' w.side ↔ st.Roomy A w.side := by
  have h1 := h.held hwf
  have h2 := h.taken
  have h3 := h.paid
  have h4 := h.left
  unfold MatchState.Roomy
  constructor
  · rintro ⟨h5, h6⟩
    exact ⟨by omega, by omega⟩
  · rintro ⟨h5, h6⟩
    exact ⟨by omega, by omega⟩

theorem MatchState.Roomy.room {t : OrderTerms} (h : st.Roomy A w.side) (hwf : A.WellFormed)
    (hrow : A.rows x = some t) (hside : t.side = w.side) : st.Room t.remaining := by
  have hle := AbsBook.remaining_le_held hwf hrow
  rw [hside] at hle
  exact ⟨h.1, (Nat.add_le_add_left hle _).trans h.2⟩

/-- Parking under the cap, or counting what it kept in place, moves no amount. -/
theorem parkUnderCap_spec (h : Represents st.book A) (ho : st.book.orders x = some o)
    (hq : A.queue w.side = l ++ x :: r) (hside : o.side = w.side)
    (reason : ExpiredLimitParkReason) (expiresAt : Option ℕ)
    (hexp : expiresAt = if reason = .expired then o.expiresAt else none)
    (park : Book → Except ContractError (Book × MatchEvent))
    (hpark : park st.book = parkLimitOrderForClean st.book x reason expiresAt) :
    ∃ st' acts A', st.parkUnderCap park = .ok st' ∧ st'.tally = st.tally ∧
      MatchEffect w A acts A' st st' ∧ (∀ y, y ≠ x → A'.rows y = A.rows y) ∧
      ∃ l', A'.queue w.side = l' ++ r := by
  unfold MatchState.parkUnderCap
  by_cases hcap : st.expiredParks < maxExpiredParksPerSwap
  · rw [if_pos hcap]
    obtain ⟨b', A', hb', hstep, hrep, hrows, hqueue⟩ :=
      parkLimitOrderForClean_spec h ho reason expiresAt hexp
    refine ⟨_, [.park x reason expiresAt], A', bind_eq_ok.2 ⟨_, hpark.trans hb', rfl⟩, rfl,
      ⟨.single hstep, hrep, ?_, rfl, rfl, rfl, rfl⟩, hrows, l, ?_⟩
    · rintro a ha
      rw [List.mem_singleton.1 ha]
      trivial
    · rw [← hside, hqueue, h.erase_eq (hside ▸ hq)]
  · rw [if_neg hcap]
    refine ⟨_, [], A, rfl, rfl, ⟨.nil A, h, by simp, rfl, rfl, rfl, rfl⟩, fun _ _ => rfl,
      l ++ [x], ?_⟩
    rw [List.append_assoc]
    exact hq

/-- One visited order: the executing step and the simulated one agree. -/
theorem matchStep_spec (h : Represents st.book A) (ho : st.book.orders x = some o)
    (hq : A.queue w.side = l ++ x :: r) :
    Meets (matchStep w st x o)
      (fun out => simulateStep w st.tally o.toOrderTerms = .ok (out.1.tally, out.2) ∧
        ∃ acts A', MatchEffect w A acts A' st out.1 ∧ (∀ y, y ≠ x → A'.rows y = A.rows y) ∧
          ∃ l', A'.queue w.side = l' ++ r)
      (fun e => simulateStep w st.tally o.toOrderTerms = .error e ∨
        e = .overflow ∧ ¬st.Roomy A w.side) := by
  have hstay : ∃ acts A', MatchEffect w A acts A' st st ∧ (∀ y, y ≠ x → A'.rows y = A.rows y) ∧
      ∃ l', A'.queue w.side = l' ++ r :=
    ⟨[], A, .refl h, fun _ _ => rfl, l ++ [x], by rw [List.append_assoc]; exact hq⟩
  have hvisit := visitOrder_spec o.toOrderTerms w st.tally.left
  unfold matchStep simulateStep
  cases hv : visitOrder w st.tally.left o.toOrderTerms with
  | error e => exact .inl rfl
  | ok v =>
      have hj := hvisit.success hv
      cases v with
      | wrongSide => exact ⟨rfl, hstay⟩
      | exhausted => exact ⟨rfl, hstay⟩
      | skip => exact ⟨rfl, hstay⟩
      | worse => exact ⟨rfl, hstay⟩
      | expired =>
          obtain ⟨st', acts, A', hst, htally, heff⟩ := parkUnderCap_spec h ho hq hj.1
            .expired o.expiresAt (by simp) (fun b => parkExpiredLimitOrderForClaim b x w.now)
            (parkExpiredLimitOrderForClaim_eq ho hj.2)
          simp only [ok_bind, hst]
          exact ⟨by rw [htally]; rfl, acts, A', heff⟩
      | blacklisted =>
          obtain ⟨st', acts, A', hst, htally, heff⟩ := parkUnderCap_spec h ho hq hj
            .blacklisted none (by simp) (fun b => parkLimitOrderForClean b x .blacklisted none) rfl
          simp only [ok_bind, hst]
          exact ⟨by rw [htally]; rfl, acts, A', heff⟩
      | unfillable =>
          obtain ⟨st', acts, A', hst, htally, heff⟩ := parkUnderCap_spec h ho hq hj.1
            .unfillable none (by simp) (fun b => parkLimitOrderForClean b x .unfillable none) rfl
          simp only [ok_bind, hst]
          exact ⟨by rw [htally]; rfl, acts, A', heff⟩
      | fill offer taken =>
          obtain ⟨hside, hleft, hle, hfill⟩ := hj
          rw [← hside] at hq hfill
          simp only [ok_bind]
          refine ((applyFill_spec h ho hq hside hleft hle hfill).mono (fun _ hf => hf) ?_).bind ?_
          · rintro e (he | ⟨he, hroom⟩)
            · exact .inl (by rw [he]; rfl)
            · exact .inr ⟨he, fun hr => hroom (hr.room h.wf (h.row ho) hside)⟩
          · rintro st' ⟨⟨c, hc⟩, heff⟩
            rw [hside] at heff
            refine ⟨?_, heff⟩
            rw [hc, ok_bind]
            simp only [subOrOverflow, checkedSub, if_pos hle]
            rfl

end Step

section Walk

variable {w : WalkParams} {b₀ : Book} {A A₀ : AbsBook} {st : MatchState} {l l₀ r : List OrderId}

/-- From any point of the walk on, the book it has edited and the untouched one give the same
totals, because they agree on the orders still ahead. -/
theorem matchWalk_spec (h₀ : Represents b₀ A₀) (hq₀ : A₀.queue w.side = l₀ ++ r) (n : ℕ)
    (h : Represents st.book A) (hq : A.queue w.side = l ++ r)
    (hrows : ∀ y ∈ r, A.rows y = A₀.rows y) :
    Meets (matchWalk w n r.head? st)
      (fun out => simulateWalk w b₀ n r.head? st.tally = .ok (out.1.tally, out.2) ∧
        ∃ acts A', MatchEffect w A acts A' st out.1)
      (fun e => simulateWalk w b₀ n r.head? st.tally = .error e ∨
        e = .overflow ∧ ¬st.Roomy A w.side) := by
  induction n generalizing A st l l₀ r with
  | zero => exact ⟨rfl, [], A, .refl h⟩
  | succ n ih =>
      unfold matchWalk simulateWalk
      by_cases hcap : st.tally.makersUsed < w.cap
      · rw [if_pos hcap, if_pos hcap]
        cases r with
        | nil => exact ⟨rfl, [], A, .refl h⟩
        | cons x r =>
            -- both books store `x` with the same terms and the same successor
            have hlist := h.listed w.side
            have hlist₀ := h₀.listed w.side
            rw [hq] at hlist
            rw [hq₀] at hlist₀
            obtain ⟨o, ho, -, -, hnext⟩ := hlist.node
            obtain ⟨o₀, ho₀, -, -, hnext₀⟩ := hlist₀.node
            have hterms : o₀.toOrderTerms = o.toOrderTerms := by
              have hx := hrows x (List.mem_cons_self ..)
              rw [h.row ho, h₀.row ho₀] at hx
              exact (Option.some.inj hx).symm
            simp only [List.head?_cons, load_eq ho, load_eq ho₀, ok_bind, hterms]
            rw [hnext, hnext₀]
            refine ((matchStep_spec h ho hq).mono (fun _ hs => hs) ?_).bind ?_
            · rintro e (he | he)
              · exact .inl (by rw [he]; rfl)
              · exact .inr he
            rintro ⟨st', fin⟩ ⟨hsim, acts, A', heff, hrows', l', hq'⟩
            rw [hsim]
            cases fin with
            | some fin => exact ⟨rfl, acts, A', heff⟩
            | none =>
                have hn := hlist.nodup
                have hxr : x ∉ r := (List.nodup_cons.1 (List.nodup_append.1 hn).2.1).1
                have hstep := ih (show _ = (l₀ ++ [x]) ++ r by rw [List.append_assoc]; exact hq₀)
                  heff.rep hq' fun y hy => (hrows' y (ne_of_mem_of_not_mem hy hxr)).trans
                    (hrows y (List.mem_cons_of_mem x hy))
                refine hstep.mono ?_ ?_
                · rintro out ⟨hout, acts', A'', heff'⟩
                  exact ⟨hout, _, A'', heff.trans heff'⟩
                · rintro e (he | ⟨he, hroom⟩)
                  · exact .inl he
                  · exact .inr ⟨he, fun hr => hroom ((heff.roomy h.wf).2 hr)⟩
      · rw [if_neg hcap, if_neg hcap]
        exact ⟨rfl, [], A, .refl h⟩

/-- The walk starts at an order of its own side. -/
theorem resolveMatchStartHint_spec (h : Represents b₀ A₀) (hint : Option OrderId)
    (s : LimitOrderSide) :
    ∃ l r, A₀.queue s = l ++ r ∧ resolveMatchStartHint b₀ hint s = r.head? := by
  have hhead : ∃ l r, A₀.queue s = l ++ r ∧ b₀.head s = r.head? := ⟨[], _, rfl, h.head s⟩
  unfold resolveMatchStartHint
  cases hint with
  | none => exact hhead
  | some x =>
      simp only
      cases hx : b₀.orderOnSide s x with
      | none => exact hhead
      | some o =>
          obtain ⟨ho, hs⟩ := orderOnSide_eq_some.1 hx
          obtain ⟨l, r, hq⟩ := List.append_of_mem (hs ▸ h.wf.mem_of_row (h.row ho))
          exact ⟨l, x :: r, hq, rfl⟩

end Walk

section Side

variable {w : WalkParams} {b : Book} {A : AbsBook}

/-- The part of the executed result that the quote predicts. -/
def BookMatchResult.quoted (res : BookMatchResult) : BookSimulateResult where
  returnNet := res.returnNet
  offerConsumed := res.offerConsumed
  makersUsed := res.makersUsed
  scanStepsCapped := res.scanStepsCapped
  greedyStop := res.greedyStop
  commissionTotal := res.commissionTotal

/-- What a whole match did to the book, in acts and in totals. -/
structure Matched (w : WalkParams) (A : AbsBook) (budget : ℕ) (acts : List Act) (A' : AbsBook)
    (b' : Book) (res : BookMatchResult) : Prop where
  run : Run A acts A'
  rep : Represents b' A'
  draining : ∀ a ∈ acts, a.Matches w.side ∨ ∃ n, a = .escrowSub w.side n
  settled : Settled acts
  consumed_le : res.offerConsumed ≤ budget
  payouts : payoutSum res.makerPayouts = res.offerConsumed
  split : res.returnNet + res.commissionTotal = totalOf (Act.releasedOn w.side) acts

theorem totals_of_matches {s : LimitOrderSide} {acts : List Act} (h : ∀ a ∈ acts, a.Matches s)
    (s' : LimitOrderSide) : totalOf (Act.booked s') acts = 0 ∧
      totalOf (Act.unbooked s') acts = 0 ∧ totalOf (Act.receivedOn s') acts = 0 ∧
      (s' ≠ s → totalOf (Act.releasedOn s') acts = 0) := by
  have hnone : ∀ a ∈ acts, Act.booked s' a = 0 ∧ Act.unbooked s' a = 0 ∧
      Act.receivedOn s' a = 0 ∧ (s' ≠ s → Act.releasedOn s' a = 0) := by
    intro a ha
    have hm := h a ha
    cases a with
    | fill s'' y paid n =>
        obtain rfl : s'' = s := hm
        exact ⟨rfl, rfl, rfl, fun hs => if_neg (Ne.symm hs)⟩
    | drop y => exact ⟨rfl, rfl, rfl, fun _ => rfl⟩
    | park y reason expiresAt => exact ⟨rfl, rfl, rfl, fun _ => rfl⟩
    | _ => exact absurd hm id
  exact ⟨totalOf_eq_zero fun a ha => (hnone a ha).1, totalOf_eq_zero fun a ha => (hnone a ha).2.1,
    totalOf_eq_zero fun a ha => (hnone a ha).2.2.1,
    fun hs => totalOf_eq_zero fun a ha => (hnone a ha).2.2.2 hs⟩

/-- Taking the walk's total from an exact counter succeeds and settles the walk. -/
theorem escrowSubPending_spec {A' : AbsBook} {b' : Book} {acts : List Act}
    (hwf : A.WellFormed) (hrun : Run A acts A') (hrep : Represents b' A')
    (hm : ∀ a ∈ acts, a.Matches w.side) (hbal : A.escrow w.side = A.held w.side) :
    ∃ b'' acts' A'', b'.escrowSubPending w.side (totalOf (Act.releasedOn w.side) acts) .matchWalk =
        .ok b'' ∧ Run A acts' A'' ∧ Represents b'' A'' ∧
      (∀ a ∈ acts', a.Matches w.side ∨ ∃ n, a = .escrowSub w.side n) ∧ Settled acts' ∧
      totalOf (Act.releasedOn w.side) acts' = totalOf (Act.releasedOn w.side) acts := by
  set total := totalOf (Act.releasedOn w.side) acts with htotal
  have hle : total ≤ A'.escrow w.side := by
    have h1 := hrun.held (s := w.side) hwf
    have h2 := hrun.escrow (s := w.side)
    obtain ⟨h3, h4, h5, -⟩ := totals_of_matches hm w.side
    omega
  unfold Book.escrowSubPending
  by_cases hzero : total = 0
  · rw [if_pos hzero]
    refine ⟨b', acts, A', rfl, hrun, hrep, fun a ha => .inl (hm a ha), fun s => ?_, htotal.symm⟩
    obtain ⟨h3, h4, h5, h6⟩ := totals_of_matches hm s
    by_cases hs : s = w.side
    · subst hs
      omega
    · have h7 := h6 hs
      omega
  · rw [if_neg hzero]
    refine ⟨_, acts ++ [.escrowSub w.side total], _, ?_,
      hrun.append (.single (.escrowSub A' w.side total hle)), hrep.saveEscrow _, ?_, ?_, ?_⟩
    · simp only [Book.escrowSub, checkedSub, hrep.escrow, if_pos hle, orThrow, ok_bind]
      rfl
    · intro a ha
      rcases List.mem_append.1 ha with ha | ha
      · exact .inl (hm a ha)
      · exact .inr ⟨total, List.mem_singleton.1 ha⟩
    · intro s
      obtain ⟨h3, h4, h5, h6⟩ := totals_of_matches hm s
      simp only [totalOf_append, totalOf_cons, totalOf_nil, Act.booked, Act.unbooked,
        Act.releasedOn, Act.receivedOn]
      by_cases hs : s = w.side
      · subst hs
        rw [if_pos rfl]
        omega
      · have h7 := h6 hs
        rw [if_neg (Ne.symm hs)]
        omega
    · simp [Act.releasedOn, htotal]

/-- A whole match is predicted by its simulation, settles the escrow counter of its side and fails
only as the simulation does. -/
theorem matchSide_spec (h : Represents b A) (hbal : A.escrow w.side = A.held w.side) (budget : ℕ)
    (hint : Option OrderId) :
    Meets (matchSide w b budget hint)
      (fun out => simulateSide w b budget hint = .ok out.2.quoted ∧
        ∃ acts A', Matched w A budget acts A' out.1 out.2)
      (fun e => simulateSide w b budget hint = .error e ∨
        e = .overflow ∧ ¬(budget ≤ u128Max ∧ A.held w.side ≤ u128Max)) := by
  obtain ⟨l, r, hq, hstart⟩ := resolveMatchStartHint_spec h hint w.side
  set st₀ : MatchState := ⟨b, ⟨budget, 0, 0, 0⟩, 0, 0, 0, [], []⟩ with hst₀
  have hwalk := matchWalk_spec h hq maxScanSteps (show Represents st₀.book A from h) hq
    fun _ _ => rfl
  unfold matchSide simulateSide
  rw [hstart]
  refine (hwalk.mono (fun _ hs => hs) ?_).bind ?_
  · rintro e (he | ⟨he, hroom⟩)
    · exact .inl (by rw [he]; rfl)
    · refine .inr ⟨he, fun hb => hroom ?_⟩
      simpa [MatchState.Roomy, hst₀, payoutSum] using hb
  rintro ⟨st, fin⟩ ⟨hsim, acts, A', heff⟩
  change simulateWalk w b maxScanSteps r.head? ⟨budget, 0, 0, 0⟩ = .ok (st.tally, fin) at hsim
  have htaken : st.escrowSubTotal = totalOf (Act.releasedOn w.side) acts := by
    rw [heff.taken, hst₀, Nat.zero_add]
  obtain ⟨b'', acts', A'', hb'', hrun, hrep, hdrain, hsettled, hrel⟩ :=
    escrowSubPending_spec h.wf heff.run heff.rep heff.matches_ hbal
  have hleft : st.tally.left + totalOf Act.paid acts = budget := heff.left
  have hle : st.tally.left ≤ budget := by omega
  simp only [htaken, hb'', hsim, ok_bind, subOrOverflow, checkedSub, if_pos hle, orThrow]
  refine ⟨rfl, acts', A'', hrun, hrep, hdrain, hsettled, Nat.sub_le _ _, ?_, ?_⟩
  · have hpaid : payoutSum st.makerPayouts = totalOf Act.paid acts := by
      simpa [hst₀, payoutSum] using heff.paid
    change payoutSum st.makerPayouts = budget - st.tally.left
    omega
  · have hout : st.tally.outTotal + st.tally.commissionTotal =
        totalOf (Act.releasedOn w.side) acts := by
      simpa [hst₀] using heff.out
    rw [hrel]
    exact hout

end Side

end Cl8yDex
