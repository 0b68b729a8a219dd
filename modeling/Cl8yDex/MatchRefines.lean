import Cl8yDex.Custody
import Cl8yDex.MatchFacts

/-!
# The executing walk, the simulated walk and the abstract book

One reference walk over the list of ids says what both loops compute. The simulation is that walk
read through the stored pointers. The executing walk computes it too, although it unlinks, parks
and rewrites the orders it has passed, and its edits are fills, drops and parks of the abstract
book whose amounts add up to its totals.
-/

namespace Cl8yDex

open Outcome

namespace Act

/-- The acts of a match walk on one side. -/
def Matches (s : LimitOrderSide) : Act → Prop
  | fill s' .. => s' = s
  | drop _ | park .. => True
  | _ => False

def paid : Act → ℕ
  | fill _ _ n _ => n
  | _ => 0

end Act

def payoutSum (l : List (Addr × ℕ)) : ℕ := (l.map Prod.snd).sum

/-- Acts by which an order only leaves move no amount. -/
theorem totals_of_leaving {s : LimitOrderSide} {l : List Act} {x : OrderId}
    (h : ∀ a ∈ l, a = .drop x ∨ ∃ reason expiresAt, a = .park x reason expiresAt) :
    totalOf (Act.releasedOn s) l = 0 ∧ totalOf Act.paid l = 0 := by
  refine ⟨totalOf_eq_zero fun a ha => ?_, totalOf_eq_zero fun a ha => ?_⟩
  · rcases h a ha with rfl | ⟨reason, expiresAt, rfl⟩ <;> rfl
  · rcases h a ha with rfl | ⟨reason, expiresAt, rfl⟩ <;> rfl

/-- What a part of an executing walk did, in acts and in totals. -/
structure MatchEffect (w : WalkParams) (A : AbsBook) (acts : List Act) (A' : AbsBook)
    (st st' : MatchState) : Prop where
  run : Run A acts A'
  rep : Represents st'.book A'
  matches_ : ∀ a ∈ acts, a.Matches w.side
  taken : st'.escrowSubTotal = st.escrowSubTotal + totalOf (Act.releasedOn w.side) acts
  paid : payoutSum st'.makerPayouts = payoutSum st.makerPayouts + totalOf Act.paid acts
  left : st'.tally.left + totalOf Act.paid acts = st.tally.left
  out : st'.tally.outTotal + st'.tally.commissionTotal =
    st.tally.outTotal + st.tally.commissionTotal + totalOf (Act.releasedOn w.side) acts

namespace MatchEffect

variable {w : WalkParams} {A A' A'' : AbsBook} {acts acts' : List Act} {st st' st'' : MatchState}

theorem refl (h : Represents st.book A) : MatchEffect w A [] A st st :=
  ⟨.nil A, h, by simp, rfl, rfl, rfl, rfl⟩

theorem trans (h : MatchEffect w A acts A' st st') (h' : MatchEffect w A' acts' A'' st' st'') :
    MatchEffect w A (acts ++ acts') A'' st st'' where
  run := h.run.append h'.run
  rep := h'.rep
  matches_ a ha := (List.mem_append.1 ha).elim (h.matches_ a) (h'.matches_ a)
  taken := by rw [h'.taken, h.taken, totalOf_append, Nat.add_assoc]
  paid := by rw [h'.paid, h.paid, totalOf_append, Nat.add_assoc]
  left := by
    have h1 := h.left
    have h2 := h'.left
    rw [totalOf_append]
    omega
  out := by rw [h'.out, h.out, totalOf_append, Nat.add_assoc]

end MatchEffect

section Park

variable {b : Book} {A : AbsBook} {x : OrderId} {o : LimitOrder}

/-- Parking a stored order succeeds and keeps its remaining escrow. -/
theorem parkLimitOrderForClean_spec (h : Represents b A) (ho : b.orders x = some o)
    (reason : ExpiredLimitParkReason) (expiresAt : Option ℕ)
    (hexp : expiresAt = if reason = .expired then o.expiresAt else none) :
    ∃ b' A', parkLimitOrderForClean b x reason expiresAt =
        .ok (b', .limitOrderExpiredParked x o.owner o.side o.remaining reason) ∧
      Step A (.park x reason expiresAt) A' ∧ Represents b' A' ∧
      (∀ y, y ≠ x → A'.rows y = A.rows y) ∧ A'.queue o.side = (A.queue o.side).erase x := by
  have hrow := h.row ho
  have hclaim : b.expiredLimitClaims x = none := by
    rw [h.claims]
    exact h.wf.disjoint x _ hrow
  obtain ⟨b₁, hb₁, hrep⟩ := h.unlink ho
  have hstep := Step.park A x o.toOrderTerms reason expiresAt hrow hexp
  refine ⟨_, _, ?_, hstep, hrep.saveClaim _ (h.wf.step hstep), ?_, ?_⟩
  · simp only [parkLimitOrderForClean, ensure, if_pos hclaim, ok_bind, hb₁]
    rfl
  · exact fun y hy => AbsBook.withdraw_rows_of_ne (s := o.side) hy
  · simp [AbsBook.withdraw, AbsBook.putClaim]

theorem parkExpiredLimitOrderForClaim_eq {now : ℕ} (ho : b.orders x = some o)
    (hexp : isTimeExpired o.expiresAt now) :
    parkExpiredLimitOrderForClaim b x now = parkLimitOrderForClean b x .expired o.expiresAt := by
  simp only [parkExpiredLimitOrderForClaim, load_eq ho, ok_bind, ensure, if_pos hexp]

end Park

section Payouts

theorem creditMaker_spec (l : List (Addr × ℕ)) (owner : Addr) (amount : ℕ) :
    Meets (creditMaker l owner amount) (fun l' => payoutSum l' = payoutSum l + amount)
      (fun e => e = .overflow ∧ u128Max < payoutSum l + amount) := by
  induction l with
  | nil =>
      refine ((meets_add 0 amount).mono (fun _ h => h) ?_).bind ?_
      · rintro e ⟨rfl, h⟩
        exact ⟨rfl, by simpa [payoutSum] using h⟩
      · rintro total ⟨rfl, -⟩
        simp [payoutSum]
  | cons p l ih =>
      obtain ⟨a, n⟩ := p
      have hcons : ∀ m k l, payoutSum ((m, k) :: l) = k + payoutSum l := fun _ _ _ => by
        simp [payoutSum]
      unfold creditMaker
      split_ifs with hlt heq
      · refine ((meets_add 0 amount).mono (fun _ h => h) ?_).bind ?_
        · rintro e ⟨rfl, h⟩
          exact ⟨rfl, by omega⟩
        · rintro total ⟨rfl, -⟩
          simp only [meets_pure, hcons]
          omega
      · refine ((meets_add n amount).mono (fun _ h => h) ?_).bind ?_
        · rintro e ⟨rfl, h⟩
          exact ⟨rfl, by rw [hcons]; omega⟩
        · rintro total ⟨rfl, -⟩
          simp only [meets_pure, hcons]
          omega
      · refine (ih.mono (fun _ h => h) ?_).bind fun l' hl' => ?_
        · rintro e ⟨rfl, h⟩
          exact ⟨rfl, by rw [hcons]; omega⟩
        · simp only [meets_pure, hcons, hl']
          omega

end Payouts

section Fill

variable {w : WalkParams} {A : AbsBook} {st : MatchState} {x : OrderId} {o : LimitOrder}
  {offer taken : ℕ} {l r : List OrderId}

/-- The acts after a fill: drop the empty order, park a remainder nobody can fill, or keep it. -/
theorem finalizeOrderAfterFill_spec {b : Book} (h : Represents b A) (ho : b.orders x = some o)
    (hq : A.queue o.side = l ++ x :: r) (paid : ℕ) (hfill : FillsAt o.side o.price paid taken)
    (hle : taken ≤ o.remaining) :
    ∃ b' ev acts A', finalizeOrderAfterFill b x { o with remaining := o.remaining - taken } =
        .ok (b', ev) ∧ Run A (.fill o.side x paid taken :: acts) A' ∧ Represents b' A' ∧
      (∀ a ∈ acts, a = .drop x ∨ ∃ reason exp, a = .park x reason exp) ∧
      (∀ y, y ≠ x → A'.rows y = A.rows y) ∧ ∃ l', A'.queue o.side = l' ++ r := by
  have hrow := h.row ho
  have hstep := Step.fill A x o.toOrderTerms paid taken hrow hfill hle
  set u : OrderTerms := { o.toOrderTerms with remaining := o.remaining - taken } with hu
  have hrep : Represents (b.save x ⟨u, o.toLink⟩) (A.putRow x u) := h.saveTerms ho rfl rfl
  have hrow' : (A.putRow x u).rows x = some u := by simp [AbsBook.putRow]
  have herase : (A.queue o.side).erase x = l ++ r := h.erase_eq hq
  have hrows : ∀ y, y ≠ x → (A.putRow x u).rows y = A.rows y := fun y hy =>
    AbsBook.putRow_rows_of_ne hy
  unfold finalizeOrderAfterFill
  by_cases hzero : o.remaining - taken = 0
  · rw [if_pos hzero]
    obtain ⟨b', hb', hrep'⟩ := h.unlink ho
    have hdrop := Step.drop (A.putRow x u) x u hrow' hzero
    have hwf := hrep.wf.step hdrop
    refine ⟨b', none, [.drop x], _, ?_, .cons hstep (.single hdrop), ?_, by simp, ?_, l, ?_⟩
    · rw [hb']
      rfl
    · refine ⟨hrep'.rows.trans ?_, hrep'.claims, hrep'.nextId, hrep'.bounded, hrep'.escrow,
        hrep'.head, hrep'.linked, hwf⟩
      simp [AbsBook.withdraw, AbsBook.putRow, Function.update_idem]
    · intro y hy
      rw [AbsBook.withdraw_rows_of_ne hy, hrows y hy]
    · have hqu : ((A.putRow x u).withdraw u.side x).queue o.side = (A.queue o.side).erase x := by
        simp [AbsBook.withdraw, AbsBook.putRow, hu]
      rw [hqu, herase]
  · rw [if_neg hzero]
    have ho' : (b.save x ⟨u, o.toLink⟩).orders x = some ⟨u, o.toLink⟩ := by simp [Book.save]
    set reason : ExpiredLimitParkReason :=
      if shouldFlushDust (o.remaining - taken) then .dustFilled else .unfillable with hreason
    have hexp : reason ≠ .expired := by
      rw [hreason]
      split_ifs <;> simp
    split_ifs
    · obtain ⟨b', A', hb', hpk, hrep', hrows', hq'⟩ := parkLimitOrderForClean_spec hrep ho'
        reason none (if_neg hexp).symm
      refine ⟨b', some (.limitOrderExpiredParked x u.owner u.side u.remaining reason),
        [.park x reason none], A', ?_, .cons hstep (.single hpk), hrep', ?_, ?_, l, ?_⟩
      · exact bind_eq_ok.2 ⟨_, hb', rfl⟩
      · rintro a ha
        exact .inr ⟨_, _, List.mem_singleton.1 ha⟩
      · intro y hy
        rw [hrows' y hy, hrows y hy]
      · exact hq'.trans herase
    · refine ⟨_, none, [], _, rfl, .single hstep, hrep, by simp, hrows, l ++ [x], ?_⟩
      rw [List.append_assoc]
      exact hq

/-- What the fill needs of the running sums: the payouts and the escrow total stay in range. -/
def MatchState.Room (st : MatchState) (remaining : ℕ) : Prop :=
  payoutSum st.makerPayouts + st.tally.left ≤ u128Max ∧ st.escrowSubTotal + remaining ≤ u128Max

theorem applyFill_spec (h : Represents st.book A) (ho : st.book.orders x = some o)
    (hq : A.queue o.side = l ++ x :: r) (hside : o.side = w.side) (hleft : offer ≤ st.tally.left)
    (hle : taken ≤ o.remaining) (hfill : FillsAt o.side o.price offer taken) :
    Meets (st.applyFill w x o offer taken)
      (fun st' => (∃ c, st.tally.addFill w.takerBps offer taken = .ok (st'.tally, c)) ∧
        ∃ acts A', MatchEffect w A acts A' st st' ∧ (∀ y, y ≠ x → A'.rows y = A.rows y) ∧
          ∃ l', A'.queue o.side = l' ++ r)
      (fun e => st.tally.addFill w.takerBps offer taken = .error e ∨
        e = .overflow ∧ ¬st.Room o.remaining) := by
  have htally : Meets (st.tally.addFill w.takerBps offer taken)
      (fun out => st.tally.addFill w.takerBps offer taken = .ok out)
      (fun e => st.tally.addFill w.takerBps offer taken = .error e) := by
    cases st.tally.addFill w.takerBps offer taken <;> exact rfl
  unfold MatchState.applyFill
  refine (htally.mono (fun _ h => h) fun _ he => .inl he).bind fun out hout => ?_
  obtain ⟨tally, commission⟩ := out
  refine ((creditMaker_spec st.makerPayouts o.owner offer).mono (fun _ h => h) ?_).bind
    fun payouts hpay => ?_
  · rintro e ⟨rfl, hov⟩
    exact .inr ⟨rfl, fun hroom => by have := hroom.1; omega⟩
  refine ((meets_add st.escrowSubTotal taken).mono (fun _ h => h) ?_).bind ?_
  · rintro e ⟨rfl, hov⟩
    exact .inr ⟨rfl, fun hroom => by have := hroom.2; omega⟩
  rintro escrow ⟨rfl, -⟩
  refine ((meets_sub o.remaining taken).mono (fun _ h => h) ?_).bind ?_
  · rintro e ⟨-, hlt⟩
    exact absurd hle (not_le.2 hlt)
  rintro remaining ⟨rfl, -⟩
  obtain ⟨b', ev, acts, A', hb', hrun, hrep, hacts, hrows, hqueue⟩ :=
    finalizeOrderAfterFill_spec h ho hq offer hfill hle
  rw [hb', ok_bind]
  obtain ⟨hc, hcle, -, htl⟩ := Tally.addFill_eq_ok hout
  obtain ⟨htaken₀, hpaid₀⟩ := totals_of_leaving (s := w.side) hacts
  have htaken : totalOf (Act.releasedOn w.side) (.fill o.side x offer taken :: acts) = taken := by
    rw [totalOf_cons, htaken₀]
    exact if_pos hside
  have hpaid : totalOf Act.paid (.fill o.side x offer taken :: acts) = offer := by
    rw [totalOf_cons, hpaid₀]
    rfl
  refine ⟨⟨commission, hout⟩, _, A', ⟨hrun, hrep, ?_, ?_, ?_, ?_, ?_⟩, hrows, hqueue⟩
  · intro a ha
    rcases List.mem_cons.1 ha with rfl | ha
    · exact hside
    · rcases hacts a ha with rfl | ⟨_, _, rfl⟩ <;> exact trivial
  · simp only [htaken]
  · simpa only [hpaid] using hpay
  · simp only [hpaid, htl]
    omega
  · simp only [htaken, htl]
    omega

end Fill

end Cl8yDex
