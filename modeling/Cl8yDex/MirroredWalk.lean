import Cl8yDex.Outcome
import Cl8yDex.MatchTrace
import Cl8yDex.MirroredRows

/-!
# The walk over the mirror and the pair's simulated walk

Row by row, the walk over a mirrored book and the pair's simulated walk keep the same totals and
fail together, whatever mix of expired, unfillable and overflowing orders they meet.
-/

namespace Cl8yDex.LocalQuote

open Outcome

section Step

variable {w : WalkParams} {row : RestingOrderRow} {t : OrderTerms} {tally : Tally}
  {offer taken : ℕ}

/-- A declared walk over makers whom the gate lets through. -/
structure Open (w : WalkParams) : Prop where
  declared : w.greedyPool = none
  clear : ∀ owner, makerOwnerIsTradeBlacklisted w.gate owner = .ok false
  taker : w.takerBps ≤ 10000

theorem visitOrder_eq (h : Open w) (hside : t.side = w.side) (left : ℕ) :
    visitOrder w left t =
      if isTimeExpired t.expiresAt w.now then .ok .expired
      else if ¬isLimitOrderFillable t.side t.remaining t.price then .ok .unfillable
      else if left = 0 then .ok .exhausted
      else do
        let plan ← planFill w.side left t
        return match plan with
          | none => .skip
          | some (offer, taken) => .fill offer taken := by
  unfold visitOrder WalkParams.admitFill
  rw [if_neg (not_not.2 hside), h.clear, h.declared]
  rfl

/-- Both keep the floored commission of each fill. -/
theorem addLocalFill_agrees (taken : ℕ) (hbps : w.takerBps ≤ 10000) (hoffer : offer ≤ tally.left) :
    Agree (fun a b => b.1 = a) (addLocalFill w.takerBps tally offer taken)
      (tally.addFill w.takerBps offer taken) := by
  unfold addLocalFill Tally.addFill
  apply (agree_orThrow (checkedMul taken w.takerBps) _ _).bind
  rintro scaled _ ⟨hscaled, rfl⟩
  obtain ⟨-, rfl⟩ := checkedMul_eq_some.1 hscaled
  have hdiv : divOrZero (taken * w.takerBps) 10000 = .ok (taken * w.takerBps / 10000) :=
    divOrZero_eq_ok.2 ⟨by decide, rfl⟩
  have hle : taken * w.takerBps / 10000 ≤ taken := by
    apply Nat.div_le_of_le_mul
    rw [Nat.mul_comm]
    exact Nat.mul_le_mul_right taken hbps
  rw [hdiv, ok_bind, subOrOverflow_eq_ok.2 ⟨hle, rfl⟩, ok_bind]
  apply (agree_orThrow (checkedAdd tally.commissionTotal _) _ _).bind
  rintro total _ ⟨-, rfl⟩
  rw [subOrOverflow_eq_ok.2 ⟨hoffer, rfl⟩, ok_bind]
  apply (agree_orThrow (checkedAdd tally.outTotal _) _ _).bind
  rintro out _ ⟨-, rfl⟩
  rfl

/-- As long as some of the budget is left, one step of either walk does the same. -/
theorem localStep_agrees (h : Open w) (hm : row.Mirrors t) (hside : t.side = w.side)
    (hleft : tally.left ≤ u128Max) (hpos : tally.left ≠ 0) :
    Agree (fun a b => b = (a, none)) (localStep w.side w.now w.takerBps tally row)
      (simulateStep w tally t) := by
  have hname : ¬row.side ≠ w.side.sideStr := by
    rw [hm.side, hside]
    exact not_not.2 rfl
  have hvisit := visitOrder_eq h hside tally.left
  unfold localStep
  rw [orderIsExpired_eq hm, economicOrderTerms_eq hm]
  cases hexp : isTimeExpired t.expiresAt w.now with
  | true =>
      rw [if_pos (.inr rfl)]
      rw [hexp, if_pos rfl] at hvisit
      rw [simulateStep_aside hvisit trivial]
      rfl
  | false =>
      rw [if_neg (by simp [hname])]
      rw [hexp, if_neg (by decide)] at hvisit
      cases hfill : isLimitOrderFillable t.side t.remaining t.price with
      | false =>
          rw [hfill, if_pos (by decide)] at hvisit
          rw [simulateStep_aside hvisit trivial]
          rfl
      | true =>
          rw [hfill, if_neg (by decide), if_neg hpos, ← hside, localFill_eq hfill hleft,
            ok_bind] at hvisit
          rw [if_pos rfl, Option.bind_some, ← hside]
          cases hplan : localFill t.side tally.left (t.remaining, t.price.atomics,
              Reciprocal.inverse Decimal.fractional t.price.atomics) with
          | none =>
              rw [hplan] at hvisit
              rw [simulateStep_aside hvisit trivial]
              rfl
          | some out =>
              obtain ⟨offer, taken⟩ := out
              have htake : visitOrder w tally.left t = .ok (.fill offer taken) := by
                rw [hvisit, hplan]
                rfl
              obtain ⟨-, hoffer, htaken, -⟩ := (visitOrder_spec t w tally.left).success htake
              unfold simulateStep
              rw [htake, ok_bind]
              have hadd := addLocalFill_agrees taken h.taker hoffer
              change Agree _ (addLocalFill w.takerBps tally offer taken) _
              rw [← bind_pure (addLocalFill w.takerBps tally offer taken)]
              apply hadd.bind
              rintro _ ⟨tally', commission⟩ rfl
              dsimp only
              rw [subOrOverflow_eq_ok.2 ⟨htaken, rfl⟩]
              rfl

theorem localStep_left_le (side : LimitOrderSide) (now takerBps : ℕ) (tally : Tally)
    (row : RestingOrderRow) :
    Meets (localStep side now takerBps tally row) (fun tally' => tally'.left ≤ tally.left)
      (fun _ => True) := by
  unfold localStep
  split_ifs
  · exact le_rfl
  · cases (economicOrderTerms row).bind (localFill side tally.left) with
    | none => exact le_rfl
    | some out =>
        obtain ⟨offer, taken⟩ := out
        change Meets (addLocalFill takerBps tally offer taken) _ _
        unfold addLocalFill
        apply (meets_orThrow fun _ => trivial).bind
        intro _ _
        apply (meets_orThrow fun _ => trivial).bind
        intro _ _
        apply (meets_orThrow fun _ => trivial).bind
        exact fun _ _ => Nat.sub_le _ _

theorem localWalk_left_le (side : LimitOrderSide) (now cap takerBps n : ℕ)
    (rows : List RestingOrderRow) (tally : Tally) :
    Meets (localWalk side now cap takerBps n rows tally) (fun tally' => tally'.left ≤ tally.left)
      (fun _ => True) := by
  induction n generalizing rows tally with
  | zero => exact le_rfl
  | succ n ih =>
      unfold localWalk
      cases rows with
      | nil => exact le_rfl
      | cons row rows =>
          dsimp only
          split_ifs
          · exact le_rfl
          · apply (localStep_left_le side now takerBps tally row).bind
            intro tally' hstep
            exact (ih rows tally').weaken fun _ hle => hle.trans hstep

end Step

section Walk

variable {w : WalkParams} {b : Book} {A : AbsBook} {tally : Tally} {l r ids rest : List OrderId}
  {rows : List RestingOrderRow} {n : ℕ}

/-- Once the budget is spent, the pair's walk only looks for an order that could be filled. -/
theorem simulateWalk_spent (h : Open w) (hrep : Represents b A)
    (hq : A.queue w.side = l ++ r) (hleft : tally.left = 0) :
    ∃ fin, simulateWalk w b n r.head? tally = .ok (tally, fin) := by
  induction n generalizing l r with
  | zero => exact ⟨_, rfl⟩
  | succ n ih =>
      unfold simulateWalk
      by_cases hroom : tally.makersUsed < w.cap
      · rw [if_pos hroom]
        cases r with
        | nil => exact ⟨_, rfl⟩
        | cons x r =>
            have hlist := hrep.listed w.side
            rw [hq] at hlist
            obtain ⟨o, ho, hside, -, hnext⟩ := hlist.node
            have hvisit := visitOrder_eq h hside tally.left
            rw [if_pos hleft] at hvisit
            have hq' : A.queue w.side = (l ++ [x]) ++ r := by
              rw [List.append_assoc]
              exact hq
            rw [List.head?_cons]
            dsimp only
            rw [load_eq ho, ok_bind, hnext]
            split_ifs at hvisit
            · rw [simulateStep_aside hvisit trivial]
              exact ih hq'
            · unfold simulateStep
              rw [hvisit]
              exact ⟨_, rfl⟩
            · rw [simulateStep_aside hvisit trivial]
              exact ih hq'
      · rw [if_neg hroom]
        exact ⟨_, rfl⟩

/-- The rows are the first orders of a queue: all of them, or as many as a walk can reach. -/
structure Covers (A : AbsBook) (n : ℕ) (rows : List RestingOrderRow) (ids rest : List OrderId) :
    Prop where
  rows : List.Forall₂ (fun row x => ∃ t, A.rows x = some t ∧ row.Mirrors t) rows ids
  reach : rest = [] ∨ n ≤ ids.length

theorem localWalk_agrees (tally : Tally) (h : Open w) (hrep : Represents b A)
    (hq : A.queue w.side = l ++ (ids ++ rest)) (hc : Covers A n rows ids rest)
    (hleft : tally.left ≤ u128Max) :
    Agree (fun a c => c.1 = a) (localWalk w.side w.now w.cap w.takerBps n rows tally)
      (simulateWalk w b n (ids ++ rest).head? tally) := by
  induction n generalizing l ids rows tally with
  | zero => exact rfl
  | succ n ih =>
      by_cases hroom : tally.makersUsed < w.cap
      · cases ids with
        | nil =>
            have hrest : rest = [] := hc.reach.resolve_right (Nat.not_succ_le_zero n)
            have hnone : rows = [] := List.forall₂_nil_right_iff.1 hc.rows
            rw [hrest, hnone]
            unfold simulateWalk localWalk
            rw [if_pos hroom]
            exact rfl
        | cons x ids =>
            obtain ⟨row, rows', ⟨t, ht, hm⟩, hrows, rfl⟩ := List.forall₂_cons_right_iff.1 hc.rows
            by_cases hspent : tally.left = 0
            · obtain ⟨fin, hfin⟩ := simulateWalk_spent (n := n + 1) h hrep hq hspent
              rw [hfin]
              unfold localWalk
              rw [if_pos (.inr hspent)]
              exact rfl
            · have hlist := hrep.listed w.side
              rw [hq, List.cons_append] at hlist
              obtain ⟨o, ho, hside, -, hnext⟩ := hlist.node
              obtain rfl : o.toOrderTerms = t := Option.some.inj ((hrep.row ho).symm.trans ht)
              have hq' : A.queue w.side = (l ++ [x]) ++ (ids ++ rest) := by
                rw [List.append_assoc]
                exact hq
              have hc' : Covers A n rows' ids rest :=
                ⟨hrows, hc.reach.imp id Nat.le_of_succ_le_succ⟩
              have hgo : ¬(w.cap ≤ tally.makersUsed ∨ tally.left = 0) := by omega
              have hsmaller := localStep_left_le w.side w.now w.takerBps tally row
              unfold simulateWalk localWalk
              rw [if_neg hgo, if_pos hroom, List.cons_append, List.head?_cons]
              dsimp only
              rw [load_eq ho, ok_bind, hnext]
              have hstep := localStep_agrees h hm hside hleft hspent
              cases hlocal : localStep w.side w.now w.takerBps tally row with
              | error e =>
                  obtain ⟨e', he⟩ := hstep.failure hlocal
                  rw [he]
                  exact trivial
              | ok tally' =>
                  obtain ⟨_, hpair, rfl⟩ := hstep.success hlocal
                  rw [hpair, ok_bind, ok_bind]
                  exact ih tally' hq' hc' ((hsmaller.success hlocal).trans hleft)
      · have hfull : w.cap ≤ tally.makersUsed := not_lt.1 hroom
        have hlocal : localWalk w.side w.now w.cap w.takerBps (n + 1) rows tally = .ok tally := by
          unfold localWalk
          cases rows with
          | nil => rfl
          | cons row rows => exact if_pos (.inl hfull)
        unfold simulateWalk
        rw [hlocal, if_neg hroom]
        exact rfl

end Walk

end Cl8yDex.LocalQuote
