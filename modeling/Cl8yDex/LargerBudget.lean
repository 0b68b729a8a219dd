import Cl8yDex.Priority

/-!
# One order met with two budgets

An order that a walk may not fill gets the same verdict whatever the budget. One that is filled is
filled at least as far by a larger budget, and just as far when it is taken whole, as long as the
product of the larger budget with the reciprocal of an ask does not overflow.
-/

namespace Cl8yDex

open Outcome Reciprocal

/-- The fill takes all that the order has: the escrow of a bid as far as its reciprocal reaches, or
the remainder of an ask. -/
def OrderTerms.Exhausts (o : OrderTerms) (offer taken : ℕ) : LimitOrderSide → Prop
  | .bid => offer = o.price.buys o.remaining
  | .ask => taken = o.remaining

def Seen.Whole (s : Seen) (side : LimitOrderSide) : Prop :=
  s.IsFill ∧ s.order.Exhausts s.offer s.taken side

/-- The budget can be multiplied with the reciprocal of an ask's price. -/
def WalkParams.Fits (w : WalkParams) (left : ℕ) (o : OrderTerms) : Prop :=
  left ≤ u128Max ∧ (w.side = .ask → o.price.buys left ≤ u128Max)

theorem WalkParams.Fits.mono {w : WalkParams} {left left' : ℕ} {o : OrderTerms}
    (h : w.Fits left' o) (hle : left ≤ left') : w.Fits left o :=
  ⟨hle.trans h.1, fun hask => (Decimal.buys_mono hle).trans (h.2 hask)⟩

/-- What is left of the ask-side amount of a fill after the commission. -/
def netOf (takerBps taken : ℕ) : ℕ := taken - taken * takerBps / 10000

theorem netOf_mono {bps a b : ℕ} (h : a ≤ b) : netOf bps a ≤ netOf bps b := by
  unfold netOf
  obtain ⟨d, rfl⟩ := Nat.exists_eq_add_of_le h
  by_cases hbps : bps ≤ 10000
  · have hd : d * bps ≤ d * 10000 := Nat.mul_le_mul_left d hbps
    have hsum : (a + d) * bps = a * bps + d * bps := Nat.add_mul ..
    omega
  · have hall : a ≤ a * bps / 10000 := by
      rw [Nat.le_div_iff_mul_le (by decide)]
      exact Nat.mul_le_mul_left a (not_le.1 hbps).le
    omega

section Visits

variable {w : WalkParams} {o : OrderTerms} {left left' offer taken : ℕ} {v : Visit}

/-- The verdict on an order that may not be filled does not look at the budget. -/
theorem visitOrder_ineligible (hnot : ¬w.Eligible o) (h : visitOrder w left o = .ok v) (left' : ℕ) :
    visitOrder w left' o = .ok v := by
  unfold visitOrder at h ⊢
  by_cases hside : o.side = w.side
  · rw [if_neg (not_not.2 hside)] at h ⊢
    by_cases hexp : isTimeExpired o.expiresAt w.now = true
    · rw [if_pos hexp] at h ⊢
      exact h
    · rw [if_neg hexp] at h ⊢
      obtain ⟨black, hblack, h⟩ := bind_eq_ok.1 h
      rw [hblack, ok_bind]
      cases black with
      | true => exact h
      | false =>
          simp only [Bool.false_eq_true, if_false] at h ⊢
          by_cases hfill : isLimitOrderFillable o.side o.remaining o.price = true
          · exact absurd ⟨hside, by simpa using hexp, hblack, hfill⟩ hnot
          · rw [if_pos hfill] at h ⊢
            exact h
  · rw [if_pos hside] at h ⊢
    exact h

/-- The plans of two budgets for one order. -/
theorem planFill_mono (helig : w.Eligible o) (hle : left ≤ left') (hfits : w.Fits left' o)
    (h : planFill w.side left o = .ok (some (offer, taken))) :
    ∃ offer' taken', planFill w.side left' o = .ok (some (offer', taken')) ∧ offer ≤ offer' ∧
      taken ≤ taken' ∧ (o.Exhausts offer taken w.side → offer' = offer ∧ taken' = taken) := by
  obtain ⟨hp, hbid⟩ := helig.capacity
  cases hside : w.side with
  | bid =>
      obtain ⟨hcap, hcosts, -⟩ := hbid hside
      rw [hside] at h
      have hplan (n : ℕ) : planFill .bid n o = _ := bidFill_eq hp hcap hcosts
      have hmin : min left (o.price.buys o.remaining) ≤ min left' (o.price.buys o.remaining) :=
        min_le_min_right _ hle
      have hcost : o.price.costs (min left (o.price.buys o.remaining)) ≤
          o.price.costs (min left' (o.price.buys o.remaining)) := Decimal.costs_mono hmin
      rw [hplan left] at h
      split_ifs at h with hzero
      · cases h
      · cases h
        have hplan' := hplan left'
        rw [if_neg (by omega)] at hplan'
        refine ⟨_, _, hplan', hmin, hcost, fun hwhole => ?_⟩
        have hfull : min left (o.price.buys o.remaining) = o.price.buys o.remaining := hwhole
        have heq : min left' (o.price.buys o.remaining) = min left (o.price.buys o.remaining) := by
          omega
        rw [heq]
        exact ⟨rfl, rfl⟩
  | ask =>
      have hbuys := hfits.2 hside
      have hmono : o.price.buys left ≤ o.price.buys left' := Decimal.buys_mono hle
      have hplan (n : ℕ) (hn : o.price.buys n ≤ u128Max) (hn' : n ≤ u128Max) :
          planFill .ask n o = _ := askFill_eq hp hn hn'
      have hmin : min o.remaining (o.price.buys left) ≤ min o.remaining (o.price.buys left') :=
        min_le_min_left _ hmono
      have hcost : o.price.costs (min o.remaining (o.price.buys left)) ≤
          o.price.costs (min o.remaining (o.price.buys left')) := Decimal.costs_mono hmin
      rw [hside, hplan left (hmono.trans hbuys) (hle.trans hfits.1)] at h
      split_ifs at h with hzero
      · cases h
      · cases h
        have hplan' := hplan left' hbuys hfits.1
        rw [if_neg (by omega)] at hplan'
        refine ⟨_, _, hplan', hcost, hmin, fun hwhole => ?_⟩
        have hfull : min o.remaining (o.price.buys left) = o.remaining := hwhole
        have heq : min o.remaining (o.price.buys left') = min o.remaining (o.price.buys left) := by
          omega
        rw [heq]
        exact ⟨rfl, rfl⟩

theorem admitFill_of_fill (h : visitOrder w left o = .ok (.fill offer taken)) (offer' taken' : ℕ) :
    w.admitFill o.price offer' taken' = .fill offer' taken' := by
  obtain ⟨helig, hleft⟩ := eligible_of_fill h
  have hplan := planFill_of_fill h
  rw [visitOrder_eligible helig hleft, hplan] at h
  have hopen : w.admitFill o.price offer taken = .fill offer taken := Except.ok.inj h
  unfold WalkParams.admitFill at hopen ⊢
  cases hpool : w.greedyPool with
  | none => rfl
  | some pool =>
      simp only [hpool] at hopen ⊢
      cases hbeats : beatsResidualPool w.side o.price w.takerBps pool with
      | yes => rfl
      | no =>
          rw [hbeats] at hopen
          cases hopen
      | skip =>
          rw [hbeats] at hopen
          cases hopen

/-- A larger budget fills what a smaller one fills, and more of it unless it was taken whole. -/
theorem visitOrder_fill_mono (hle : left ≤ left') (hfits : w.Fits left' o)
    (h : visitOrder w left o = .ok (.fill offer taken)) :
    ∃ offer' taken', visitOrder w left' o = .ok (.fill offer' taken') ∧ offer ≤ offer' ∧
      taken ≤ taken' ∧ (o.Exhausts offer taken w.side → offer' = offer ∧ taken' = taken) := by
  obtain ⟨helig, hleft⟩ := eligible_of_fill h
  obtain ⟨offer', taken', hplan, hoffer, htaken, hwhole⟩ :=
    planFill_mono helig hle hfits (planFill_of_fill h)
  refine ⟨offer', taken', ?_, hoffer, htaken, hwhole⟩
  rw [visitOrder_eligible helig (by omega), hplan]
  exact congrArg Except.ok (admitFill_of_fill h offer' taken')

end Visits

end Cl8yDex

/-!
## A larger budget against a smaller one

Two walks over one queue give the same verdicts as long as the smaller budget takes every order it
may take whole. The first order that it cannot take whole is filled further by the larger budget.
Sorted bids leave the smaller budget nothing to do after that; asks may.
-/

namespace Cl8yDex

open Outcome DoublyLinked Reciprocal

def Seen.net (takerBps : ℕ) (s : Seen) : ℕ := netOf takerBps s.taken

/-- No fill comes after an order that could have been filled and was not taken whole. -/
def NoFillAfterShort (w : WalkParams) (seen : List Seen) : Prop :=
  ∀ l s m x r, seen = l ++ s :: (m ++ x :: r) → x.IsFill → w.Eligible s.order → s.Whole w.side

section Walks

variable {w : WalkParams} {rows : OrderId → Option OrderTerms} {tally tally' : Tally}
  {seen : List Seen} {s : Seen}

theorem Passed.outTotal_eq (h : Passed w rows tally seen tally') :
    tally'.outTotal = tally.outTotal + totalOf (Seen.net w.takerBps) seen := by
  induction h with
  | nil => rfl
  | @aside tally _ x o v seen _ _ _ haside _ ih =>
      have htaken := (Seen.amounts_of_setsAside (s := ⟨x, o, tally.left, v⟩) haside).2.1
      rw [totalOf_cons, Seen.net, htaken, ih]
      simp [netOf]
  | fill _ _ _ hadd _ ih =>
      obtain ⟨hc, -, -, rfl⟩ := Tally.addFill_eq_ok hadd
      rw [totalOf_cons, ih, hc]
      simp only [Seen.net, Seen.taken, netOf]
      omega

theorem amounts_of_no_fill (h : ∀ x ∈ seen, ¬x.IsFill) (hp : Passed w rows tally seen tally') :
    totalOf Seen.offer seen = 0 ∧ totalOf (Seen.net w.takerBps) seen = 0 := by
  have hzero : ∀ x ∈ seen, x.offer = 0 ∧ x.taken = 0 := by
    intro x hx
    have haside := (hp.mem hx).2.2.resolve_right (h x hx)
    exact ⟨(Seen.amounts_of_setsAside haside).1, (Seen.amounts_of_setsAside haside).2.1⟩
  constructor
  · exact totalOf_eq_zero fun x hx => (hzero x hx).1
  · apply totalOf_eq_zero
    intro x hx
    rw [Seen.net, (hzero x hx).2]
    simp [netOf]

theorem NoFillAfterShort.tail (h : NoFillAfterShort w (s :: seen)) : NoFillAfterShort w seen := by
  rintro l t m x r rfl
  exact h (s :: l) t m x r rfl

/-- An order that was not taken whole is the last that could be filled. -/
theorem NoFillAfterShort.last (h : NoFillAfterShort w (s :: seen)) (helig : w.Eligible s.order)
    (hshort : ¬s.Whole w.side) : ∀ x ∈ seen, ¬x.IsFill := by
  intro x hx hfill
  obtain ⟨m, r, rfl⟩ := List.append_of_mem hx
  exact hshort (h [] s m x r rfl hfill helig)

/-- A walk that has room and steps left passes the next order when its verdict lets it. -/
theorem Passed.goes_on {n : ℕ} {fin : WalkEnd} {x : OrderId} {o : OrderTerms} {v : Visit}
    {rest rest' : List OrderId} (h : Passed w rows tally seen tally')
    (hend : Ends w rows n rest' tally' fin) (hq : x :: rest = seen.map Seen.id ++ rest')
    (hsteps : 0 < seen.length + n) (hroom : tally.makersUsed < w.cap) (hrow : rows x = some o)
    (hvisit : visitOrder w tally.left o = .ok v) (hv : v ≠ .exhausted) (hv' : v ≠ .worse) :
    ∃ seen', seen = ⟨x, o, tally.left, v⟩ :: seen' := by
  cases seen with
  | cons t seen' =>
      obtain ⟨-, hrow', hleft, hvisit', -⟩ := h.head
      rw [List.map_cons, List.cons_append, List.cons.injEq] at hq
      rw [← hq.1, hrow] at hrow'
      obtain ⟨id, order, left, visit⟩ := t
      dsimp only at hq hrow' hleft hvisit'
      cases hrow'
      rw [hvisit] at hvisit'
      cases hvisit'
      rw [hq.1, hleft]
      exact ⟨seen', rfl⟩
  | nil =>
      cases h
      cases hend with
      | scanned => simp at hsteps
      | full hfull => omega
      | listEnd => cases hq
      | exhausted _ hrow' hvisit' =>
          cases hq
          rw [hrow] at hrow'
          cases hrow'
          rw [hvisit] at hvisit'
          cases hvisit'
          exact absurd rfl hv
      | worse _ hrow' hvisit' =>
          cases hq
          rw [hrow] at hrow'
          cases hrow'
          rw [hvisit] at hvisit'
          cases hvisit'
          exact absurd rfl hv'

/-- The walk of the larger budget consumes and pays out at least as much. The two walks keep in step
until the smaller budget meets an order that it cannot take whole. -/
theorem Passed.outbid {σ σ' τ τ' : Tally} {seen' : List Seen} {rest rest' : List OrderId} {n : ℕ}
    {fin : WalkEnd} (hS : Passed w rows σ seen σ') (hL : Passed w rows τ seen' τ')
    (hend : Ends w rows n rest' τ' fin)
    (hq : seen.map Seen.id ++ rest = seen'.map Seen.id ++ rest')
    (hsteps : seen.length ≤ seen'.length + n) (hmakers : σ.makersUsed = τ.makersUsed)
    (hle : σ.left ≤ τ.left) (hfits : ∀ s ∈ seen, s.IsFill → w.Fits τ.left s.order)
    (hshort : NoFillAfterShort w seen) :
    totalOf Seen.offer seen ≤ totalOf Seen.offer seen' ∧
      totalOf (Seen.net w.takerBps) seen ≤ totalOf (Seen.net w.takerBps) seen' := by
  induction hS generalizing τ seen' with
  | nil => exact ⟨Nat.zero_le _, Nat.zero_le _⟩
  | @aside σ σ' x o v seen hroom hrow hvisit haside hrest ih =>
      have hs : ¬Seen.IsFill ⟨x, o, σ.left, v⟩ := by
        rintro ⟨offer, taken, hv⟩
        cases hv
        exact haside
      by_cases hlater : ∀ y ∈ seen, ¬y.IsFill
      · have hzero := amounts_of_no_fill (List.forall_mem_cons.2 ⟨hs, hlater⟩)
          (.aside hroom hrow hvisit haside hrest)
        rw [hzero.1, hzero.2]
        exact ⟨Nat.zero_le _, Nat.zero_le _⟩
      · have hnot : ¬w.Eligible o := fun helig =>
          hlater (hshort.last helig fun hwhole => hs hwhole.1)
        have hvisit' := visitOrder_ineligible hnot hvisit τ.left
        rw [List.map_cons, List.cons_append] at hq
        rw [List.length_cons] at hsteps
        obtain ⟨seen'', rfl⟩ := hL.goes_on hend hq (by omega) (hmakers ▸ hroom) hrow hvisit'
          (fun hv => by rw [hv] at haside; exact haside)
          (fun hv => by rw [hv] at haside; exact haside)
        rw [List.map_cons, List.cons_append, List.cons.injEq] at hq
        rw [List.length_cons] at hsteps
        cases hL with
        | aside _ _ _ _ hrest' =>
            have htail := ih hrest' hq.2 (by omega) hmakers hle
              (fun s hs => hfits s (List.mem_cons_of_mem _ hs)) hshort.tail
            obtain ⟨h1, h2, -⟩ := Seen.amounts_of_setsAside (s := ⟨x, o, σ.left, v⟩) haside
            rw [totalOf_cons, totalOf_cons, totalOf_cons, totalOf_cons, h1, Seen.net, h2]
            simp only [netOf]
            omega
        | fill => exact absurd haside id
  | @fill σ σ₁ σ' x o offer taken commission seen hroom hrow hvisit hadd hrest ih =>
      have hfit := hfits _ (List.mem_cons_self ..) ⟨_, _, rfl⟩
      obtain ⟨offer', taken', hvisit', hoffer, htaken, hsame⟩ :=
        visitOrder_fill_mono hle hfit hvisit
      rw [List.map_cons, List.cons_append] at hq
      rw [List.length_cons] at hsteps
      obtain ⟨seen'', rfl⟩ := hL.goes_on hend hq (by omega) (hmakers ▸ hroom) hrow hvisit'
        nofun nofun
      rw [List.map_cons, List.cons_append, List.cons.injEq] at hq
      rw [List.length_cons] at hsteps
      cases hL with
      | aside _ _ _ haside' _ => exact absurd haside' id
      | @fill _ τ₁ _ _ _ _ _ commission' _ _ _ _ hadd' hrest' =>
          obtain ⟨-, -, hle₁, rfl⟩ := Tally.addFill_eq_ok hadd
          obtain ⟨-, -, hle₂, rfl⟩ := Tally.addFill_eq_ok hadd'
          simp only [totalOf_cons, Seen.net, Seen.offer, Seen.taken]
          by_cases hwhole : o.Exhausts offer taken w.side
          · obtain ⟨rfl, rfl⟩ := hsame hwhole
            have htail := ih hrest' hq.2 (by omega) (congrArg (· + 1) hmakers)
              (Nat.sub_le_sub_right hle _)
              (fun s hs hfill => (hfits s (List.mem_cons_of_mem _ hs) hfill).mono (Nat.sub_le ..))
              hshort.tail
            exact ⟨Nat.add_le_add_left htail.1 _, Nat.add_le_add_left htail.2 _⟩
          · -- nothing is filled behind the order that falls short
            have hnone := hshort.last (eligible_of_fill hvisit).1 fun hw => hwhole hw.2
            obtain ⟨h1, h2⟩ := amounts_of_no_fill hnone hrest
            have hnet : netOf w.takerBps taken ≤ netOf w.takerBps taken' := netOf_mono htaken
            rw [h1, h2]
            constructor
            · omega
            · omega

end Walks

end Cl8yDex
