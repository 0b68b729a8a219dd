import Cl8yDex.LadderExpansion
import Cl8yDex.LiveOrders
import Cl8yDex.OrderLife
import Cl8yDex.PairEmissions
import Cl8yDex.WalkVisits
import Mathlib.Data.List.ReduceOption

/-!
# What a pair tells of its orders

Responses tell when an order was placed, cancelled, parked or refunded. Each call tells of every
order exactly what it did to it: between two marks an order is only filled or repriced, and it is
gone without a mark only when it was filled to the end or never placed.
-/

namespace Cl8yDex

open Outcome

inductive OrderMark
  | placed (owner : Addr) (side : LimitOrderSide) (price : Decimal)
  | cancelled (owner : Addr)
  | parked (remaining : ℕ)
  | claimed

/-- A step of an order's life with what is told of it. -/
inductive ToldStep : OrderState → Option OrderMark → OrderState → Prop
  | skipped : ToldStep .unborn none .gone
  | placed (t : OrderTerms) :
      ToldStep .unborn (some (.placed t.owner t.side t.price)) (.resting t)
  | edited {t t' : OrderTerms} (howner : t'.owner = t.owner) (hside : t'.side = t.side) :
      ToldStep (.resting t) none (.resting t')
  | filled (t : OrderTerms) (h : t.remaining = 0) : ToldStep (.resting t) none .gone
  | parked {t : OrderTerms} {r : ExpiredLimitRefund} (howner : r.owner = t.owner)
      (hside : r.side = t.side) : ToldStep (.resting t) (some (.parked r.remaining)) (.parked r)
  | cancelled (t : OrderTerms) : ToldStep (.resting t) (some (.cancelled t.owner)) .gone
  | claimed (r : ExpiredLimitRefund) : ToldStep (.parked r) (some .claimed) .gone

/-- A part of an order's life with all that is told of it. -/
inductive Told : OrderState → List OrderMark → OrderState → Prop
  | refl (s : OrderState) : Told s [] s
  | step {s s' s'' : OrderState} {m : Option OrderMark} {l : List OrderMark}
      (h : ToldStep s m s') (rest : Told s' l s'') : Told s (m.toList ++ l) s''

theorem ToldStep.told {s s' : OrderState} {m : Option OrderMark} (h : ToldStep s m s') :
    Told s m.toList s' := by
  have hstep := Told.step h (.refl s')
  rwa [List.append_nil] at hstep

theorem Told.append {s s' s'' : OrderState} {l l' : List OrderMark} (h : Told s l s')
    (h' : Told s' l' s'') : Told s (l ++ l') s'' := by
  induction h with
  | refl s => exact h'
  | step h _ ih =>
    rw [List.append_assoc]
    exact .step h (ih h')

/-- What is told of one order. -/
def marksOf (x : OrderId) (marks : List (OrderId × OrderMark)) : List OrderMark :=
  marks.filterMap fun m => if m.1 = x then some m.2 else none

section Marks

variable {x y : OrderId} {marks marks' : List (OrderId × OrderMark)}

theorem marksOf_append : marksOf x (marks ++ marks') = marksOf x marks ++ marksOf x marks' :=
  List.filterMap_append

@[simp] theorem marksOf_nil : marksOf x [] = [] := rfl

theorem marksOf_map_self (l : List OrderMark) : marksOf x (l.map fun m => (x, m)) = l := by
  simp [marksOf, List.filterMap_map]

theorem marksOf_map_other (h : y ≠ x) (l : List OrderMark) :
    marksOf x (l.map fun m => (y, m)) = [] := by
  simp [marksOf, h]

end Marks

/-- Orders and claims have ids that were handed out, and no order has a claim yet. -/
structure Book.Tidy (b : Book) : Prop where
  row_lt : ∀ x t, b.terms x = some t → x < b.orderNextId
  claim_lt : ∀ x r, b.expiredLimitClaims x = some r → x < b.orderNextId
  disjoint : ∀ x t, b.terms x = some t → b.expiredLimitClaims x = none

/-- A part of an operation that tells these marks. -/
structure Book.Tells (b : Book) (marks : List (OrderId × OrderMark)) (b' : Book) : Prop where
  tidy : b'.Tidy
  told : ∀ x, Told (b.orderState x) (marksOf x marks) (b'.orderState x)

/-- Claims and ids are as they were. -/
structure Book.KeepsRest (b b' : Book) : Prop where
  claims : b'.expiredLimitClaims = b.expiredLimitClaims
  nextId : b'.orderNextId = b.orderNextId

section Edits

variable {b b' b'' : Book} {x : OrderId} {o : LimitOrder} {t : OrderTerms}
  {marks marks' : List (OrderId × OrderMark)}

theorem Book.Tidy.tells (h : b.Tidy) : b.Tells [] b := ⟨h, fun _ => .refl _⟩

theorem Book.Tells.trans (h : b.Tells marks b') (h' : b'.Tells marks' b'') :
    b.Tells (marks ++ marks') b'' := by
  refine ⟨h'.tidy, fun x => ?_⟩
  rw [marksOf_append]
  exact (h.told x).append (h'.told x)

theorem Book.orderState_of_row (h : b.terms x = some t) : b.orderState x = .resting t := by
  simp only [Book.orderState, h]

theorem Book.orderState_of_claim (hrow : b.terms x = none) {r : ExpiredLimitRefund}
    (hclaim : b.expiredLimitClaims x = some r) : b.orderState x = .parked r := by
  simp only [Book.orderState, hrow, hclaim]

theorem Book.orderState_of_gone (hrow : b.terms x = none) (hclaim : b.expiredLimitClaims x = none)
    (hlt : x < b.orderNextId) : b.orderState x = .gone := by
  simp only [Book.orderState, hrow, hclaim, if_pos hlt]

theorem Book.orderState_of_unborn (h : b.Tidy) (hle : b.orderNextId ≤ x) :
    b.orderState x = .unborn := by
  have hrow : b.terms x = none := by
    by_contra hne
    obtain ⟨t, ht⟩ := Option.ne_none_iff_exists'.1 hne
    exact absurd (h.row_lt x t ht) (not_lt.2 hle)
  have hclaim : b.expiredLimitClaims x = none := by
    by_contra hne
    obtain ⟨r, hr⟩ := Option.ne_none_iff_exists'.1 hne
    exact absurd (h.claim_lt x r hr) (not_lt.2 hle)
  simp only [Book.orderState, hrow, hclaim, if_neg (not_lt.2 hle)]

theorem Book.Tidy.row_of_claim (h : b.Tidy) {r : ExpiredLimitRefund}
    (hclaim : b.expiredLimitClaims x = some r) : b.terms x = none := by
  by_contra hne
  obtain ⟨t, ht⟩ := Option.ne_none_iff_exists'.1 hne
  rw [h.disjoint x t ht] at hclaim
  cases hclaim

/-- An edit of one order is told of that order. -/
theorem Book.Tidy.edit (h : b.Tidy) (hlt : x < b.orderNextId) {row : Option OrderTerms}
    (claim : Option ExpiredLimitRefund) (hterms : b'.terms = Function.update b.terms x row)
    (hclaims : b'.expiredLimitClaims = Function.update b.expiredLimitClaims x claim)
    (hnext : b'.orderNextId = b.orderNextId) (hapart : row = none ∨ claim = none)
    {l : List OrderMark} (htold : Told (b.orderState x) l (b'.orderState x)) :
    b.Tells (l.map fun m => (x, m)) b' := by
  have hself : b'.terms x = row ∧ b'.expiredLimitClaims x = claim := by
    rw [hterms, hclaims, Function.update_self, Function.update_self]
    exact ⟨rfl, rfl⟩
  have hother : ∀ y, y ≠ x →
      b'.terms y = b.terms y ∧ b'.expiredLimitClaims y = b.expiredLimitClaims y := by
    intro y hy
    rw [hterms, hclaims, Function.update_of_ne hy, Function.update_of_ne hy]
    exact ⟨rfl, rfl⟩
  refine ⟨⟨fun y t ht => ?_, fun y r hr => ?_, fun y t ht => ?_⟩, fun y => ?_⟩
  · rw [hnext]
    by_cases hy : y = x
    · exact hy ▸ hlt
    · exact h.row_lt y t ((hother y hy).1 ▸ ht)
  · rw [hnext]
    by_cases hy : y = x
    · exact hy ▸ hlt
    · exact h.claim_lt y r ((hother y hy).2 ▸ hr)
  · by_cases hy : y = x
    · subst hy
      rw [hself.1] at ht
      rw [hself.2]
      exact hapart.resolve_left (ht ▸ Option.some_ne_none t)
    · rw [(hother y hy).2]
      exact h.disjoint y t ((hother y hy).1 ▸ ht)
  · by_cases hy : y = x
    · subst hy
      rw [marksOf_map_self]
      exact htold
    · have hstate : b'.orderState y = b.orderState y := by
        simp only [Book.orderState, (hother y hy).1, (hother y hy).2, hnext]
      rw [marksOf_map_other (Ne.symm hy), hstate]
      exact .refl _

/-- Counters and pointers tell nothing. -/
theorem Book.Tidy.still (h : b.Tidy) (hterms : b'.terms = b.terms) (hrest : b.KeepsRest b') :
    b.Tells [] b' := by
  have hstate : b'.orderState = b.orderState := by
    funext x
    simp only [Book.orderState, hterms, hrest.claims, hrest.nextId]
  refine ⟨⟨?_, ?_, ?_⟩, fun x => ?_⟩
  · rw [hterms, hrest.nextId]
    exact h.row_lt
  · rw [hrest.claims, hrest.nextId]
    exact h.claim_lt
  · rw [hterms, hrest.claims]
    exact h.disjoint
  · rw [hstate]
    exact .refl _

theorem Book.KeepsRest.refl (b : Book) : b.KeepsRest b := ⟨rfl, rfl⟩

theorem Book.KeepsRest.trans (h : b.KeepsRest b') (h' : b'.KeepsRest b'') : b.KeepsRest b'' :=
  ⟨h'.claims.trans h.claims, h'.nextId.trans h.nextId⟩

theorem updateOrder_rest {what : String} {f : LimitOrder → LimitOrder}
    (h : b.updateOrder x what f = .ok b') : b.KeepsRest b' := by
  obtain ⟨_, -, h⟩ := bind_eq_ok.1 h
  cases h
  exact ⟨rfl, rfl⟩

theorem updateNeighbor_rest {id : Option OrderId} {what : String} {f : LimitOrder → LimitOrder}
    (h : b.updateNeighbor id what f = .ok b') : b.KeepsRest b' := by
  cases id with
  | none =>
    cases h
    exact .refl b
  | some x => exact updateOrder_rest h

theorem linkPrev_rest {side : LimitOrderSide} {prev : Option OrderId}
    (h : b.linkPrev x side prev = .ok b') : b.KeepsRest b' := by
  cases prev with
  | none =>
    cases h
    exact ⟨rfl, rfl⟩
  | some p => exact updateOrder_rest h

theorem linkOrder_rest {prev next : Option OrderId} (h : b.linkOrder x t prev next = .ok b') :
    b.KeepsRest b' := by
  obtain ⟨b₁, hprev, h⟩ := bind_eq_ok.1 h
  have hlinked := (linkPrev_rest hprev).trans (updateNeighbor_rest h)
  exact ⟨hlinked.claims, hlinked.nextId⟩

theorem bypassOrder_rest (h : b.bypassOrder x o = .ok b') : b.KeepsRest b' := by
  obtain ⟨b₁, hprev, h⟩ := bind_eq_ok.1 h
  have hlinked := (updateNeighbor_rest hprev).trans (updateNeighbor_rest h)
  refine Book.KeepsRest.trans ?_ hlinked
  split_ifs <;> exact ⟨rfl, rfl⟩

theorem unlinkOrder_rest (h : unlinkOrder b x = .ok (b', o)) : b.KeepsRest b' := by
  obtain ⟨_, -, h⟩ := bind_eq_ok.1 h
  obtain ⟨b₁, hbypass, h⟩ := bind_eq_ok.1 h
  cases h
  exact ⟨(bypassOrder_rest hbypass).claims, (bypassOrder_rest hbypass).nextId⟩

theorem escrowAdd_rest {side : LimitOrderSide} {amount : ℕ}
    (h : b.escrowAdd side amount = .ok b') : b.KeepsRest b' := by
  obtain ⟨_, -, h⟩ := bind_eq_ok.1 h
  cases h
  exact ⟨rfl, rfl⟩

theorem escrowSub_rest {side : LimitOrderSide} {amount : ℕ} {path : EscrowPath}
    (h : b.escrowSub side amount path = .ok b') : b.KeepsRest b' := by
  obtain ⟨_, -, h⟩ := bind_eq_ok.1 h
  cases h
  exact ⟨rfl, rfl⟩

theorem escrowSubPending_rest {side : LimitOrderSide} {amount : ℕ} {path : EscrowPath}
    (h : b.escrowSubPending side amount path = .ok b') : b.KeepsRest b' := by
  unfold Book.escrowSubPending at h
  split_ifs at h with hzero
  · cases h
    exact .refl b
  · exact escrowSub_rest h

theorem relinkLimitOrderPrice_rest {price : Decimal} {hint : Option OrderId} {steps : ℕ}
    (h : relinkLimitOrderPrice b x price hint steps = .ok b') : b.KeepsRest b' := by
  obtain ⟨existing, -, h⟩ := bind_eq_ok.1 h
  split_ifs at h with hsame
  · cases h
    exact .refl b
  · obtain ⟨⟨b₁, detached⟩, hdetach, h⟩ := bind_eq_ok.1 h
    obtain ⟨o', -, hdetach⟩ := bind_eq_ok.1 hdetach
    obtain ⟨b₂, hbypass, hdetach⟩ := bind_eq_ok.1 hdetach
    cases hdetach
    obtain ⟨found, -, h⟩ := bind_eq_ok.1 h
    have hdetached := bypassOrder_rest hbypass
    have hlinked := linkOrder_rest h
    exact ⟨hlinked.claims.trans hdetached.claims, hlinked.nextId.trans hdetached.nextId⟩

theorem insertOrder_rest {cursor : Option InsertThreadCursor} {hint : Option OrderId} {steps : ℕ}
    {out : Book × BatchInsertOutcome} (h : insertOrder b x t cursor hint steps = .ok out) :
    out.2.id = x ∧ b.KeepsRest out.1 := by
  obtain ⟨found, -, h⟩ := bind_eq_ok.1 h
  obtain ⟨b₁, hlink, h⟩ := bind_eq_ok.1 h
  cases h
  exact ⟨rfl, linkOrder_rest hlink⟩

end Edits

/-- The mark of an event of the book. A fill is none. -/
def MatchEvent.mark : MatchEvent → Option (OrderId × OrderMark)
  | .limitOrderFill .. => none
  | .limitOrderExpiredParked orderId _ _ remaining _ => some (orderId, .parked remaining)

def eventMarks (events : List MatchEvent) : List (OrderId × OrderMark) :=
  events.filterMap MatchEvent.mark

theorem eventMarks_append (events events' : List MatchEvent) :
    eventMarks (events ++ events') = eventMarks events ++ eventMarks events' :=
  List.filterMap_append

theorem eventMarks_fill {x : OrderId} {t : OrderTerms} {offer taken commission : ℕ}
    {events : List MatchEvent} :
    eventMarks (limitOrderFillEvent x t offer taken commission :: events) = eventMarks events := by
  unfold limitOrderFillEvent
  cases t.side <;> rfl

section Walks

variable {b b' b₀ : Book} {x : OrderId} {o : LimitOrder}

/-- An order that leaves the book without a claim. -/
theorem unlinkOrder_tells (h : b.Tidy) (hunlink : unlinkOrder b x = .ok (b', o))
    {l : List OrderMark} (htold : Told (.resting o.toOrderTerms) l .gone) :
    b.Tells (l.map fun m => (x, m)) b' := by
  obtain ⟨hrow, hterms⟩ := unlinkOrder_terms hunlink
  have hrest := unlinkOrder_rest hunlink
  have hclaim := h.disjoint x _ hrow
  have hlt := h.row_lt x _ hrow
  have hgone : b'.orderState x = .gone := by
    refine Book.orderState_of_gone ?_ (hrest.claims ▸ hclaim) (hrest.nextId ▸ hlt)
    rw [hterms, Function.update_self]
  refine h.edit hlt none hterms ?_ hrest.nextId (.inl rfl) ?_
  · rw [hrest.claims, ← hclaim, Function.update_eq_self]
  · rw [Book.orderState_of_row hrow, hgone]
    exact htold

theorem parkLimitOrderForClean_tells {reason : ExpiredLimitParkReason} {e : Option ℕ}
    {out : Book × MatchEvent} (h : b.Tidy) (hpark : parkLimitOrderForClean b x reason e = .ok out) :
    b.Tells (eventMarks [out.2]) out.1 := by
  obtain ⟨_, -, hpark⟩ := bind_eq_ok.1 hpark
  obtain ⟨⟨b₁, removed⟩, hunlink, hpark⟩ := bind_eq_ok.1 hpark
  cases hpark
  obtain ⟨hrow, hterms⟩ := unlinkOrder_terms hunlink
  have hrest := unlinkOrder_rest hunlink
  let r : ExpiredLimitRefund := ⟨removed.owner, removed.side, removed.remaining, e, some reason⟩
  have hgone : (b₁.saveClaim x (some r)).terms = Function.update b.terms x none := hterms
  have hparked : (b₁.saveClaim x (some r)).orderState x = .parked r :=
    Book.orderState_of_claim (by rw [hgone, Function.update_self]) (Function.update_self ..)
  have htold := (@ToldStep.parked removed.toOrderTerms r rfl rfl).told
  rw [← hparked, ← Book.orderState_of_row hrow] at htold
  refine h.edit (h.row_lt x _ hrow) (some r) hgone ?_ hrest.nextId (.inl rfl) htold
  rw [← hrest.claims]
  rfl

theorem parkExpiredLimitOrderForClaim_tells {now : ℕ} {out : Book × MatchEvent} (h : b.Tidy)
    (hpark : parkExpiredLimitOrderForClaim b x now = .ok out) :
    b.Tells (eventMarks [out.2]) out.1 := by
  obtain ⟨_, -, hpark⟩ := bind_eq_ok.1 hpark
  obtain ⟨_, -, hpark⟩ := bind_eq_ok.1 hpark
  exact parkLimitOrderForClean_tells h hpark

/-- An order keeps its owner and side when it is saved. -/
theorem Book.Tidy.save (h : b.Tidy) {t : OrderTerms} (hrow : b.terms x = some t)
    (howner : o.owner = t.owner) (hside : o.side = t.side) : b.Tells [] (b.save x o) := by
  have hclaim := h.disjoint x t hrow
  have hsaved : (b.save x o).orderState x = .resting o.toOrderTerms :=
    Book.orderState_of_row (by rw [Book.terms_save, Function.update_self])
  have htold := (ToldStep.edited howner hside).told
  rw [← hsaved, ← Book.orderState_of_row hrow] at htold
  refine h.edit (h.row_lt x t hrow) none Book.terms_save ?_ rfl (.inr rfl) htold
  rw [← hclaim, Function.update_eq_self]
  rfl

/-- A fill leaves the order at rest, parks it, or takes out what is filled to the end. -/
theorem finalizeOrderAfterFill_tells {t : OrderTerms} {out : Book × Option MatchEvent}
    (h : b.Tidy) (hfill : finalizeOrderAfterFill b x o = .ok out) (hrow : b.terms x = some t)
    (howner : o.owner = t.owner) (hside : o.side = t.side) :
    b.Tells (eventMarks out.2.toList) out.1 := by
  have hsaved := h.save hrow howner hside
  unfold finalizeOrderAfterFill at hfill
  by_cases hzero : o.remaining = 0
  · rw [if_pos hzero] at hfill
    obtain ⟨⟨b₁, removed⟩, hunlink, hfill⟩ := bind_eq_ok.1 hfill
    cases hfill
    obtain rfl : t = removed.toOrderTerms :=
      Option.some.inj (hrow.symm.trans (unlinkOrder_terms hunlink).1)
    have hedited := (ToldStep.edited howner hside).told
    exact unlinkOrder_tells h hunlink (hedited.append (ToldStep.filled o.toOrderTerms hzero).told)
  · rw [if_neg hzero] at hfill
    split at hfill
    · obtain ⟨⟨b₁, ev⟩, hpark, hfill⟩ := bind_eq_ok.1 hfill
      cases hfill
      exact hsaved.trans (parkLimitOrderForClean_tells hsaved.tidy hpark)
    · cases hfill
      exact hsaved

section Match

variable {w : WalkParams} {st st' : MatchState}

theorem parkUnderCap_tells {park : Book → Except ContractError (Book × MatchEvent)}
    (hst : b₀.Tells (eventMarks st.fillEvents) st.book)
    (hpark : ∀ b out, b.Tidy → park b = .ok out → b.Tells (eventMarks [out.2]) out.1)
    (h : st.parkUnderCap park = .ok st') : b₀.Tells (eventMarks st'.fillEvents) st'.book := by
  unfold MatchState.parkUnderCap at h
  split_ifs at h with hroom
  · obtain ⟨⟨b, ev⟩, hb, h⟩ := bind_eq_ok.1 h
    cases h
    have hall := hst.trans (hpark _ _ hst.tidy hb)
    rwa [← eventMarks_append] at hall
  · cases h
    exact hst

theorem applyFill_tells {offer taken : ℕ} (hst : b₀.Tells (eventMarks st.fillEvents) st.book)
    (ho : st.book.orders x = some o) (h : st.applyFill w x o offer taken = .ok st') :
    b₀.Tells (eventMarks st'.fillEvents) st'.book := by
  iterate 4 obtain ⟨_, -, h⟩ := bind_eq_ok.1 h
  obtain ⟨⟨b, parked⟩, hfill, h⟩ := bind_eq_ok.1 h
  cases h
  have hone := finalizeOrderAfterFill_tells hst.tidy hfill (Book.terms_of_orders ho) rfl rfl
  rw [eventMarks_append, eventMarks_fill]
  exact hst.trans hone

theorem matchStep_tells {stop : Option WalkEnd} (hst : b₀.Tells (eventMarks st.fillEvents) st.book)
    (ho : st.book.orders x = some o) (h : matchStep w st x o = .ok (st', stop)) :
    b₀.Tells (eventMarks st'.fillEvents) st'.book := by
  obtain ⟨v, -, h⟩ := bind_eq_ok.1 h
  cases v with
  | expired =>
    obtain ⟨st₁, hpark, h⟩ := bind_eq_ok.1 h
    cases h
    exact parkUnderCap_tells hst (fun _ _ => parkExpiredLimitOrderForClaim_tells) hpark
  | blacklisted | unfillable =>
    obtain ⟨st₁, hpark, h⟩ := bind_eq_ok.1 h
    cases h
    exact parkUnderCap_tells hst (fun _ _ => parkLimitOrderForClean_tells) hpark
  | fill offer taken =>
    obtain ⟨st₁, hfill, h⟩ := bind_eq_ok.1 h
    cases h
    exact applyFill_tells hst ho hfill
  | wrongSide | exhausted | skip | worse =>
    cases h
    exact hst

theorem matchWalk_tells {n : ℕ} {cur : Option OrderId} {fin : WalkEnd}
    (hst : b₀.Tells (eventMarks st.fillEvents) st.book)
    (h : matchWalk w n cur st = .ok (st', fin)) :
    b₀.Tells (eventMarks st'.fillEvents) st'.book := by
  induction n generalizing cur st with
  | zero =>
    cases h
    exact hst
  | succ n ih =>
    unfold matchWalk at h
    split_ifs at h with hroom
    · cases cur with
      | none =>
        cases h
        exact hst
      | some x =>
        obtain ⟨o, ho, h⟩ := bind_eq_ok.1 h
        obtain ⟨⟨st₁, stop⟩, hstep, h⟩ := bind_eq_ok.1 h
        have hone := matchStep_tells hst (orThrow_eq_ok.1 ho) hstep
        cases stop with
        | none => exact ih hone h
        | some fin' =>
          cases h
          exact hone
    · cases h
      exact hst

theorem matchSide_tells {budget : ℕ} {hint : Option OrderId} {out : Book × BookMatchResult}
    (hb : b.Tidy) (h : matchSide w b budget hint = .ok out) :
    b.Tells (eventMarks out.2.fillEvents) out.1 := by
  obtain ⟨⟨st, fin⟩, hwalk, h⟩ := bind_eq_ok.1 h
  obtain ⟨b₁, hescrow, h⟩ := bind_eq_ok.1 h
  obtain ⟨consumed, -, h⟩ := bind_eq_ok.1 h
  cases h
  have hstart : b.Tells (eventMarks (MatchState.start b budget).fillEvents) b := hb.tells
  have hwalked := matchWalk_tells hstart hwalk
  have hsettled := hwalked.tidy.still (escrowSubPending_terms hescrow)
    (escrowSubPending_rest hescrow)
  have hall := hwalked.trans hsettled
  rwa [List.append_nil] at hall

end Match

section Clean

variable {now minRemaining cap : ℕ} {st st' : CleanState}

theorem cleanStep_tells (hst : b₀.Tells (eventMarks st.events) st.book)
    (h : cleanStep now minRemaining st x o = .ok st') :
    b₀.Tells (eventMarks st'.events) st'.book := by
  unfold cleanStep at h
  split at h
  · obtain ⟨⟨b, ev⟩, hpark, h⟩ := bind_eq_ok.1 h
    cases h
    have hall := hst.trans (parkLimitOrderForClean_tells hst.tidy hpark)
    rwa [← eventMarks_append] at hall
  · cases h
    exact hst

theorem cleanWalk_tells {n : ℕ} {cur : Option OrderId} {fin : CleanEnd}
    (hst : b₀.Tells (eventMarks st.events) st.book)
    (h : cleanWalk now minRemaining cap n cur st = .ok (st', fin)) :
    b₀.Tells (eventMarks st'.events) st'.book := by
  induction n generalizing cur st with
  | zero =>
    cases cur with
    | none =>
      cases h
      exact hst
    | some x =>
      unfold cleanWalk at h
      split at h <;> (cases h; exact hst)
  | succ n ih =>
    cases cur with
    | none =>
      cases h
      exact hst
    | some x =>
      unfold cleanWalk at h
      split at h
      · cases h
        exact hst
      · obtain ⟨o, -, h⟩ := bind_eq_ok.1 h
        obtain ⟨st₁, hstep, h⟩ := bind_eq_ok.1 h
        exact ih (cleanStep_tells hst hstep) h

end Clean

end Walks

section Refunds

variable {owner sender : Addr} {st st' : RefundState} {x : OrderId} {p : PairStorage}
  {out : PairStorage × Response}

theorem RefundState.owe_book {b : Book} {side : LimitOrderSide} {n : ℕ}
    (h : st.owe b side n = .ok st') : st'.book = b := by
  obtain ⟨_, -, h⟩ := bind_eq_ok.1 h
  cases h
  rfl

theorem cancelOne_tells (hst : st.book.Tidy) (h : cancelOne owner st x = .ok st') :
    st.book.Tells [(x, .cancelled owner)] st'.book := by
  obtain ⟨o, ho, h⟩ := bind_eq_ok.1 h
  obtain ⟨_, howner, h⟩ := bind_eq_ok.1 h
  obtain ⟨⟨b, removed⟩, hunlink, h⟩ := bind_eq_ok.1 h
  have hsame : o.toOrderTerms = removed.toOrderTerms := Option.some.inj
    ((Book.terms_of_orders (orThrow_eq_ok.1 ho)).symm.trans (unlinkOrder_terms hunlink).1)
  have howned : removed.owner = owner := hsame ▸ ensure_eq_ok.1 howner
  rw [RefundState.owe_book h, ← howned]
  exact unlinkOrder_tells hst hunlink (ToldStep.cancelled _).told

theorem Book.Tidy.claim {b : Book} {r : ExpiredLimitRefund} (h : b.Tidy)
    (hclaim : b.expiredLimitClaims x = some r) : b.Tells [(x, .claimed)] (b.saveClaim x none) := by
  have hrow := h.row_of_claim hclaim
  have hlt := h.claim_lt x r hclaim
  have hgone : (b.saveClaim x none).orderState x = .gone :=
    Book.orderState_of_gone hrow (Function.update_self ..) hlt
  have htold := (ToldStep.claimed r).told
  rw [← hgone, ← Book.orderState_of_claim hrow hclaim] at htold
  have hterms : (b.saveClaim x none).terms = Function.update b.terms x none := by
    rw [← hrow, Function.update_eq_self]
    rfl
  exact h.edit hlt none hterms rfl rfl (.inr rfl) htold

theorem claimOne_tells (hst : st.book.Tidy) (h : claimOne owner st x = .ok st') :
    st.book.Tells [(x, .claimed)] st'.book := by
  obtain ⟨row, hrow, h⟩ := bind_eq_ok.1 h
  obtain ⟨_, -, h⟩ := bind_eq_ok.1 h
  rw [RefundState.owe_book h]
  exact hst.claim (orThrow_eq_ok.1 hrow)

theorem takeOuts_tells {mark : OrderMark} {takeOut : RefundState → OrderId →
      Except ContractError RefundState}
    (hone : ∀ st st' x, st.book.Tidy → takeOut st x = .ok st' →
      st.book.Tells [(x, mark)] st'.book) {ids : List OrderId} (hst : st.book.Tidy)
    (h : ids.foldlM takeOut st = .ok st') :
    st.book.Tells (ids.map fun id => (id, mark)) st'.book := by
  induction ids generalizing st with
  | nil =>
    cases h
    exact hst.tells
  | cons id ids ih =>
    rw [List.foldlM_cons] at h
    obtain ⟨st₁, hfirst, h⟩ := bind_eq_ok.1 h
    have htold := hone st st₁ id hst hfirst
    exact htold.trans (ih htold.tidy h)

theorem executeBatchRefund_tells {mark : OrderMark} {ids : List OrderId} {path : EscrowPath}
    {attributes : Attributes}
    {takeOut : Addr → RefundState → OrderId → Except ContractError RefundState}
    (hone : ∀ st st' x, st.book.Tidy → takeOut sender st x = .ok st' →
      st.book.Tells [(x, mark)] st'.book) (hp : p.book.Tidy)
    (h : executeBatchRefund p sender ids takeOut path attributes = .ok out) :
    p.book.Tells (ids.map fun id => (id, mark)) out.1.book ∧
      out.2.attributes = attributes ∧ out.2.events = [] := by
  obtain ⟨_, -, h⟩ := bind_eq_ok.1 h
  obtain ⟨st, hfold, h⟩ := bind_eq_ok.1 h
  obtain ⟨b₁, hask, h⟩ := bind_eq_ok.1 h
  obtain ⟨b₂, hbid, h⟩ := bind_eq_ok.1 h
  cases h
  have hstart : RefundState.book ⟨p.book, fun _ => 0⟩ = p.book := rfl
  have htaken := takeOuts_tells hone (hstart ▸ hp) hfold
  have hsettled := htaken.tidy.still
    ((escrowSubPending_terms hbid).trans (escrowSubPending_terms hask))
    ((escrowSubPending_rest hask).trans (escrowSubPending_rest hbid))
  have hall := htaken.trans hsettled
  rw [List.append_nil] at hall
  exact ⟨hall, rfl, rfl⟩

theorem executeCancelLimitOrder_tells (hp : p.book.Tidy)
    (h : executeCancelLimitOrder p sender x = .ok out) :
    ∃ owner, p.book.Tells [(x, .cancelled owner)] out.1.book ∧
      out.2.attributes = .cancelLimitOrder x owner ∧ out.2.events = [] := by
  obtain ⟨_, -, h⟩ := bind_eq_ok.1 h
  obtain ⟨_, -, h⟩ := bind_eq_ok.1 h
  obtain ⟨⟨b₁, removed⟩, hunlink, h⟩ := bind_eq_ok.1 h
  obtain ⟨b₂, hescrow, h⟩ := bind_eq_ok.1 h
  cases h
  have hgone := unlinkOrder_tells hp hunlink (ToldStep.cancelled _).told
  exact ⟨_, hgone.trans (hgone.tidy.still (escrowSub_terms hescrow) (escrowSub_rest hescrow)),
    rfl, rfl⟩

theorem executeClaimExpiredLimitOrder_tells (hp : p.book.Tidy)
    (h : executeClaimExpiredLimitOrder p sender x = .ok out) :
    p.book.Tells [(x, .claimed)] out.1.book ∧
      (∃ owner, out.2.attributes = .claimExpiredLimitOrder x owner) ∧ out.2.events = [] := by
  obtain ⟨row, hrow, h⟩ := bind_eq_ok.1 h
  obtain ⟨_, -, h⟩ := bind_eq_ok.1 h
  obtain ⟨b, hescrow, h⟩ := bind_eq_ok.1 h
  cases h
  have hstill := hp.still (escrowSub_terms hescrow) (escrowSub_rest hescrow)
  have hclaim : b.expiredLimitClaims x = some row := by
    rw [(escrowSub_rest hescrow).claims]
    exact orThrow_eq_ok.1 hrow
  exact ⟨hstill.trans (hstill.tidy.claim hclaim), ⟨_, rfl⟩, rfl⟩

theorem relinkLimitOrderPrice_tells {b b' : Book} {price : Decimal} {hint : Option OrderId}
    {steps : ℕ} (hb : b.Tidy) (h : relinkLimitOrderPrice b x price hint steps = .ok b') :
    b.Tells [] b' := by
  obtain ⟨o, ho, -⟩ := bind_eq_ok.1 h
  have hrow := Book.terms_of_orders (orThrow_eq_ok.1 ho)
  have hterms := relinkLimitOrderPrice_terms (orThrow_eq_ok.1 ho) h
  have hrest := relinkLimitOrderPrice_rest h
  have hmoved : b'.orderState x = .resting { o.toOrderTerms with price := price } :=
    Book.orderState_of_row (by rw [hterms, Function.update_self])
  have hstep : ToldStep (.resting o.toOrderTerms) none
    (.resting { o.toOrderTerms with price := price }) := .edited rfl rfl
  have htold := hstep.told
  rw [← hmoved, ← Book.orderState_of_row hrow] at htold
  refine hb.edit (hb.row_lt x _ hrow) none hterms ?_ hrest.nextId (.inr rfl) htold
  rw [hrest.claims, ← hb.disjoint x _ hrow, Function.update_eq_self]

end Refunds

/-- What a placed rung tells. -/
def PlacedRung.mark (owner : Addr) (side : LimitOrderSide) (rung : PlacedRung) :
    OrderId × OrderMark := (rung.id, .placed owner side rung.price)

/-- The order of a rung is as it was told to be. -/
def PlacedRung.Rests (owner : Addr) (side : LimitOrderSide) (rung : PlacedRung) (b : Book) : Prop :=
  ∃ t, b.terms rung.id = some t ∧ t.owner = owner ∧ t.side = side ∧ t.price = rung.price

/-- The slots of a batch against the book: a rung that went in rests under the id of its slot, and
the rest of the book is as it was. -/
structure Slots (c : BatchParams) (firstId : OrderId) (b : Book) (st : BatchState) : Prop where
  rest : b.KeepsRest st.book
  filled : ∀ i rung, st.placedByInput[i]? = some (some rung) →
    rung.id = firstId + i ∧ rung.Rests c.owner c.side st.book
  kept : ∀ y, (∀ i rung, st.placedByInput[i]? = some (some rung) → y ≠ firstId + i) →
    st.book.terms y = b.terms y

section Placements

variable {c : BatchParams} {firstId : OrderId} {b : Book} {st st' : BatchState}
  {plan : BatchRungPlan} {plans : List BatchRungPlan} {items : List LimitOrderPlacementItem}

/-- A rung of the block goes in under its own id, or leaves the book as it was. -/
theorem placeRung_slots (h : Slots c firstId b st) (hid : plan.id = firstId + plan.inputIndex)
    (hlt : plan.inputIndex < st.placedByInput.length) (hplace : placeRung c st plan = .ok st') :
    Slots c firstId b st' ∧ st'.placedByInput.length = st.placedByInput.length := by
  obtain ⟨_, -, hplace⟩ := bind_eq_ok.1 hplace
  obtain ⟨⟨makerFee, remaining⟩, -, hplace⟩ := bind_eq_ok.1 hplace
  obtain ⟨_, -, hplace⟩ := bind_eq_ok.1 hplace
  simp only [insertForBatch_eq] at hplace
  cases hins : insertOrder st.book plan.id (c.terms plan.item remaining) st.threadCursor
      (plan.item.hintAfterOrderId.or st.lastPlacedHint) plan.item.maxAdjustSteps with
  | error e =>
    rw [hins] at hplace
    cases e with
    | limitInsertStepsExceeded n =>
      cases hplace
      exact ⟨⟨h.rest, h.filled, h.kept⟩, rfl⟩
    | _ => cases hplace
  | ok out =>
    obtain ⟨b', outcome⟩ := out
    rw [hins] at hplace
    iterate 3 obtain ⟨_, -, hplace⟩ := bind_eq_ok.1 hplace
    cases hplace
    obtain ⟨hout, hrest⟩ := insertOrder_rest hins
    have hterms := insertOrder_terms hins
    refine ⟨⟨h.rest.trans hrest, fun i rung hi => ?_, fun y hy => ?_⟩, List.length_set⟩
    · rw [List.getElem?_set] at hi
      split_ifs at hi with hself
      · subst hself
        obtain rfl := Option.some.inj (Option.some.inj hi)
        refine ⟨hout.trans hid, c.terms plan.item remaining, ?_, rfl, rfl, rfl⟩
        rw [hterms, hout, Function.update_self]
      · obtain ⟨hrung, t, ht, hrests⟩ := h.filled i rung hi
        refine ⟨hrung, t, ?_, hrests⟩
        have hne : rung.id ≠ plan.id := by
          rw [hrung, hid]
          exact fun heq => hself (Nat.add_left_cancel heq).symm
        rwa [hterms, Function.update_of_ne hne]
    · have hne : y ≠ plan.id := by
        rw [hid]
        exact hy plan.inputIndex _ (List.getElem?_set_self hlt)
      rw [hterms, Function.update_of_ne hne]
      refine h.kept y fun i rung hi => ?_
      by_cases hself : plan.inputIndex = i
      · rw [← hself, ← hid]
        exact hne
      · exact hy i rung (by rwa [List.getElem?_set_ne hself])

theorem placeLoop_slots (h : Slots c firstId b st)
    (hplans : ∀ plan ∈ plans, plan.id = firstId + plan.inputIndex ∧
      plan.inputIndex < st.placedByInput.length)
    (hloop : plans.foldlM (placeRung c) st = .ok st') :
    Slots c firstId b st' ∧ st'.placedByInput.length = st.placedByInput.length := by
  induction plans generalizing st with
  | nil =>
    cases hloop
    exact ⟨h, rfl⟩
  | cons plan plans ih =>
    rw [List.foldlM_cons] at hloop
    obtain ⟨st₁, hfirst, hloop⟩ := bind_eq_ok.1 hloop
    obtain ⟨hid, hlt⟩ := hplans plan List.mem_cons_self
    obtain ⟨hslots, hlength⟩ := placeRung_slots h hid hlt hfirst
    rw [← hlength]
    refine ih hslots (fun plan' hplan => ?_) hloop
    rw [hlength]
    exact hplans plan' (List.mem_cons_of_mem _ hplan)

theorem placeRungs_slots (h : placeRungs c b firstId items = .ok st') :
    Slots c firstId b st' ∧ st'.placedByInput.length = items.length := by
  obtain ⟨plans, hplans, h⟩ := bind_eq_ok.1 h
  have hstart : Slots c firstId b
      ⟨b, List.replicate items.length none, 0, 0, 0, 0, none, none⟩ := by
    refine ⟨.refl b, fun i rung hi => ?_, fun _ _ => rfl⟩
    rw [List.getElem?_replicate] at hi
    split_ifs at hi
    cases Option.some.inj hi
  have hloop := placeLoop_slots hstart (fun plan hplan => ?_) h
  · rwa [List.length_replicate] at hloop
  · rw [List.mem_insertionSort, numberRungs_eq_ok hplans] at hplan
    obtain ⟨i, hi, rfl⟩ := List.mem_mapIdx.1 hplan
    rw [List.length_replicate]
    exact ⟨by simp, by simpa using hi⟩

/-- What the filled slots tell of one order. -/
theorem marksOf_slots {owner : Addr} {side : LimitOrderSide} {x : OrderId}
    {slots : List (Option PlacedRung)}
    (hid : ∀ i rung, slots[i]? = some (some rung) → rung.id = firstId + i) :
    marksOf x (slots.reduceOption.map (PlacedRung.mark owner side)) =
      if firstId ≤ x then
        (slots[x - firstId]?.join).toList.map fun rung => .placed owner side rung.price
      else [] := by
  induction slots generalizing firstId with
  | nil => simp
  | cons slot slots ih =>
    have hnext : ∀ i rung, slots[i]? = some (some rung) → rung.id = firstId + 1 + i := by
      intro i rung hi
      rw [hid (i + 1) rung hi, Nat.add_assoc, Nat.add_comm 1]
    have hrest := ih hnext
    have hhead : marksOf x (slot.toList.map (PlacedRung.mark owner side)) =
        if firstId = x then slot.toList.map fun rung => .placed owner side rung.price else [] := by
      cases slot with
      | none => simp
      | some rung =>
        have hfirst := hid 0 rung rfl
        by_cases hx : firstId = x
        · simp [marksOf, PlacedRung.mark, hfirst, hx]
        · simp [marksOf, PlacedRung.mark, hfirst, hx]
    have hsplit : (slot :: slots).reduceOption = slot.toList ++ slots.reduceOption := by
      cases slot with
      | none => exact List.reduceOption_cons_of_none slots
      | some rung => exact List.reduceOption_cons_of_some rung slots
    rw [hsplit, List.map_append, marksOf_append, hhead, hrest]
    rcases lt_trichotomy x firstId with hlt | rfl | hlt
    · simp [Nat.not_le.2 hlt, Nat.not_le.2 (Nat.lt_succ_of_lt hlt), (Nat.ne_of_lt hlt).symm]
    · simp
    · obtain ⟨i, rfl⟩ := Nat.exists_eq_add_of_lt hlt
      have hshift : ∀ a k : ℕ, a + k + 1 - (a + 1) = k ∧ a + k + 1 - a = k + 1 := by omega
      have hle : ∀ a k : ℕ, a + 1 ≤ a + k + 1 ∧ a ≤ a + k + 1 ∧ a ≠ a + k + 1 := by omega
      simp [hshift firstId i, hle firstId i]

/-- The ids of a block are handed out at once; each rung that went in is told, and the ids of the
others are gone. -/
theorem Slots.tells (hb : b.Tidy) {n : ℕ}
    (h : Slots c b.orderNextId { b with orderNextId := b.orderNextId + n } st)
    (hlength : st.placedByInput.length = n) :
    b.Tells (st.placedByInput.reduceOption.map (PlacedRung.mark c.owner c.side)) st.book := by
  have hnext : st.book.orderNextId = b.orderNextId + n := h.rest.nextId
  have hclaims : st.book.expiredLimitClaims = b.expiredLimitClaims := h.rest.claims
  have hclaim : ∀ x, b.orderNextId ≤ x → st.book.expiredLimitClaims x = none := by
    intro x hle
    by_contra hne
    obtain ⟨r, hr⟩ := Option.ne_none_iff_exists'.1 hne
    exact absurd (hb.claim_lt x r (hclaims ▸ hr)) (not_lt.2 hle)
  have hrow : ∀ x t, st.book.terms x = some t → b.terms x = some t ∨
      ∃ i < n, x = b.orderNextId + i := by
    intro x t ht
    by_cases hslot : ∃ i rung, st.placedByInput[i]? = some (some rung) ∧ x = b.orderNextId + i
    · obtain ⟨i, rung, hi, hx⟩ := hslot
      obtain ⟨hlt, -⟩ := List.getElem?_eq_some_iff.1 hi
      exact .inr ⟨i, hlength ▸ hlt, hx⟩
    · have hkept := h.kept x fun i rung hi hx => hslot ⟨i, rung, hi, hx⟩
      exact .inl (hkept ▸ ht)
  have htidy : st.book.Tidy := by
    refine ⟨fun x t ht => ?_, fun x r hr => ?_, fun x t ht => ?_⟩
    · rw [hnext]
      rcases hrow x t ht with hold | ⟨i, hi, rfl⟩
      · exact Nat.lt_add_right n (hb.row_lt x t hold)
      · exact Nat.add_lt_add_left hi _
    · rw [hnext]
      rw [hclaims] at hr
      exact Nat.lt_add_right n (hb.claim_lt x r hr)
    · rcases hrow x t ht with hold | ⟨i, hi, rfl⟩
      · rw [hclaims]
        exact hb.disjoint x t hold
      · exact hclaim _ (Nat.le_add_right _ i)
  refine ⟨htidy, fun x => ?_⟩
  rw [marksOf_slots fun i rung hi => (h.filled i rung hi).1]
  rcases lt_or_ge x b.orderNextId with hlt | hle
  · have hkept : st.book.terms x = b.terms x := h.kept x fun i rung _ hx =>
      absurd (Nat.le_add_right _ i) (Nat.not_le.2 (hx ▸ hlt))
    have hstate : st.book.orderState x = b.orderState x := by
      simp only [Book.orderState, hkept, hclaims, hnext, hlt, Nat.lt_add_right n hlt]
    rw [if_neg (Nat.not_le.2 hlt), hstate]
    exact .refl _
  · obtain ⟨i, rfl⟩ := Nat.exists_eq_add_of_le hle
    rw [if_pos hle, Nat.add_sub_cancel_left, Book.orderState_of_unborn hb hle]
    have hempty : (∀ rung, st.placedByInput[i]? ≠ some (some rung)) →
        st.book.terms (b.orderNextId + i) = none := by
      intro hnone
      by_contra hne
      obtain ⟨t, ht⟩ := Option.ne_none_iff_exists'.1 hne
      have hkept := h.kept (b.orderNextId + i) fun j rung hj hx =>
        hnone rung (Nat.add_left_cancel hx ▸ hj)
      exact absurd (hb.row_lt _ t (hkept ▸ ht)) (not_lt.2 hle)
    cases hslot : st.placedByInput[i]? with
    | none =>
      have hout : n ≤ i := hlength ▸ List.getElem?_eq_none_iff.1 hslot
      rw [Book.orderState_of_unborn htidy (by
        rw [hnext]
        exact Nat.add_le_add_left hout _)]
      exact .refl _
    | some slot =>
      obtain ⟨hin, -⟩ := List.getElem?_eq_some_iff.1 hslot
      cases slot with
      | none =>
        have hgone : st.book.orderState (b.orderNextId + i) = .gone := by
          refine Book.orderState_of_gone (hempty fun rung hi => ?_) (hclaim _ hle) ?_
          · rw [hslot] at hi
            cases Option.some.inj hi
          · rw [hnext]
            exact Nat.add_lt_add_left (hlength ▸ hin) _
        rw [hgone]
        exact ToldStep.skipped.told
      | some rung =>
        obtain ⟨hid, t, ht, howner, hside, hprice⟩ := h.filled i rung hslot
        rw [hid] at ht
        rw [Book.orderState_of_row ht]
        have hplaced := (ToldStep.placed t).told
        rwa [howner, hside, hprice] at hplaced

end Placements

section OneCall

variable {p : PairStorage} {q : Querier} {env : Env} {sender owner offerToken : Addr} {amount : ℕ}
  {out : PairStorage × Response}

theorem bookEscrow_tells {st : BatchState} {side : LimitOrderSide} {b : Book} (hst : st.book.Tidy)
    (h : st.bookEscrow side = .ok b) : st.book.Tells [] b := by
  unfold BatchState.bookEscrow at h
  split_ifs at h with hzero
  · cases h
    exact hst.tells
  · exact hst.still (escrowAdd_terms h) (escrowAdd_rest h)

theorem executePlaceLimitOrdersBatch_tells {side : LimitOrderSide}
    {orders : List LimitOrderPlacementItem} (hp : p.book.Tidy)
    (h : executePlaceLimitOrdersBatch p q env offerToken owner amount side orders = .ok out) :
    ∃ report, out.2.attributes = .placeLimitOrderBatch report ∧ out.2.events = [] ∧
      p.book.Tells (report.placed.map (PlacedRung.mark report.owner report.side)) out.1.book := by
  iterate 4 obtain ⟨_, -, h⟩ := bind_eq_ok.1 h
  obtain ⟨⟨b, firstId⟩, hreserve, h⟩ := bind_eq_ok.1 h
  obtain ⟨_, -, hreserve⟩ := bind_eq_ok.1 hreserve
  obtain ⟨_, -, hreserve⟩ := bind_eq_ok.1 hreserve
  cases hreserve
  obtain ⟨st, hplace, h⟩ := bind_eq_ok.1 h
  obtain ⟨b, hescrow, h⟩ := bind_eq_ok.1 h
  obtain ⟨_, -, h⟩ := bind_eq_ok.1 h
  obtain ⟨_, -, h⟩ := bind_eq_ok.1 h
  cases h
  obtain ⟨hslots, hlength⟩ := placeRungs_slots hplace
  have hplaced := hslots.tells hp hlength
  have hall := hplaced.trans (bookEscrow_tells hplaced.tidy hescrow)
  rw [List.append_nil] at hall
  exact ⟨_, rfl, rfl, hall⟩

theorem executeLegs_tells {side : LimitOrderSide} {plan : SwapPlan} {bps : ℕ} {legs : SwapLegs}
    (hp : p.book.Tidy) (h : executeLegs p q env side plan bps = .ok legs) :
    p.book.Tells (eventMarks legs.bookMatch.fillEvents) legs.book := by
  obtain ⟨⟨b, result⟩, hbook, h⟩ := bind_eq_ok.1 h
  iterate 3 obtain ⟨_, -, h⟩ := bind_eq_ok.1 h
  cases h
  unfold executeBookLeg at hbook
  split at hbook
  · cases side <;> exact matchSide_tells hp hbook
  · cases hbook
    exact hp.tells

end OneCall

namespace WasmEvents

/-- What an emission tells of orders. -/
def PairEmission.marks : PairEmission → List (OrderId × OrderMark)
  | place report => report.placed.map (PlacedRung.mark report.owner report.side)
  | cancel orderId owner => [(orderId, .cancelled owner)]
  | cancelBatch orderIds owner => orderIds.map fun id => (id, .cancelled owner)
  | claim orderId _ => [(orderId, .claimed)]
  | claimBatch orderIds _ => orderIds.map fun id => (id, .claimed)
  | book event => event.event.mark.toList
  | _ => []

def responseMarks (response : Response) (bookLeg : Bool) : List (OrderId × OrderMark) :=
  (responseEmissions response bookLeg).flatMap PairEmission.marks

theorem flatMap_marks_book (events : List BookEvent) :
    (events.map PairEmission.book).flatMap PairEmission.marks =
      eventMarks (events.map BookEvent.event) := by
  induction events with
  | nil => rfl
  | cons e events ih =>
    rw [List.map_cons, List.flatMap_cons, ih, List.map_cons]
    unfold eventMarks
    cases hmark : e.event.mark <;> simp [PairEmission.marks, hmark]

end WasmEvents

open WasmEvents

section Dispatch

variable {p : PairStorage} {q : Querier} {env : Env} {sender : Addr} {msg : ExecuteMsg}
  {out : PairStorage × Response} {bookLeg : Bool}

theorem executeSwap_tells {offerToken : Addr} {inputAmount : ℕ} {args : SwapArgs}
    (hp : p.book.Tidy) (h : executeSwap p q env offerToken sender inputAmount args = .ok out) :
    p.book.Tells (responseMarks out.2 bookLeg) out.1.book := by
  obtain ⟨plan, -, h⟩ := bind_eq_ok.1 h
  obtain ⟨p₁, hp₁, h⟩ := bind_eq_ok.1 h
  obtain ⟨oracle, -, hp₁⟩ := bind_eq_ok.1 hp₁
  cases hp₁
  obtain ⟨side, -, h⟩ := bind_eq_ok.1 h
  obtain ⟨receiver, -, h⟩ := bind_eq_ok.1 h
  obtain ⟨⟨cache, bps, deregisterMsgs⟩, -, h⟩ := bind_eq_ok.1 h
  obtain ⟨legs, hlegs, h⟩ := bind_eq_ok.1 h
  obtain ⟨s, -, h⟩ := bind_eq_ok.1 h
  have htold := executeLegs_tells (by rwa [openTxSwapScope_book]) hlegs
  rw [openTxSwapScope_book] at htold
  cases h
  have hevents : ∀ events index,
      (stampSwapIndexOnFillEvents events index).map BookEvent.event = events := by
    intro events index
    induction events with
    | nil => rfl
    | cons e events ih => cases e <;> simpa [stampSwapIndexOnFillEvents] using ih
  have hmarks : ∀ messages report index, responseMarks ⟨messages, stampSwapIndexOnFillEvents
      legs.bookMatch.fillEvents index, .swap report⟩ bookLeg =
        eventMarks legs.bookMatch.fillEvents := by
    intro messages report index
    rw [responseMarks, responseEmissions, List.flatMap_cons, flatMap_marks_book, hevents]
    rfl
  rw [hmarks, advanceTxSwapIndex_book]
  exact htold

theorem placement_marks {report : PlacementReport} (hattr : out.2.attributes =
    .placeLimitOrderBatch report) (hevents : out.2.events = []) : responseMarks out.2 bookLeg =
      report.placed.map (PlacedRung.mark report.owner report.side) := by
  simp [responseMarks, responseEmissions, hattr, hevents, PairEmission.marks]

/-- A message that leaves the book alone tells nothing. -/
theorem tells_of_still (hp : p.book.Tidy) (hbook : out.1.book = p.book)
    (hmarks : responseMarks out.2 bookLeg = []) :
    p.book.Tells (responseMarks out.2 bookLeg) out.1.book := by
  rw [hbook, hmarks]
  exact hp.tells

theorem receiveHandler_tells {token user : Addr} {amount : ℕ} {hook : Cw20HookMsg}
    (hp : p.book.Tidy) (h : receiveHandler p q env token user amount hook = .ok out) :
    p.book.Tells (responseMarks out.2 bookLeg) out.1.book := by
  cases hook with
  | swap args deadline =>
    obtain ⟨_, -, h⟩ := bind_eq_ok.1 h
    exact executeSwap_tells hp h
  | placeLimitOrderBatch side orders =>
    obtain ⟨report, hattr, hevents, htold⟩ := executePlaceLimitOrdersBatch_tells hp h
    rwa [placement_marks hattr hevents]
  | placeLimitOrderLadder ladder =>
    obtain ⟨_, -, h⟩ := bind_eq_ok.1 h
    obtain ⟨_, -, h⟩ := bind_eq_ok.1 h
    obtain ⟨report, hattr, hevents, htold⟩ := executePlaceLimitOrdersBatch_tells hp h
    rwa [placement_marks hattr hevents]
  | withdrawLiquidity minAssets =>
    obtain ⟨_, -, h⟩ := bind_eq_ok.1 h
    obtain ⟨_, -, h⟩ := bind_eq_ok.1 h
    obtain ⟨p₁, hp₁, h⟩ := bind_eq_ok.1 h
    obtain ⟨oracle, -, hp₁⟩ := bind_eq_ok.1 hp₁
    cases hp₁
    iterate 6 obtain ⟨_, -, h⟩ := bind_eq_ok.1 h
    cases h
    exact tells_of_still hp rfl rfl

/-- A call tells of every order what it did to it. -/
theorem execute_tells (hp : p.book.Tidy) (h : execute p q env sender msg = .ok out) :
    p.book.Tells (responseMarks out.2 bookLeg) out.1.book := by
  cases msg with
  | receive msg =>
    iterate 5 obtain ⟨_, -, h⟩ := bind_eq_ok.1 h
    exact receiveHandler_tells hp h
  | provideLiquidity assets tolerance receiver deadline =>
    iterate 6 obtain ⟨_, -, h⟩ := bind_eq_ok.1 h
    obtain ⟨p₁, hp₁, h⟩ := bind_eq_ok.1 h
    obtain ⟨oracle, -, hp₁⟩ := bind_eq_ok.1 hp₁
    cases hp₁
    iterate 8 obtain ⟨_, -, h⟩ := bind_eq_ok.1 h
    cases h
    exact tells_of_still hp rfl rfl
  | swap offerAsset =>
    obtain ⟨info, amount⟩ := offerAsset
    cases info with
    | token _ => cases h
    | nativeToken _ => cases h
  | cancelLimitOrders orderIds =>
    obtain ⟨_, -, h⟩ := bind_eq_ok.1 h
    obtain ⟨htold, hattr, hevents⟩ := executeBatchRefund_tells
      (fun _ _ _ => cancelOne_tells) hp h
    have hmarks : responseMarks out.2 bookLeg = orderIds.map fun id => (id, .cancelled sender) := by
      simp [responseMarks, responseEmissions, hattr, hevents, PairEmission.marks]
    rwa [hmarks]
  | claimExpiredLimitOrders orderIds =>
    obtain ⟨_, -, h⟩ := bind_eq_ok.1 h
    obtain ⟨htold, hattr, hevents⟩ := executeBatchRefund_tells (fun _ _ _ => claimOne_tells) hp h
    have hmarks : responseMarks out.2 bookLeg = orderIds.map fun id => (id, .claimed) := by
      simp [responseMarks, responseEmissions, hattr, hevents, PairEmission.marks]
    rwa [hmarks]
  | cancelLimitOrder orderId =>
    obtain ⟨_, -, h⟩ := bind_eq_ok.1 h
    obtain ⟨owner, htold, hattr, hevents⟩ := executeCancelLimitOrder_tells hp h
    have hmarks : responseMarks out.2 bookLeg = [(orderId, .cancelled owner)] := by
      simp [responseMarks, responseEmissions, hattr, hevents, PairEmission.marks]
    rwa [hmarks]
  | claimExpiredLimitOrder orderId =>
    obtain ⟨_, -, h⟩ := bind_eq_ok.1 h
    obtain ⟨htold, ⟨owner, hattr⟩, hevents⟩ := executeClaimExpiredLimitOrder_tells hp h
    have hmarks : responseMarks out.2 bookLeg = [(orderId, .claimed)] := by
      simp [responseMarks, responseEmissions, hattr, hevents, PairEmission.marks]
    rwa [hmarks]
  | updateLimitOrderPrice orderId price hint steps =>
    iterate 7 obtain ⟨_, -, h⟩ := bind_eq_ok.1 h
    obtain ⟨b, hrelink, h⟩ := bind_eq_ok.1 h
    cases h
    exact relinkLimitOrderPrice_tells hp hrelink
  | cleanLimitBook side maxOrders startHint maxSteps =>
    obtain ⟨_, -, h⟩ := bind_eq_ok.1 h
    obtain ⟨_, -, h⟩ := bind_eq_ok.1 h
    obtain ⟨⟨st, fin⟩, hclean, h⟩ := bind_eq_ok.1 h
    obtain ⟨_, -, hclean⟩ := bind_eq_ok.1 hclean
    obtain ⟨_, -, hclean⟩ := bind_eq_ok.1 hclean
    have hstart : p.book.Tells (eventMarks []) p.book := hp.tells
    have htold := cleanWalk_tells hstart hclean
    cases h
    rw [responseMarks, responseEmissions, List.flatMap_cons, flatMap_marks_book, List.map_map]
    simpa [PairEmission.marks, Function.comp_def] using htold
  | sweep token recipient =>
    iterate 5 obtain ⟨_, -, h⟩ := bind_eq_ok.1 h
    cases h
    exact tells_of_still hp rfl rfl
  | increaseObservationCardinality n | setPaused paused | updateLimitCleanConfig config =>
    obtain ⟨_, -, h⟩ := bind_eq_ok.1 h
    cases h
    exact tells_of_still hp rfl rfl
  | updateFee feeBps | updateTreasury treasury | updateHooks hooks | setDiscountRegistry registry
  | refreshAssetCodeIds | setLpAdmin admin | updateLimitOrderConfig n =>
    obtain ⟨_, -, h⟩ := bind_eq_ok.1 h
    obtain ⟨_, -, h⟩ := bind_eq_ok.1 h
    cases h
    exact tells_of_still hp rfl rfl

end Dispatch

end Cl8yDex
