import Cl8yDex.BookLinks
import Cl8yDex.LimitOrders
import Mathlib.Logic.Relation

/-!
# The stored terms under the book's operations

Linking and unlinking rewrite pointers of neighbours, never their terms, whatever shape the book is
in. So an insert adds the terms of one order, an unlink drops one, and all other operations of
makers and keepers leave a book whose terms were there before.
-/

namespace Cl8yDex

open Outcome

section Edits

variable {b b' b'' : Book} {x : OrderId} {o : LimitOrder} {t : OrderTerms}

/-- Every order of `b'` is in `b` with the same terms. -/
def Book.Shrinks (b b' : Book) : Prop := ∀ x t, b'.terms x = some t → b.terms x = some t

theorem Book.Shrinks.refl (b : Book) : b.Shrinks b := fun _ _ h => h

theorem Book.Shrinks.trans (h : b.Shrinks b') (h' : b'.Shrinks b'') : b.Shrinks b'' :=
  fun x t ht => h x t (h' x t ht)

theorem Book.Shrinks.of_eq (h : b'.terms = b.terms) : b.Shrinks b' := by
  intro x t ht
  rwa [h] at ht

theorem Book.Shrinks.of_drop (h : b'.terms = Function.update b.terms x none) : b.Shrinks b' := by
  intro y t ht
  rw [h] at ht
  by_cases hy : y = x
  · rw [hy, Function.update_self] at ht
    cases ht
  · rwa [Function.update_of_ne hy] at ht

/-- A neighbour's pointer is rewritten. -/
theorem updateOrder_terms {what : String} {f : LimitOrder → LimitOrder}
    (h : b.updateOrder x what f = .ok b') (hf : ∀ o, (f o).toOrderTerms = o.toOrderTerms) :
    b'.terms = b.terms := by
  obtain ⟨o, ho, h⟩ := bind_eq_ok.1 h
  cases h
  rw [Book.terms_save, hf]
  exact Function.update_eq_self_iff.2 (Book.terms_of_orders (orThrow_eq_ok.1 ho)).symm

theorem updateNeighbor_terms {id : Option OrderId} {what : String} {f : LimitOrder → LimitOrder}
    (h : b.updateNeighbor id what f = .ok b') (hf : ∀ o, (f o).toOrderTerms = o.toOrderTerms) :
    b'.terms = b.terms := by
  cases id with
  | none =>
      cases h
      rfl
  | some x => exact updateOrder_terms h hf

theorem linkPrev_terms {side : LimitOrderSide} {prev : Option OrderId}
    (h : b.linkPrev x side prev = .ok b') : b'.terms = b.terms := by
  cases prev with
  | none =>
      cases h
      rfl
  | some p => exact updateOrder_terms h fun _ => rfl

theorem linkOrder_terms {prev next : Option OrderId} (h : b.linkOrder x t prev next = .ok b') :
    b'.terms = Function.update b.terms x (some t) := by
  obtain ⟨b₁, hprev, h⟩ := bind_eq_ok.1 h
  have hnext := updateNeighbor_terms h fun _ => rfl
  rw [hnext, linkPrev_terms hprev, Book.terms_save]

theorem bypassOrder_terms (h : b.bypassOrder x o = .ok b') : b'.terms = b.terms := by
  obtain ⟨b₁, hprev, h⟩ := bind_eq_ok.1 h
  have hnext := updateNeighbor_terms h fun _ => rfl
  rw [hnext, updateNeighbor_terms hprev fun _ => rfl]
  split_ifs <;> rfl

theorem unlinkOrder_terms (h : unlinkOrder b x = .ok (b', o)) :
    b.terms x = some o.toOrderTerms ∧ b'.terms = Function.update b.terms x none := by
  obtain ⟨o', ho, h⟩ := bind_eq_ok.1 h
  obtain ⟨b₁, hbypass, h⟩ := bind_eq_ok.1 h
  cases h
  rw [Book.terms_remove, bypassOrder_terms hbypass]
  exact ⟨Book.terms_of_orders (orThrow_eq_ok.1 ho), rfl⟩

theorem unlinkOrder_shrinks (h : unlinkOrder b x = .ok (b', o)) : b.Shrinks b' :=
  .of_drop (unlinkOrder_terms h).2

theorem escrowAdd_terms {side : LimitOrderSide} {amount : ℕ}
    (h : b.escrowAdd side amount = .ok b') : b'.terms = b.terms := by
  obtain ⟨esc, -, h⟩ := bind_eq_ok.1 h
  cases h
  rfl

theorem escrowSub_terms {side : LimitOrderSide} {amount : ℕ} {path : EscrowPath}
    (h : b.escrowSub side amount path = .ok b') : b'.terms = b.terms := by
  obtain ⟨esc, -, h⟩ := bind_eq_ok.1 h
  cases h
  rfl

theorem escrowSubPending_terms {side : LimitOrderSide} {amount : ℕ} {path : EscrowPath}
    (h : b.escrowSubPending side amount path = .ok b') : b'.terms = b.terms := by
  unfold Book.escrowSubPending at h
  split_ifs at h with hzero
  · cases h
    rfl
  · exact escrowSub_terms h

theorem insertOrder_terms {cursor : Option InsertThreadCursor} {hint : Option OrderId}
    {steps : ℕ} {out : Book × BatchInsertOutcome}
    (h : insertOrder b x t cursor hint steps = .ok out) :
    out.1.terms = Function.update b.terms x (some t) := by
  obtain ⟨found, -, h⟩ := bind_eq_ok.1 h
  obtain ⟨b₁, hlink, h⟩ := bind_eq_ok.1 h
  cases h
  exact linkOrder_terms hlink

/-- A reprice stores the order's terms at the new price. -/
theorem relinkLimitOrderPrice_terms {price : Decimal} {hint : Option OrderId} {steps : ℕ}
    (ho : b.orders x = some o) (h : relinkLimitOrderPrice b x price hint steps = .ok b') :
    b'.terms = Function.update b.terms x (some { o.toOrderTerms with price := price }) := by
  have hrow := Book.terms_of_orders ho
  obtain ⟨existing, hexisting, h⟩ := bind_eq_ok.1 h
  obtain rfl : o = existing := Option.some.inj (ho.symm.trans (orThrow_eq_ok.1 hexisting))
  split_ifs at h with hsame
  · cases h
    rw [← hsame]
    exact (Function.update_eq_self_iff.2 hrow.symm).symm
  · obtain ⟨⟨b₁, detached⟩, hdetach, h⟩ := bind_eq_ok.1 h
    obtain ⟨o', ho', hdetach⟩ := bind_eq_ok.1 hdetach
    obtain rfl : o = o' := Option.some.inj (ho.symm.trans (orThrow_eq_ok.1 ho'))
    obtain ⟨b₂, hbypass, hdetach⟩ := bind_eq_ok.1 hdetach
    cases hdetach
    obtain ⟨found, -, h⟩ := bind_eq_ok.1 h
    rw [linkOrder_terms h, Book.terms_save, bypassOrder_terms hbypass, Function.update_idem]

theorem parkLimitOrderForClean_terms {reason : ExpiredLimitParkReason} {e : Option ℕ}
    {out : Book × MatchEvent} (h : parkLimitOrderForClean b x reason e = .ok out) :
    out.1.terms = Function.update b.terms x none := by
  obtain ⟨_, -, h⟩ := bind_eq_ok.1 h
  obtain ⟨⟨b₁, removed⟩, hunlink, h⟩ := bind_eq_ok.1 h
  cases h
  exact (unlinkOrder_terms hunlink).2

theorem parkExpiredLimitOrderForClaim_terms {now : ℕ} {out : Book × MatchEvent}
    (h : parkExpiredLimitOrderForClaim b x now = .ok out) :
    out.1.terms = Function.update b.terms x none := by
  obtain ⟨o, -, h⟩ := bind_eq_ok.1 h
  obtain ⟨_, -, h⟩ := bind_eq_ok.1 h
  exact parkLimitOrderForClean_terms h

end Edits

end Cl8yDex

/-!
## The visits of the two walks

One turn of a loop takes the cursor from an order to the one behind it. A match and a clean are the
turns they make one after the other, whichever of their caps ends them.
-/

namespace Cl8yDex

open Outcome Relation

/-- One turn of a match that goes on to the next order. -/
inductive MatchVisit (w : WalkParams) :
    Option OrderId × MatchState → Option OrderId × MatchState → Prop
  | pass {st st' : MatchState} {x : OrderId} {o : LimitOrder} (ho : st.book.orders x = some o)
      (h : matchStep w st x o = .ok (st', none)) : MatchVisit w (some x, st) (o.next, st')

/-- One turn of a clean: the order stays or is parked. -/
inductive CleanVisit (now minRemaining : ℕ) :
    Option OrderId × Book → Option OrderId × Book → Prop
  | keep {b : Book} {x : OrderId} {o : LimitOrder} (ho : b.orders x = some o)
      (h : cleanReason now minRemaining o.toOrderTerms = none) :
      CleanVisit now minRemaining (some x, b) (o.next, b)
  | park {b b' : Book} {x : OrderId} {o : LimitOrder} {reason : ExpiredLimitParkReason}
      {ev : MatchEvent} (ho : b.orders x = some o)
      (h : cleanReason now minRemaining o.toOrderTerms = some reason)
      (hpark : parkLimitOrderForClean b x reason (if reason = .expired then o.expiresAt else none) =
        .ok (b', ev)) : CleanVisit now minRemaining (some x, b) (o.next, b')

/-- A match of `b` before its first turn. -/
def MatchState.start (b : Book) (budget : ℕ) : MatchState := ⟨b, ⟨budget, 0, 0, 0⟩, 0, 0, 0, [], []⟩

section Match

variable {w : WalkParams} {st st' : MatchState} {x : OrderId} {o : LimitOrder} {fin : WalkEnd}

/-- A turn that ends the walk leaves its state as it was. -/
theorem matchStep_ends (h : matchStep w st x o = .ok (st', some fin)) : st' = st := by
  obtain ⟨v, -, h⟩ := bind_eq_ok.1 h
  cases v with
  | exhausted =>
      cases h
      rfl
  | worse =>
      cases h
      rfl
  | expired =>
      obtain ⟨st₁, -, h⟩ := bind_eq_ok.1 h
      cases h
  | blacklisted =>
      obtain ⟨st₁, -, h⟩ := bind_eq_ok.1 h
      cases h
  | unfillable =>
      obtain ⟨st₁, -, h⟩ := bind_eq_ok.1 h
      cases h
  | fill offer taken =>
      obtain ⟨st₁, -, h⟩ := bind_eq_ok.1 h
      cases h
  | wrongSide => cases h
  | skip => cases h

theorem matchWalk_visits {n : ℕ} {cur : Option OrderId}
    (h : matchWalk w n cur st = .ok (st', fin)) :
    ∃ cur', ReflTransGen (MatchVisit w) (cur, st) (cur', st') := by
  induction n generalizing cur st with
  | zero =>
      cases h
      exact ⟨cur, .refl⟩
  | succ n ih =>
      unfold matchWalk at h
      split_ifs at h with hroom
      · cases cur with
        | none =>
            cases h
            exact ⟨none, .refl⟩
        | some x =>
            obtain ⟨o, ho, h⟩ := bind_eq_ok.1 h
            obtain ⟨⟨st₁, stop⟩, hstep, h⟩ := bind_eq_ok.1 h
            cases stop with
            | none =>
                obtain ⟨cur', hrun⟩ := ih h
                exact ⟨cur', .head (.pass (orThrow_eq_ok.1 ho) hstep) hrun⟩
            | some fin' =>
                cases h
                rw [matchStep_ends hstep]
                exact ⟨some x, .refl⟩
      · cases h
        exact ⟨cur, .refl⟩

/-- The book after a match is the one its last turn left, with the escrow taken from it. -/
theorem matchSide_visits {b : Book} {budget : ℕ} {hint : Option OrderId}
    {out : Book × BookMatchResult} (h : matchSide w b budget hint = .ok out) :
    ∃ cur st, ReflTransGen (MatchVisit w)
        (resolveMatchStartHint b hint w.side, .start b budget) (cur, st) ∧
      out.1.terms = st.book.terms := by
  obtain ⟨⟨st, fin⟩, hwalk, h⟩ := bind_eq_ok.1 h
  obtain ⟨b₁, hescrow, h⟩ := bind_eq_ok.1 h
  obtain ⟨consumed, -, h⟩ := bind_eq_ok.1 h
  cases h
  obtain ⟨cur, hrun⟩ := matchWalk_visits hwalk
  exact ⟨cur, st, hrun, escrowSubPending_terms hescrow⟩

end Match

section Clean

variable {now minRemaining cap : ℕ} {st st' : CleanState} {x : OrderId} {o : LimitOrder}
  {fin : CleanEnd}

theorem cleanStep_visits (ho : st.book.orders x = some o)
    (h : cleanStep now minRemaining st x o = .ok st') :
    CleanVisit now minRemaining (some x, st.book) (o.next, st'.book) := by
  unfold cleanStep at h
  cases hreason : cleanReason now minRemaining o.toOrderTerms with
  | none =>
      rw [hreason] at h
      cases h
      exact .keep ho hreason
  | some reason =>
      rw [hreason] at h
      obtain ⟨⟨b', ev⟩, hpark, h⟩ := bind_eq_ok.1 h
      cases h
      exact .park ho hreason hpark

/-- A clean stops at the cursor it returns, and says so exactly when there is one. -/
theorem cleanWalk_visits {n : ℕ} {cur : Option OrderId}
    (h : cleanWalk now minRemaining cap n cur st = .ok (st', fin)) :
    ReflTransGen (CleanVisit now minRemaining) (cur, st.book) (fin.resumeCursor, st'.book) ∧
      ((fin.capHit = true ∨ fin.scanCapped = true) ↔ fin.resumeCursor.isSome = true) := by
  induction n generalizing cur st with
  | zero =>
      cases cur with
      | none =>
          cases h
          exact ⟨.refl, by decide⟩
      | some x =>
          unfold cleanWalk at h
          split_ifs at h with hcap
          · cases h
            exact ⟨.refl, by simp⟩
          · cases h
            exact ⟨.refl, by simp⟩
  | succ n ih =>
      cases cur with
      | none =>
          cases h
          exact ⟨.refl, by decide⟩
      | some x =>
          unfold cleanWalk at h
          split_ifs at h with hcap
          · cases h
            exact ⟨.refl, by simp⟩
          · obtain ⟨o, ho, h⟩ := bind_eq_ok.1 h
            obtain ⟨st₁, hstep, h⟩ := bind_eq_ok.1 h
            obtain ⟨hrun, hflags⟩ := ih h
            exact ⟨.head (cleanStep_visits (orThrow_eq_ok.1 ho) hstep) hrun, hflags⟩

end Clean

end Cl8yDex
