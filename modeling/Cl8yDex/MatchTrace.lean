import Cl8yDex.MatchRefines

/-!
# The visits of a match walk

A walk looks at the orders of its queue one after the other. `Passed` lists the orders it has looked
at without ending, each with the budget it met and the verdict it got, and says what the walk's
totals are afterwards. The read-only walk is determined by that list.
-/

namespace Cl8yDex

open Outcome DoublyLinked

/-- The verdicts that leave an order behind and the totals as they are. -/
def Visit.SetsAside : Visit → Prop
  | wrongSide | expired | blacklisted | unfillable | skip => True
  | exhausted | worse | fill _ _ => False

/-- An order that a walk looked at. -/
structure Seen where
  id : OrderId
  order : OrderTerms
  left : ℕ
  visit : Visit

namespace Seen

def IsFill (s : Seen) : Prop := ∃ offer taken, s.visit = .fill offer taken

def offer (s : Seen) : ℕ :=
  match s.visit with
  | .fill offer _ => offer
  | _ => 0

def taken (s : Seen) : ℕ :=
  match s.visit with
  | .fill _ taken => taken
  | _ => 0

def commission (takerBps : ℕ) (s : Seen) : ℕ := s.taken * takerBps / 10000

def makers (s : Seen) : ℕ :=
  match s.visit with
  | .fill _ _ => 1
  | _ => 0

theorem amounts_of_setsAside {s : Seen} (h : s.visit.SetsAside) :
    s.offer = 0 ∧ s.taken = 0 ∧ s.makers = 0 := by
  unfold offer taken makers
  cases hv : s.visit with
  | fill offer taken =>
      rw [hv] at h
      exact False.elim h
  | _ => exact ⟨rfl, rfl, rfl⟩

end Seen

/-- The orders of `seen`, looked up in `rows`, are passed one after the other. -/
inductive Passed (w : WalkParams) (rows : OrderId → Option OrderTerms) :
    Tally → List Seen → Tally → Prop
  | nil (tally : Tally) : Passed w rows tally [] tally
  | aside {tally tally' : Tally} {x : OrderId} {o : OrderTerms} {v : Visit} {seen : List Seen}
      (hroom : tally.makersUsed < w.cap) (hrow : rows x = some o)
      (hvisit : visitOrder w tally.left o = .ok v) (haside : v.SetsAside)
      (hrest : Passed w rows tally seen tally') :
      Passed w rows tally (⟨x, o, tally.left, v⟩ :: seen) tally'
  | fill {tally tally₁ tally' : Tally} {x : OrderId} {o : OrderTerms}
      {offer taken commission : ℕ} {seen : List Seen}
      (hroom : tally.makersUsed < w.cap) (hrow : rows x = some o)
      (hvisit : visitOrder w tally.left o = .ok (.fill offer taken))
      (hadd : tally.addFill w.takerBps offer taken = .ok (tally₁, commission))
      (hrest : Passed w rows tally₁ seen tally') :
      Passed w rows tally (⟨x, o, tally.left, .fill offer taken⟩ :: seen) tally'

namespace Passed

variable {w : WalkParams} {rows : OrderId → Option OrderTerms} {tally tally' tally'' : Tally}
  {seen seen' : List Seen} {s : Seen}

theorem append (h : Passed w rows tally seen tally') (h' : Passed w rows tally' seen' tally'') :
    Passed w rows tally (seen ++ seen') tally'' := by
  induction h with
  | nil => exact h'
  | aside hroom hrow hvisit haside _ ih => exact .aside hroom hrow hvisit haside (ih h')
  | fill hroom hrow hvisit hadd _ ih => exact .fill hroom hrow hvisit hadd (ih h')

theorem split (h : Passed w rows tally (seen ++ seen') tally'') :
    ∃ tally', Passed w rows tally seen tally' ∧ Passed w rows tally' seen' tally'' := by
  induction seen generalizing tally with
  | nil => exact ⟨tally, .nil tally, h⟩
  | cons s seen ih =>
      rw [List.cons_append] at h
      cases h with
      | aside hroom hrow hvisit haside hrest =>
          obtain ⟨tally', h1, h2⟩ := ih hrest
          exact ⟨tally', .aside hroom hrow hvisit haside h1, h2⟩
      | fill hroom hrow hvisit hadd hrest =>
          obtain ⟨tally', h1, h2⟩ := ih hrest
          exact ⟨tally', .fill hroom hrow hvisit hadd h1, h2⟩

/-- What is known of the first order of a list of visits. -/
theorem head (h : Passed w rows tally (s :: seen) tally') :
    tally.makersUsed < w.cap ∧ rows s.id = some s.order ∧ s.left = tally.left ∧
      visitOrder w tally.left s.order = .ok s.visit ∧ (s.visit.SetsAside ∨ s.IsFill) := by
  cases h with
  | aside hroom hrow hvisit haside _ => exact ⟨hroom, hrow, rfl, hvisit, .inl haside⟩
  | fill hroom hrow hvisit _ _ => exact ⟨hroom, hrow, rfl, hvisit, .inr ⟨_, _, rfl⟩⟩

theorem mem (h : Passed w rows tally seen tally') (hs : s ∈ seen) :
    rows s.id = some s.order ∧ visitOrder w s.left s.order = .ok s.visit ∧
      (s.visit.SetsAside ∨ s.IsFill) := by
  obtain ⟨l, r, rfl⟩ := List.append_of_mem hs
  obtain ⟨tally₁, -, h⟩ := h.split
  obtain ⟨-, hrow, hleft, hvisit, hkind⟩ := h.head
  rw [← hleft] at hvisit
  exact ⟨hrow, hvisit, hkind⟩

/-- A fill fits the budget it met and the order's remainder, at the order's own price. -/
theorem fill_spec (h : Passed w rows tally seen tally') (hs : s ∈ seen) (hfill : s.IsFill) :
    s.order.side = w.side ∧ s.offer ≤ s.left ∧ s.taken ≤ s.order.remaining ∧
      FillsAt w.side s.order.price s.offer s.taken := by
  obtain ⟨-, hvisit, -⟩ := h.mem hs
  have hj := (visitOrder_spec s.order w s.left).success hvisit
  obtain ⟨offer, taken, hv⟩ := hfill
  unfold Seen.offer Seen.taken
  rw [hv] at hj ⊢
  exact hj

/-- Every total of the walk is the sum over its fills. -/
theorem totals (h : Passed w rows tally seen tally') :
    tally'.left + totalOf Seen.offer seen = tally.left ∧
      tally'.outTotal + totalOf (Seen.commission w.takerBps) seen =
        tally.outTotal + totalOf Seen.taken seen ∧
      tally'.commissionTotal =
        tally.commissionTotal + totalOf (Seen.commission w.takerBps) seen ∧
      tally'.makersUsed = tally.makersUsed + totalOf Seen.makers seen := by
  induction h with
  | nil => exact ⟨rfl, rfl, rfl, rfl⟩
  | @aside tally _ x o v seen hroom hrow hvisit haside hrest ih =>
      obtain ⟨h1, h2, h3⟩ := Seen.amounts_of_setsAside (s := ⟨x, o, tally.left, v⟩) haside
      have hc : Seen.commission w.takerBps ⟨x, o, tally.left, v⟩ = 0 := by
        simp [Seen.commission, h2]
      simpa only [totalOf_cons, h1, h2, h3, hc, Nat.zero_add] using ih
  | @fill tally _ _ x o offer taken commission seen hroom hrow hvisit hadd hrest ih =>
      obtain ⟨hc, hcle, hoffer, rfl⟩ := Tally.addFill_eq_ok hadd
      obtain ⟨h1, h2, h3, h4⟩ := ih
      have hcom : Seen.commission w.takerBps ⟨x, o, tally.left, .fill offer taken⟩ = commission :=
        hc.symm
      simp only [totalOf_cons, hcom]
      simp only [Seen.offer, Seen.taken, Seen.makers] at h1 h2 h3 h4 ⊢
      refine ⟨?_, ?_, ?_, ?_⟩
      · omega
      · omega
      · omega
      · omega

theorem left_le (h : Passed w rows tally seen tally') : tally'.left ≤ tally.left := by
  obtain ⟨hleft, -⟩ := h.totals
  omega

/-- Two orders of a walk: what the first took was not there for the second. -/
theorem apart {l m r : List Seen} {x : Seen}
    (h : Passed w rows tally (l ++ s :: (m ++ x :: r)) tally') :
    visitOrder w s.left s.order = .ok s.visit ∧ (s.visit.SetsAside ∨ s.IsFill) ∧
      visitOrder w x.left x.order = .ok x.visit ∧ x.left + s.offer ≤ s.left ∧
      s.left ≤ tally.left := by
  obtain ⟨tally₁, h1, h⟩ := h.split
  obtain ⟨-, -, hsleft, hvisit, hkind⟩ := h.head
  rw [← List.singleton_append] at h
  obtain ⟨tally₂, h2, h⟩ := h.split
  obtain ⟨tally₃, h3, h⟩ := h.split
  obtain ⟨-, -, hxleft, hxvisit, -⟩ := h.head
  have hspent := h2.totals.1
  rw [← hsleft, totalOf_cons, totalOf_nil, Nat.add_zero] at hspent
  have hbefore := h1.left_le
  have hbetween := h3.left_le
  rw [hsleft, hxleft]
  exact ⟨hvisit, hkind, hxvisit, by omega, hbefore⟩

end Passed

section Simulated

variable {w : WalkParams} {b : Book} {A : AbsBook} {tally tally' : Tally} {seen : List Seen}
  {l r : List OrderId} {x : OrderId} {o : LimitOrder}

theorem simulateStep_aside {v : Visit} {o : OrderTerms}
    (hvisit : visitOrder w tally.left o = .ok v) (haside : v.SetsAside) :
    simulateStep w tally o = .ok (tally, none) := by
  unfold simulateStep
  rw [hvisit, ok_bind]
  cases v with
  | exhausted => exact absurd haside id
  | worse => exact absurd haside id
  | fill offer taken => exact absurd haside id
  | _ => rfl

theorem simulateStep_fill {o : OrderTerms} {offer taken commission : ℕ}
    (hvisit : visitOrder w tally.left o = .ok (.fill offer taken))
    (hadd : tally.addFill w.takerBps offer taken = .ok (tally', commission)) :
    simulateStep w tally o = .ok (tally', none) := by
  obtain ⟨-, -, hle, -⟩ := (visitOrder_spec o w tally.left).success hvisit
  unfold simulateStep
  rw [hvisit, ok_bind]
  simp only [hadd, ok_bind, subOrOverflow, checkedSub, if_pos hle, orThrow_some]
  rfl

/-- A step that goes on has passed its order. -/
theorem simulateStep_goes_on {o : OrderTerms} (h : simulateStep w tally o = .ok (tally', none)) :
    ∃ v, visitOrder w tally.left o = .ok v ∧
      (v.SetsAside ∧ tally' = tally ∨ ∃ offer taken commission, v = .fill offer taken ∧
        tally.addFill w.takerBps offer taken = .ok (tally', commission)) := by
  unfold simulateStep at h
  obtain ⟨v, hv, h⟩ := bind_eq_ok.1 h
  refine ⟨v, hv, ?_⟩
  cases v with
  | exhausted => cases h
  | worse => cases h
  | fill offer taken =>
      obtain ⟨⟨tally₁, commission⟩, hadd, h⟩ := bind_eq_ok.1 h
      obtain ⟨_, _, h⟩ := bind_eq_ok.1 h
      cases h
      exact .inr ⟨offer, taken, commission, rfl, hadd⟩
  | _ =>
      cases h
      exact .inl ⟨trivial, rfl⟩

/-- The stored order under the walk's pointer and the pointer after it. -/
theorem Represents.node (h : Represents b A) (hq : A.queue w.side = l ++ x :: r) :
    ∃ o, b.orders x = some o ∧ A.rows x = some o.toOrderTerms ∧ o.next = r.head? := by
  have hlist := h.listed w.side
  rw [hq] at hlist
  obtain ⟨o, ho, -, -, hnext⟩ := hlist.node
  exact ⟨o, ho, h.row ho, hnext⟩

/-- Passing the first orders of a walk leaves the walk of the rest. -/
theorem simulateWalk_of_passed (h : Represents b A) (n : ℕ) {s : List OrderId}
    (hp : Passed w A.rows tally seen tally')
    (hq : A.queue w.side = l ++ (seen.map Seen.id ++ s)) :
    simulateWalk w b (seen.length + n) (seen.map Seen.id ++ s).head? tally =
      simulateWalk w b n s.head? tally' := by
  induction hp generalizing l with
  | nil => simp
  | @aside tally tally' x o v seen hroom hrow hvisit haside hrest ih =>
      rw [List.map_cons, List.cons_append] at hq
      obtain ⟨so, ho, hrow', hnext⟩ := h.node hq
      obtain rfl : so.toOrderTerms = o := Option.some.inj (hrow'.symm.trans hrow)
      have hq' : A.queue w.side = (l ++ [x]) ++ (seen.map Seen.id ++ s) := by
        rw [List.append_assoc]
        exact hq
      rw [List.length_cons, Nat.add_right_comm, List.map_cons, List.cons_append,
        List.head?_cons, simulateWalk, if_pos hroom]
      simp only [load_eq ho, ok_bind, simulateStep_aside hvisit haside, hnext]
      exact ih hq'
  | @fill tally tally₁ tally' x o offer taken commission seen hroom hrow hvisit hadd hrest ih =>
      rw [List.map_cons, List.cons_append] at hq
      obtain ⟨so, ho, hrow', hnext⟩ := h.node hq
      obtain rfl : so.toOrderTerms = o := Option.some.inj (hrow'.symm.trans hrow)
      have hq' : A.queue w.side = (l ++ [x]) ++ (seen.map Seen.id ++ s) := by
        rw [List.append_assoc]
        exact hq
      rw [List.length_cons, Nat.add_right_comm, List.map_cons, List.cons_append,
        List.head?_cons, simulateWalk, if_pos hroom]
      simp only [load_eq ho, ok_bind, simulateStep_fill hvisit hadd, hnext]
      exact ih hq'

/-- How a walk with `n` steps left ends at the orders `s`. -/
inductive Ends (w : WalkParams) (rows : OrderId → Option OrderTerms) :
    ℕ → List OrderId → Tally → WalkEnd → Prop
  | scanned {s : List OrderId} {tally : Tally} (hroom : tally.makersUsed < w.cap) :
      Ends w rows 0 s tally .capped
  | full {n : ℕ} {s : List OrderId} {tally : Tally} (hfull : w.cap ≤ tally.makersUsed) :
      Ends w rows n s tally .done
  | listEnd {n : ℕ} {tally : Tally} (hroom : tally.makersUsed < w.cap) :
      Ends w rows (n + 1) [] tally .done
  | exhausted {n : ℕ} {x : OrderId} {o : OrderTerms} {s : List OrderId} {tally : Tally}
      (hroom : tally.makersUsed < w.cap) (hrow : rows x = some o)
      (hvisit : visitOrder w tally.left o = .ok .exhausted) :
      Ends w rows (n + 1) (x :: s) tally .done
  | worse {n : ℕ} {x : OrderId} {o : OrderTerms} {s : List OrderId} {tally : Tally}
      (hroom : tally.makersUsed < w.cap) (hrow : rows x = some o)
      (hvisit : visitOrder w tally.left o = .ok .worse) :
      Ends w rows (n + 1) (x :: s) tally .stoppedWorse

theorem simulateStep_stops {o : OrderTerms} {fin : WalkEnd}
    (h : simulateStep w tally o = .ok (tally', some fin)) : tally' = tally ∧
      (visitOrder w tally.left o = .ok .exhausted ∧ fin = .done ∨
        visitOrder w tally.left o = .ok .worse ∧ fin = .stoppedWorse) := by
  unfold simulateStep at h
  obtain ⟨v, hv, h⟩ := bind_eq_ok.1 h
  cases v with
  | exhausted =>
      cases h
      exact ⟨rfl, .inl ⟨hv, rfl⟩⟩
  | worse =>
      cases h
      exact ⟨rfl, .inr ⟨hv, rfl⟩⟩
  | fill offer taken =>
      obtain ⟨_, _, h⟩ := bind_eq_ok.1 h
      obtain ⟨_, _, h⟩ := bind_eq_ok.1 h
      cases h
  | _ => cases h

/-- A finished walk has passed a part of its queue and ended at the next order. -/
theorem simulateWalk_passed (h : Represents b A) {n : ℕ} {fin : WalkEnd}
    (hq : A.queue w.side = l ++ r) (hw : simulateWalk w b n r.head? tally = .ok (tally', fin)) :
    ∃ seen s m, r = seen.map Seen.id ++ s ∧ n = seen.length + m ∧
      Passed w A.rows tally seen tally' ∧ Ends w A.rows m s tally' fin := by
  induction n generalizing l r tally with
  | zero =>
      unfold simulateWalk at hw
      by_cases hroom : tally.makersUsed < w.cap
      · rw [if_pos hroom] at hw
        cases hw
        exact ⟨[], r, 0, rfl, rfl, .nil _, .scanned hroom⟩
      · rw [if_neg hroom] at hw
        cases hw
        exact ⟨[], r, 0, rfl, rfl, .nil _, .full (not_lt.1 hroom)⟩
  | succ n ih =>
      unfold simulateWalk at hw
      by_cases hroom : tally.makersUsed < w.cap
      · rw [if_pos hroom] at hw
        cases r with
        | nil =>
            cases hw
            exact ⟨[], [], n + 1, rfl, by simp, .nil _, .listEnd hroom⟩
        | cons x r =>
            obtain ⟨o, ho, hrow, hnext⟩ := h.node hq
            simp only [List.head?_cons, load_eq ho, ok_bind] at hw
            obtain ⟨⟨tally₁, stop⟩, hstep, hw⟩ := bind_eq_ok.1 hw
            cases stop with
            | some fin' =>
                cases hw
                obtain ⟨rfl, hstop⟩ := simulateStep_stops hstep
                rcases hstop with ⟨hv, rfl⟩ | ⟨hv, rfl⟩
                · exact ⟨[], x :: r, n + 1, rfl, by simp, .nil _, .exhausted hroom hrow hv⟩
                · exact ⟨[], x :: r, n + 1, rfl, by simp, .nil _, .worse hroom hrow hv⟩
            | none =>
                have hq' : A.queue w.side = (l ++ [x]) ++ r := by
                  rw [List.append_assoc]
                  exact hq
                rw [hnext] at hw
                obtain ⟨seen, s, m, rfl, rfl, hp, hend⟩ := ih hq' hw
                obtain ⟨v, hv, ⟨haside, rfl⟩ | ⟨offer, taken, commission, rfl, hadd⟩⟩ :=
                  simulateStep_goes_on hstep
                · exact ⟨_, s, m, rfl, by rw [List.length_cons, Nat.add_right_comm],
                    .aside hroom hrow hv haside hp, hend⟩
                · exact ⟨_, s, m, rfl, by rw [List.length_cons, Nat.add_right_comm],
                    .fill hroom hrow hv hadd hp, hend⟩
      · rw [if_neg hroom] at hw
        cases hw
        exact ⟨[], r, n + 1, rfl, by simp, .nil _, .full (not_lt.1 hroom)⟩

end Simulated

section Start

variable {b : Book} {A : AbsBook} {s : LimitOrderSide}

/-- The orders a walk may look at: from the hint on when it rests on the side, else all. -/
def AbsBook.startingAt (A : AbsBook) (s : LimitOrderSide) (hint : Option OrderId) : List OrderId :=
  match hint with
  | some x => if x ∈ A.queue s then (A.queue s).dropWhile (· ≠ x) else A.queue s
  | none => A.queue s

theorem AbsBook.startingAt_suffix (hint : Option OrderId) :
    ∃ l, A.queue s = l ++ A.startingAt s hint := by
  unfold AbsBook.startingAt
  cases hint with
  | none => exact ⟨[], rfl⟩
  | some x =>
      by_cases hx : x ∈ A.queue s
      · simp only [if_pos hx]
        exact ⟨_, List.takeWhile_append_dropWhile.symm⟩
      · simp only [if_neg hx]
        exact ⟨[], rfl⟩

theorem head?_dropWhile_ne {x : OrderId} {q : List OrderId} (hx : x ∈ q) :
    (q.dropWhile (· ≠ x)).head? = some x := by
  induction q with
  | nil => cases hx
  | cons y q ih =>
      by_cases hyx : y = x
      · rw [List.dropWhile_cons_of_neg (by simpa using hyx), List.head?_cons, hyx]
      · rw [List.dropWhile_cons_of_pos (by simpa using hyx)]
        exact ih ((List.mem_cons.1 hx).resolve_left (Ne.symm hyx))

/-- The walk of a represented book starts at the first of these orders. -/
theorem Represents.start (h : Represents b A) (s : LimitOrderSide) (hint : Option OrderId) :
    resolveMatchStartHint b hint s = (A.startingAt s hint).head? := by
  unfold resolveMatchStartHint AbsBook.startingAt
  cases hint with
  | none => exact h.head s
  | some x =>
      have hiff : (b.orderOnSide s x).isSome ↔ x ∈ A.queue s := by
        constructor
        · intro hx
          obtain ⟨o, ho⟩ := Option.isSome_iff_exists.1 hx
          obtain ⟨hstored, rfl⟩ := orderOnSide_eq_some.1 ho
          exact h.wf.mem_of_row (h.row hstored)
        · intro hx
          obtain ⟨o, ho, hs⟩ := (h.listed s).side x hx
          exact Option.isSome_iff_exists.2 ⟨o, orderOnSide_eq_some.2 ⟨ho, hs⟩⟩
      by_cases hx : x ∈ A.queue s
      · simp only [if_pos hx, if_pos (hiff.2 hx)]
        exact (head?_dropWhile_ne hx).symm
      · simp only [if_neg hx, if_neg (mt hiff.1 hx)]
        exact h.head s

end Start

end Cl8yDex
