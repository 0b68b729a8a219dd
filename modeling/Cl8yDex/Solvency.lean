import Cl8yDex.PairAnswers

/-!
# The pair stays solvent

In every state that the chain reaches, the escrow counters are the sums of what the orders and the
parked claims are owed, and whenever others run the pair holds its reserves and its escrow. What the
pair has promised in its messages is covered on top, so no payment of it bounces.
-/

namespace Cl8yDex

open Outcome Finset

namespace PairWorld

def due (w : PairWorld) : List CosmosMsg := w.running.getD []

/-- What the chain keeps around a pair. -/
structure Accounted (addr : Addr) (w : PairWorld) : Prop where
  reachable : Cl8yDex.Reachable w.pair
  distinct : w.pair.pairInfo.Distinct
  backed : ∀ s, w.pair.owed s + totalOf (CosmosMsg.sent (w.pair.pairInfo.escrowToken s)) w.due ≤
    w.balances (w.pair.pairInfo.escrowToken s) addr +
      totalOf (CosmosMsg.pulled (w.pair.pairInfo.escrowToken s)) w.due
  answer : Answer w.pair.pairInfo.lpToken addr (w.balances w.pair.pairInfo.lpToken addr) w.due
  hooksLast : HooksLast w.due
  settled : ∀ l ∈ w.suspended, ∀ m ∈ l, m.Idle

section Steps

variable {self : Addr} {w w' : PairWorld} {q : Querier} {env : Env} {sender : Addr}
  {msg : ExecuteMsg} {out : PairStorage × Response} {balances' : Addr → Addr → ℕ}

theorem Accounted.start (h : w.Starts) : w.Accounted self where
  reachable := ⟨w.pair, h.pair, .refl⟩
  distinct := h.distinct
  backed s := by
    obtain ⟨hbook, -, hreserves, -⟩ := h.pair.fresh
    have howed : w.pair.owed s = 0 := by
      rw [PairStorage.owed, hbook, hreserves]
      cases s <;> rfl
    simp [howed, due, h.idle]
  answer := by
    rw [due, h.idle]
    apply Answer.paying
    intro m hmem
    exact absurd hmem List.not_mem_nil
  hooksLast := by
    rw [due, h.idle]
    exact .nil
  settled := by
    rw [h.calm]
    intro msgs hmem
    exact absurd hmem List.not_mem_nil

theorem due_of_idle (h : w.running = none) : w.due = [] := by
  rw [due, h]
  rfl

/-- The pair is healthy whenever it is called, and what it answers is accounted for. -/
theorem Accounted.answered (h : w.Accounted self) (hidle : w.running = none)
    (henv : env.contract = self) (hsender : sender ≠ self)
    (hq : AnswersBalances w.pair.pairInfo self balances' q)
    (harrived : ∀ s, w.balances (w.pair.pairInfo.escrowToken s) self +
      msg.incoming w.pair.pairInfo sender s ≤ balances' (w.pair.pairInfo.escrowToken s) self)
    (hlp : ∀ m, msg = .receive m → sender = w.pair.pairInfo.lpToken →
      m.amount ≤ balances' w.pair.pairInfo.lpToken self)
    (hcall : execute w.pair q env sender msg = .ok out) :
    Accounted self ⟨out.1, balances', some out.2.messages, w.suspended⟩ := by
  subst henv
  obtain ⟨A, hA⟩ := h.reachable.healthy
  have hserved := (execute_spec hA.rep hA.balanced msg).success hcall
  have hinfo : out.1.pairInfo = w.pair.pairInfo := hserved.pairInfo hA.rep
  have hdue := due_of_idle hidle
  have hheld : ∀ s, w.pair.owed s + msg.incoming w.pair.pairInfo sender s ≤
      balances' (w.pair.pairInfo.escrowToken s) env.contract := by
    intro s
    have hbacked := h.backed s
    have harrive := harrived s
    rw [hdue] at hbacked
    simp only [totalOf_nil] at hbacked
    omega
  obtain ⟨hanswer, hlast⟩ := hserved.answer hsender hlp
  constructor
  · exact h.reachable.step (.call hcall)
  · rw [hinfo]
    exact h.distinct
  · intro s
    rw [hinfo]
    exact hserved.covered hA.rep h.distinct hq hheld s
  · rw [hinfo]
    exact hanswer
  · exact hlast
  · exact h.settled

/-- A payment that the answer begins with finds its tokens. -/
theorem Accounted.funded (h : w.Accounted self) {l : List CosmosMsg} {s : LimitOrderSide}
    {recipient : Addr} {n : ℕ}
    (hrun : w.running = some (.transfer (w.pair.pairInfo.escrowToken s) recipient n :: l)) :
    n ≤ w.balances (w.pair.pairInfo.escrowToken s) self := by
  have hdue : w.due = .transfer (w.pair.pairInfo.escrowToken s) recipient n :: l := by
    rw [due, hrun]
    rfl
  have hanswer := h.answer
  have hbacked := h.backed s
  rw [hdue] at hanswer hbacked
  cases hanswer with
  | paying hpays =>
      rw [pulled_of_pays hpays, totalOf_cons, CosmosMsg.sent, if_pos rfl] at hbacked
      omega
  | taking htakes => exact absurd (htakes _ (List.mem_cons_self ..)) id

theorem Accounted.redeemed (h : w.Accounted self) {l : List CosmosMsg} {n : ℕ}
    (hrun : w.running = some (.burn w.pair.pairInfo.lpToken n :: l)) :
    n ≤ w.balances w.pair.pairInfo.lpToken self := by
  have hdue : w.due = .burn w.pair.pairInfo.lpToken n :: l := by
    rw [due, hrun]
    rfl
  have hanswer := h.answer
  rw [hdue] at hanswer
  cases hanswer with
  | paying hpays => exact absurd (hpays _ (List.mem_cons_self ..)) id
  | taking htakes hburn =>
      rw [burnNeed, if_pos rfl] at hburn
      omega
  | redeeming hn hpays => exact hn

theorem Accounted.step (hs : Step self w w') (h : w.Accounted self) : w'.Accounted self := by
  cases hs with
  | @others balances' hidle hkeep =>
      have hdue := due_of_idle hidle
      refine ⟨h.reachable, h.distinct, ?_, ?_, h.hooksLast, h.settled⟩
      · intro s
        have hbacked := h.backed s
        have hmore := hkeep _ (PairInfo.hasToken_escrowToken w.pair.pairInfo s)
        change _ + totalOf _ w.due ≤ _ + totalOf _ w.due
        simp only at hbacked ⊢
        omega
      · change Answer _ _ _ w.due
        rw [hdue]
        exact .paying nofun
  | @call q env sender msg out hidle hself hsender henv hq hcall =>
      apply h.answered hidle henv hself hq _ _ hcall
      · intro s
        have hzero : msg.incoming w.pair.pairInfo sender s = 0 := by
          cases msg with
          | receive m =>
              apply if_neg
              rintro rfl
              exact hsender (PairInfo.hasToken_escrowToken _ s)
          | _ => rfl
        rw [hzero]
        exact le_rfl
      · rintro m - rfl
        exact absurd (.inr (.inr rfl)) hsender
  | @send q env token holder msg balances' out hidle htoken hself hholder hmove henv hq hcall =>
      apply h.answered hidle henv hself hq _ _ hcall
      · intro s
        have hmore := move_to (w.pair.pairInfo.escrowToken s) hmove hholder
        exact hmore
      · rintro m heq rfl
        cases heq
        have hmore := move_to w.pair.pairInfo.lpToken hmove hholder
        rw [if_pos rfl] at hmore
        omega
  | @settle m l balances' hrun hsettle =>
      have hdue : w.due = m :: l := by
        rw [due, hrun]
        rfl
      have hanswer := h.answer
      have hlast := h.hooksLast
      rw [hdue] at hanswer hlast
      refine ⟨h.reachable, h.distinct, ?_, hanswer.tail hsettle, ?_, h.settled⟩
      · intro s
        have hbacked := h.backed s
        have hmoved := settle_amounts hanswer.kind (h.distinct.lp s) hsettle
        rw [hdue, totalOf_cons, totalOf_cons] at hbacked
        change _ + totalOf _ l ≤ _ + totalOf _ l
        simp only at hbacked ⊢
        omega
      · exact (List.pairwise_cons.1 hlast).2
  | @hook a c l hrun =>
      have hdue : w.due = .hook a c :: l := by
        rw [due, hrun]
        rfl
      have hlast := h.hooksLast
      rw [hdue] at hlast
      have hidle : ∀ m ∈ l, m.Idle := fun m hm => (List.pairwise_cons.1 hlast).1 m hm ⟨a, c, rfl⟩
      refine ⟨h.reachable, h.distinct, ?_, .paying nofun, .nil, ?_⟩
      · intro s
        have hbacked := h.backed s
        rw [hdue, totalOf_cons, totalOf_cons, (amounts_of_idle hidle _).1,
          (amounts_of_idle hidle _).2] at hbacked
        exact hbacked
      · rintro l' hl'
        rcases List.mem_cons.1 hl' with rfl | hmem
        · exact hidle
        · exact h.settled l' hmem
  | @resume l ls hidle hsusp =>
      have hdue := due_of_idle hidle
      have hcalm : ∀ m ∈ l, m.Idle := h.settled l (hsusp ▸ List.mem_cons_self ..)
      refine ⟨h.reachable, h.distinct, ?_, .paying fun m hm => (hcalm m hm).pays, ?_, ?_⟩
      · intro s
        have hbacked := h.backed s
        rw [hdue] at hbacked
        change _ + totalOf _ l ≤ _ + totalOf _ l
        rw [(amounts_of_idle hcalm _).1, (amounts_of_idle hcalm _).2]
        exact hbacked
      · exact List.pairwise_of_forall_mem_list fun _ _ m' hm' _ => hcalm m' hm'
      · intro l' hl'
        exact h.settled l' (hsusp ▸ List.mem_cons_of_mem l hl')
  | finish hrun =>
      have hdue : w.due = [] := by
        rw [due, hrun]
        rfl
      refine ⟨h.reachable, h.distinct, ?_, .paying nofun, .nil, h.settled⟩
      intro s
      have hbacked := h.backed s
      rw [hdue] at hbacked
      exact hbacked

theorem Reachable.accounted (h : PairWorld.Reachable self w) : w.Accounted self := by
  obtain ⟨w₀, hstart, hrun⟩ := h
  induction hrun with
  | refl => exact .start hstart
  | tail _ hstep ih => exact ih.step hstep

theorem Reachable.next (h : PairWorld.Reachable self w) (hs : Step self w w') :
    PairWorld.Reachable self w' := by
  obtain ⟨w₀, hstart, hrun⟩ := h
  exact ⟨w₀, hstart, hrun.tail hs⟩

/-- An answer whose messages all go through leaves the others running. -/
theorem Reachable.settled {l : List CosmosMsg} (h : PairWorld.Reachable self w)
    (hrun : w.running = some l)
    (hall : l.foldlM (fun balances m => m.settle self balances) w.balances = some balances') :
    PairWorld.Reachable self { w with balances := balances', running := none } := by
  induction l generalizing w with
  | nil =>
      cases hall
      exact h.next (.finish hrun)
  | cons m l ih =>
      obtain ⟨balances, hm, hall⟩ := Option.bind_eq_some_iff.1 hall
      exact ih (w := { w with balances := balances, running := some l })
        (h.next (.settle hrun hm)) rfl hall

end Steps

end PairWorld

/-- What a side of the stored book owes for the order `x`, resting or parked. -/
def Book.owedAt (b : Book) (s : LimitOrderSide) (x : OrderId) : ℕ :=
  (b.orders x).elim 0 (fun o => o.toOrderTerms.escrowOn s) +
    (b.expiredLimitClaims x).elim 0 (fun r => r.escrowOn s)

/-- The counters are exact, the pair holds what it owes, and what it pays does not bounce. -/
structure PairWorld.Solvent (addr : Addr) (w : PairWorld) : Prop where
  counted : ∀ s, w.pair.book.pendingEscrow s =
    ∑ x ∈ range w.pair.book.orderNextId, w.pair.book.owedAt s x
  listed : ∀ x, w.pair.book.orderNextId ≤ x →
    w.pair.book.orders x = none ∧ w.pair.book.expiredLimitClaims x = none
  backed : w.running = none → ∀ s,
    outputReserve w.pair.reserves s + w.pair.book.pendingEscrow s ≤
      w.balances (w.pair.pairInfo.escrowToken s) addr
  noUnderflow : ∀ q env sender msg e, execute w.pair q env sender msg = .error e → ¬e.Underflow
  paid : ∀ s recipient n l,
    w.running = some (.transfer (w.pair.pairInfo.escrowToken s) recipient n :: l) →
      n ≤ w.balances (w.pair.pairInfo.escrowToken s) addr
  redeemed : ∀ n l, w.running = some (.burn w.pair.pairInfo.lpToken n :: l) →
    n ≤ w.balances w.pair.pairInfo.lpToken addr

theorem Represents.owedAt {b : Book} {A : AbsBook} (h : Represents b A) (s : LimitOrderSide)
    (x : OrderId) : b.owedAt s x = A.heldAt s x := by
  unfold Book.owedAt AbsBook.heldAt
  rw [← h.rows, ← h.claims, Book.terms]
  cases b.orders x <;> rfl

theorem pair_stays_solvent {self : Addr} {w : PairWorld} (h : PairWorld.Reachable self w) :
    w.Solvent self := by
  have hw := h.accounted
  obtain ⟨A, hA⟩ := hw.reachable.healthy
  constructor
  · intro s
    rw [hA.rep.escrow, hA.balanced s, AbsBook.held, hA.rep.nextId]
    exact sum_congr rfl fun x _ => (hA.rep.owedAt s x).symm
  · intro x hx
    rw [hA.rep.nextId] at hx
    constructor
    · by_contra hne
      obtain ⟨o, ho⟩ := Option.ne_none_iff_exists'.1 hne
      exact absurd (hA.rep.wf.row_lt x _ (hA.rep.row ho)) (not_lt.2 hx)
    · by_contra hne
      obtain ⟨r, hr⟩ := Option.ne_none_iff_exists'.1 hne
      rw [hA.rep.claims] at hr
      exact absurd (hA.rep.wf.claim_lt x r hr) (not_lt.2 hx)
  · intro hidle s
    have hbacked := hw.backed s
    rw [PairWorld.due_of_idle hidle] at hbacked
    exact hbacked
  · intro q env sender msg e he
    exact (execute_spec hA.rep hA.balanced msg).failure he
  · intro s recipient n l hrun
    exact hw.funded hrun
  · intro n l hrun
    exact hw.redeemed hrun

section Sample

/-- User 7 starts with everything. -/
def sampleLedger : Addr → Addr → ℕ := fun _ a => if a = 7 then 10 ^ 7 else 0

def sampleWorld : PairWorld := ⟨samplePair, sampleLedger, none, []⟩

theorem sampleWorld_reachable : sampleWorld.Reachable 9 :=
  ⟨_, ⟨samplePair_starts, ⟨by decide, fun s => by cases s <;> decide⟩, rfl, rfl⟩, .refl⟩

/-- Everything is granted, and balances are answered as they are. -/
def answering (balances : Addr → Addr → ℕ) : Querier :=
  { Querier.permissive with balance := fun token a => some (balances token a) }

/-- User 7 pays in the two assets, and calls are made by others than the pair's contracts. -/
def PairWorld.arrived (w : PairWorld) (sender : Addr) : ExecuteMsg → Option (Addr → Addr → ℕ)
  | .receive m =>
    if sender = 1 ∨ sender = 2 then moveTokens w.balances sender 7 9 m.amount else none
  | _ => if sender ≤ 3 ∨ sender = 9 then none else some w.balances

/-- A call of the pair, with all the messages of its answer settled. -/
def PairWorld.play (w : PairWorld) (t : ℕ) (sender : Addr) (msg : ExecuteMsg) :
    Option PairWorld := do
  guard (w.running.isNone ∧ w.pair.pairInfo = samplePair.pairInfo)
  let balances ← w.arrived sender msg
  let out ← (execute w.pair (answering balances) (sampleEnv t) sender msg).toOption
  let balances ← out.2.messages.foldlM (fun balances m => m.settle 9 balances) balances
  return ⟨out.1, balances, none, w.suspended⟩

theorem PairWorld.Reachable.play {w w' : PairWorld} {t : ℕ} {sender : Addr} {msg : ExecuteMsg}
    (h : w.Reachable 9) (hplay : w.play t sender msg = some w') : w'.Reachable 9 := by
  obtain ⟨_, hguard, hplay⟩ := Option.bind_eq_some_iff.1 hplay
  obtain ⟨hidle, hinfo⟩ := (Option.guard_eq_some' _).1 hguard
  obtain ⟨balances, harrived, hplay⟩ := Option.bind_eq_some_iff.1 hplay
  obtain ⟨out, hout, hplay⟩ := Option.bind_eq_some_iff.1 hplay
  obtain ⟨after, hsettled, hplay⟩ := Option.bind_eq_some_iff.1 hplay
  obtain rfl := Option.some.inj hplay
  have hnone : w.running = none := Option.isNone_iff_eq_none.1 hidle
  have hcall : execute w.pair (answering balances) (sampleEnv t) sender msg = .ok out := by
    cases hexec : execute w.pair (answering balances) (sampleEnv t) sender msg with
    | error e =>
      rw [hexec] at hout
      cases hout
    | ok result =>
      rw [hexec] at hout
      rw [Option.some.inj hout]
  have hanswers : AnswersBalances w.pair.pairInfo 9 balances (answering balances) :=
    fun token _ n hn => (Option.some.inj hn).symm
  suffices hnext : PairWorld.Reachable 9 ⟨out.1, balances, some out.2.messages, w.suspended⟩ from
    hnext.settled rfl hsettled
  unfold PairWorld.arrived at harrived
  split at harrived
  · obtain ⟨hasset, hmove⟩ := Option.ite_none_right_eq_some.1 harrived
    have htoken : w.pair.pairInfo.HasToken sender := by
      rw [hinfo]
      exact hasset.imp_right .inl
    refine h.next (.send hnone htoken ?_ (by decide) hmove rfl hanswers hcall)
    rcases hasset with rfl | rfl <;> decide
  · obtain ⟨hother, hkept⟩ := Option.ite_none_left_eq_some.1 harrived
    obtain rfl := Option.some.inj hkept
    have hstranger : ¬w.pair.pairInfo.HasToken sender := by
      rw [hinfo]
      rintro (rfl | rfl | rfl) <;> exact hother (.inl (by decide))
    exact h.next (.call hnone (fun hself => hother (.inr hself)) hstranger rfl hanswers hcall)

/-- Liquidity, two bids, the second for a while, an ask, and the clean of the expired bid. -/
def samplePlay : Option PairWorld := do
  let w ← sampleWorld.play 1000 7 (.provideLiquidity
    (⟨.token 1, 1000000⟩, ⟨.token 2, 3000000⟩) none none none)
  let w ← w.play 1006 2 (.receive ⟨7, 1000000, .placeLimitOrderBatch .bid
    [⟨⟨2 * 10 ^ 18⟩, 600000, 5, none, none⟩, ⟨⟨2 * 10 ^ 18⟩, 400000, 5, some 1010, none⟩]⟩)
  let w ← w.play 1006 1 (.receive ⟨7, 500000, .placeLimitOrderBatch .ask
    [⟨⟨4 * 10 ^ 18⟩, 500000, 5, none, none⟩]⟩)
  w.play 1012 8 (.cleanLimitBook .bid 5 none none)

/-- A bid of 599100 and an ask of 499250 rest, and 399400 of the second bid wait for their owner. -/
theorem pair_stays_solvent_sample : ∃ w : PairWorld, PairWorld.Reachable 9 w ∧ w.Solvent 9 ∧
    (w.pair.book.terms 1 = some ⟨7, ⟨2 * 10 ^ 18⟩, 599100, .bid, none⟩ ∧
      w.pair.book.terms 3 = some ⟨7, ⟨4 * 10 ^ 18⟩, 499250, .ask, none⟩ ∧
      w.pair.book.expiredLimitClaims 2 = some ⟨7, .bid, 399400, some 1010, some .expired⟩) ∧
    (w.pair.book.pendingEscrow .ask = 499250 ∧ w.pair.book.pendingEscrow .bid = 998500) ∧
    w.balances 1 9 = 1000000 + 499250 ∧ w.balances 2 9 = 3000000 + 998500 := by
  have hplay : samplePlay.any (fun w =>
      (w.pair.book.terms 1 = some ⟨7, ⟨2 * 10 ^ 18⟩, 599100, .bid, none⟩ ∧
        w.pair.book.terms 3 = some ⟨7, ⟨4 * 10 ^ 18⟩, 499250, .ask, none⟩ ∧
        w.pair.book.expiredLimitClaims 2 = some ⟨7, .bid, 399400, some 1010, some .expired⟩) ∧
      (w.pair.book.pendingEscrow .ask = 499250 ∧ w.pair.book.pendingEscrow .bid = 998500) ∧
      w.balances 1 9 = 1000000 + 499250 ∧ w.balances 2 9 = 3000000 + 998500) = true := by
    decide +kernel
  obtain ⟨w, hw, hfacts⟩ := (Option.any_eq_true _ _).1 hplay
  have hreachable : w.Reachable 9 := by
    obtain ⟨deposited, hdeposited, hw⟩ := Option.bind_eq_some_iff.1 hw
    obtain ⟨bidden, hbidden, hw⟩ := Option.bind_eq_some_iff.1 hw
    obtain ⟨asked, hasked, hw⟩ := Option.bind_eq_some_iff.1 hw
    exact (((sampleWorld_reachable.play hdeposited).play hbidden).play hasked).play hw
  exact ⟨w, hreachable, pair_stays_solvent hreachable, of_decide_eq_true hfacts⟩

end Sample

end Cl8yDex
