import Cl8yDex.OrderLife

/-!
# Custody of every order

Whatever messages a pair accepts, each moves every order along its life, and the refunds that it
pays are those of the orders that it ends. So at every moment the escrow that an order brought is
what fills took of it, what is left of it, and what was refunded.
-/

namespace Cl8yDex

open Finset Outcome

/-- The events of one accepted message of `user`, order by order. -/
structure Explains (p : PairStorage) (user : Addr) (out : PairStorage × Response)
    (es : OrderId → List OrderEvent) : Prop where
  run : ∀ x, OrderRun (p.book.orderState x) ((es x).map fun e => (user, e))
    (out.1.book.orderState x)
  refunds : (∃ x, ∃ e ∈ es x, e.Refunds) → ∀ token u,
    totalOf (CosmosMsg.sentTo token u) out.2.messages = if u = user then
      (if token = p.pairInfo.token0 then
        ∑ x ∈ range p.book.orderNextId, totalOf (OrderEvent.paidBackOn .ask) (es x) else 0) +
      (if token = p.pairInfo.token1 then
        ∑ x ∈ range p.book.orderNextId, totalOf (OrderEvent.paidBackOn .bid) (es x) else 0)
      else 0

section Kinds

open AbsBook

variable {A B : AbsBook} {p : PairStorage} {user : Addr} {out : PairStorage × Response}
  {acts : List Act}

/-- The acts of a placement. -/
def Act.Adds : Act → Prop
  | reserve _ | place .. | escrowAdd .. => True
  | _ => False

/-- A placement only adds rows. -/
theorem Run.adds (h : Run A acts B) (hadds : ∀ a ∈ acts, a.Adds) :
    B.claims = A.claims ∧ A.nextId ≤ B.nextId ∧
      (∀ x t, A.rows x = some t → B.rows x = some t) ∧
      ∀ x t, B.rows x = some t → A.rows x = some t ∨ .place x t ∈ acts := by
  induction h with
  | nil A => exact ⟨rfl, le_rfl, fun _ _ h => h, fun _ _ h => .inl h⟩
  | @cons A B C a acts hs hr ih =>
      obtain ⟨hclaims, hnext, hkeep, hnew⟩ := ih fun a h => hadds a (List.mem_cons_of_mem _ h)
      have hnew' : ∀ x t, C.rows x = some t → B.rows x = some t ∨ .place x t ∈ a :: acts :=
        fun x t h => (hnew x t h).imp_right (List.mem_cons_of_mem _)
      have ha := hadds a (List.mem_cons_self ..)
      cases hs with
      | reserve count =>
          exact ⟨hclaims, (Nat.le_add_right _ _).trans hnext, hkeep, hnew'⟩
      | place y u hrow hclaim hlt =>
          refine ⟨hclaims, hnext, fun x t hx => hkeep x t ?_, fun x t hx => ?_⟩
          · rw [place_rows_of_ne, hx]
            rintro rfl
            rw [hrow] at hx
            cases hx
          · rcases hnew' x t hx with hB | hm
            · by_cases hxy : x = y
              · subst hxy
                rw [place_rows_self, Option.some.injEq] at hB
                subst hB
                exact .inr (List.mem_cons_self ..)
              · rw [place_rows_of_ne hxy] at hB
                exact .inl hB
            · exact .inr hm
      | escrowAdd s amount => exact ⟨hclaims, hnext, hkeep, hnew'⟩
      | _ => exact absurd ha id

theorem Placing.adds {side : LimitOrderSide} {count : ℕ} {placed : List (OrderId × OrderTerms)}
    {tail : List Act} (h : Placing A side count placed tail) :
    ∀ a ∈ (.reserve count :: (placeActs placed ++ tail)), a.Adds := by
  intro a ha
  rcases List.mem_cons.1 ha with rfl | ha
  · trivial
  · rcases List.mem_append.1 ha with ha | ha
    · obtain ⟨r, -, rfl⟩ := List.mem_map.1 ha
      trivial
    · obtain ⟨n, rfl⟩ := h.tail_eq a ha
      trivial

/-- What a placement does to the order `x`: nothing, unless its id is handed out. -/
def placementEvents (A B : AbsBook) (x : OrderId) : List OrderEvent :=
  if A.nextId ≤ x ∧ x < B.nextId then [(B.rows x).elim .skipped .placed] else []

theorem Placing.events {side : LimitOrderSide} {count : ℕ} {placed : List (OrderId × OrderTerms)}
    {tail : List Act} (h : Placing A side count placed tail) (hA : A.WellFormed)
    (hrun : Run A (.reserve count :: (placeActs placed ++ tail)) B)
    (hauth : ∀ a ∈ (.reserve count :: (placeActs placed ++ tail)), a.AuthorisedBy A user)
    (x : OrderId) : OrderRun (A.orderState x) ((placementEvents A B x).map fun e => (user, e))
      (B.orderState x) := by
  have hB := hrun.invariant (P := AbsBook.WellFormed) (fun _ _ _ hs hwf => hwf.step hs) hA
  obtain ⟨hclaims, hnext, hkeep, hnew⟩ := hrun.adds h.adds
  have hborn : ∀ t, B.rows x = some t → A.rows x = some t ∨ A.nextId ≤ x ∧ t.owner = user := by
    intro t ht
    refine (hnew x t ht).imp_right fun hm => ⟨?_, hauth (.place x t) hm⟩
    rcases List.mem_cons.1 hm with heq | hm
    · cases heq
    · rcases List.mem_append.1 hm with hm | hm
      · obtain ⟨r, hr, heq⟩ := List.mem_map.1 hm
        cases heq
        exact h.fresh _ hr
      · obtain ⟨n, heq⟩ := h.tail_eq _ hm
        cases heq
  unfold placementEvents
  by_cases hlt : x < A.nextId
  · rw [if_neg fun hx => absurd hlt (not_lt.2 hx.1)]
    have hrow : B.rows x = A.rows x := by
      cases hBx : B.rows x with
      | some t => exact ((hborn t hBx).resolve_right fun hx => absurd hlt (not_lt.2 hx.1)).symm
      | none =>
          by_contra hne
          obtain ⟨t, ht⟩ := Option.ne_none_iff_exists'.1 (Ne.symm hne)
          rw [hkeep x t ht] at hBx
          cases hBx
    have hstate : B.orderState x = A.orderState x := by
      simp only [orderState, hrow, hclaims, if_pos hlt, if_pos (hlt.trans_le hnext)]
    rw [hstate]
    exact .nil _
  · have hle : A.nextId ≤ x := not_lt.1 hlt
    rw [orderState_of_le hA hle]
    by_cases hltB : x < B.nextId
    · rw [if_pos ⟨hle, hltB⟩]
      cases hBx : B.rows x with
      | some t =>
          rw [orderState_of_row hBx]
          rcases hborn t hBx with hold | ⟨-, howner⟩
          · exact absurd (hA.row_lt x t hold) hlt
          · exact .single (.placed t howner)
      | none =>
          have hclaim : B.claims x = none := by
            rw [hclaims]
            by_contra hne
            obtain ⟨r, hr⟩ := Option.ne_none_iff_exists'.1 hne
            exact hlt (hA.claim_lt x r hr)
          rw [orderState_of_gone hBx hclaim hltB]
          exact .single .skipped
    · rw [if_neg fun hx => hltB hx.2, orderState_of_le hB (not_lt.1 hltB)]
      exact .nil _

theorem placementEvents_quiet {x : OrderId} {e : OrderEvent} (he : e ∈ placementEvents A B x) :
    ¬e.Refunds := by
  unfold placementEvents at he
  split_ifs at he
  · rw [List.mem_singleton.1 he]
    cases B.rows x <;> exact id
  · cases he

theorem Act.refunds_of_event {a : Act} {x : OrderId} {e : OrderEvent} (h : a.event x = some e)
    (he : e.Refunds) : a.Refunds := by
  cases a with
  | cancel s y n => trivial
  | claim s y n => trivial
  | fill s y paid taken =>
      obtain ⟨-, ⟨⟩⟩ := Option.ite_none_right_eq_some.1 h
      exact absurd he id
  | drop y =>
      obtain ⟨-, ⟨⟩⟩ := Option.ite_none_right_eq_some.1 h
      exact absurd he id
  | park y reason expiresAt =>
      obtain ⟨-, ⟨⟩⟩ := Option.ite_none_right_eq_some.1 h
      exact absurd he id
  | _ => cases h

def repricingEvents (y : OrderId) (price : Decimal) (x : OrderId) : List OrderEvent :=
  if y = x then [.repriced price] else []

theorem repricing_events {y : OrderId} {price : Decimal} (hrun : Run A [.reprice y price] B)
    (hauth : Act.AuthorisedBy A user (.reprice y price)) (x : OrderId) :
    OrderRun (A.orderState x) ((repricingEvents y price x).map fun e => (user, e))
      (B.orderState x) := by
  unfold repricingEvents
  cases hrun with
  | cons hs hnil =>
  cases hnil
  by_cases hy : y = x
  · subst hy
    rw [if_pos rfl]
    cases hs with
    | reprice y t p hrow hp =>
        obtain ⟨t', ht', howner⟩ := hauth
        obtain rfl := Option.some.inj (hrow.symm.trans ht')
        rw [orderState_of_row hrow, orderState_of_row place_rows_self]
        exact .single (.repriced t price howner)
  · obtain ⟨hrow, hclaim⟩ := hs.frame hy
    have hnext : B.nextId = A.nextId := by
      cases hs
      rfl
    rw [if_neg hy, orderState_congr hrow hclaim hnext]
    exact .nil _

/-- The acts of any operation are explained order by order. -/
theorem Effect.explains {msgs : List CosmosMsg} (h : Effect A p user acts B out.1 msgs)
    (hrep : Represents p.book A) (hmsgs : msgs = out.2.messages) :
    ∃ es, Explains p user out es := by
  have hwf := hrep.wf
  subst hmsgs
  have hstate : ∀ x, p.book.orderState x = A.orderState x := hrep.orderState
  have hstate' : ∀ x, out.1.book.orderState x = B.orderState x := h.rep.orderState
  cases h.kind with
  | draining hd =>
      refine ⟨fun x => eventsOf x acts, fun x => ?_, fun ⟨x, e, he, hr⟩ token u => ?_⟩
      · rw [hstate, hstate']
        exact h.run.events hd hwf hwf (fun _ _ hu => hu) h.authorised
      · obtain ⟨a, ha, hae⟩ := List.mem_filterMap.1 he
        rw [h.refunds ⟨a, ha, Act.refunds_of_event hae hr⟩, hrep.nextId,
          h.run.sum_paidBack hwf hd, h.run.sum_paidBack hwf hd]
  | repricing y price =>
      refine ⟨repricingEvents y price, fun x => ?_, fun ⟨x, e, he, hr⟩ => ?_⟩
      · rw [hstate, hstate']
        exact repricing_events h.run (h.authorised _ (List.mem_singleton_self _)) x
      · unfold repricingEvents at he
        split_ifs at he
        · rw [List.mem_singleton.1 he] at hr
          exact absurd hr id
        · cases he
  | placing hp =>
      refine ⟨placementEvents A B, fun x => ?_, fun ⟨x, e, he, hr⟩ => ?_⟩
      · rw [hstate, hstate']
        exact hp.events hwf h.run h.authorised x
      · exact absurd hr (placementEvents_quiet he)

end Kinds

/-- The messages a pair has accepted, and what each did to every order. -/
inductive Chronicle : PairStorage → (OrderId → List (Addr × OrderEvent)) → Prop
  | start {p : PairStorage} (h : Starts p) : Chronicle p fun _ => []
  | call {p : PairStorage} {log : OrderId → List (Addr × OrderEvent)} {q : Querier} {env : Env}
      {sender : Addr} {msg : ExecuteMsg} {out : PairStorage × Response}
      {es : OrderId → List OrderEvent} (h : Chronicle p log)
      (hcall : execute p q env sender msg = .ok out)
      (hes : Explains p (msg.user sender) out es) :
      Chronicle out.1 fun x => log x ++ (es x).map fun e => (msg.user sender, e)

/-- The account of one order: what it escrowed is what fills took, what is held and what was
refunded, and a refund ends it. -/
structure Accounted (log : List (Addr × OrderEvent)) (s : OrderState) : Prop where
  escrow : totalOf (fun e => e.2.escrowed) log = totalOf (fun e => e.2.takenByFills) log + s.held +
    totalOf (fun e => e.2.paidBack) log
  once : ∀ l₁ l₂ u e, log = l₁ ++ (u, e) :: l₂ → e.Refunds → l₂ = [] ∧ s = .gone

/-- What later states keep of an order: its owner, its side and, while it rests, its expiry; a
parked row keeps the expiry only if that is why it was parked. -/
def Keeps : OrderState → OrderState → Prop
  | .unborn, _ => True
  | .resting t, .resting t' => t'.owner = t.owner ∧ t'.side = t.side ∧ t'.expiresAt = t.expiresAt
  | .resting t, .parked r => r.owner = t.owner ∧ r.side = t.side ∧ ∃ reason,
      r.reason = some reason ∧ r.expiresAt = if reason = .expired then t.expiresAt else none
  | .parked r, .parked r' => r' = r
  | _, s => s = .gone

/-- What is open to everyone: a fill, a drop, a park. -/
def OrderEvent.Open : OrderEvent → Prop
  | filled .. | dropped | parked _ => True
  | _ => False

def OrderState.owner : OrderState → Option Addr
  | resting t => some t.owner
  | parked r => some r.owner
  | _ => none

section Frame

variable {s s' s'' : OrderState} {user : Addr} {e : OrderEvent} {es : List OrderEvent}

theorem Keeps.refl (s : OrderState) : Keeps s s := by
  cases s with
  | resting t => exact ⟨rfl, rfl, rfl⟩
  | _ => simp [Keeps]

theorem OrderStep.keeps (h : OrderStep user s e s') (hk : Keeps s' s'') : Keeps s s'' := by
  cases h with
  | placed t h => trivial
  | skipped => trivial
  | repriced t p h =>
      cases s'' with
      | _ => exact hk
  | filled t paid taken h hle =>
      cases s'' with
      | _ => exact hk
  | parked t reason =>
      cases s'' with
      | parked r =>
          obtain rfl : r = _ := hk
          exact ⟨rfl, rfl, reason, rfl, rfl⟩
      | gone => rfl
      | _ => cases hk
  | dropped t h =>
      obtain rfl : s'' = .gone := hk
      rfl
  | cancelled t h =>
      obtain rfl : s'' = .gone := hk
      rfl
  | claimed r h =>
      obtain rfl : s'' = .gone := hk
      rfl

theorem OrderRun.keeps {l : List (Addr × OrderEvent)} (h : OrderRun s l s') : Keeps s s' := by
  induction h with
  | nil s => exact .refl s
  | cons h _ ih => exact h.keeps ih

/-- Without a reprice the price stays. -/
theorem OrderRun.price {l : List (Addr × OrderEvent)} (h : OrderRun s l s')
    (hl : ∀ u p, (u, .repriced p) ∉ l) : ∀ t t', s = .resting t → s' = .resting t' →
      t'.price = t.price := by
  induction h with
  | nil s =>
      rintro t t' rfl ⟨⟩
      rfl
  | cons h hr ih =>
      rintro t t' rfl hs'
      have hrest := ih fun u p hm => hl u p (List.mem_cons_of_mem _ hm)
      cases h with
      | repriced t p howner => exact absurd (List.mem_cons_self ..) (hl _ p)
      | filled t paid taken hprice hle =>
          exact hrest { t with remaining := t.remaining - taken } t' rfl hs'
      | dropped t hzero =>
          obtain rfl := hr.nil_of_gone
          cases hr
          cases hs'
      | parked t reason =>
          have hk := hr.keeps
          rw [hs'] at hk
          cases hk
      | cancelled t howner =>
          obtain rfl := hr.nil_of_gone
          cases hr
          cases hs'

/-- A stranger can only fill, drop and park. -/
theorem OrderRun.open_of_stranger (h : OrderRun s (es.map fun e => (user, e)) s') {o : Addr}
    (ho : s.owner = some o) (hne : user ≠ o) : ∀ e ∈ es, e.Open := by
  induction es generalizing s with
  | nil => simp
  | cons e es ih =>
      rw [List.map_cons] at h
      cases h with
      | cons hs hr =>
      intro e' he'
      cases hs with
      | repriced t p howner => exact absurd (howner.symm.trans (Option.some.inj ho)) hne
      | filled t paid taken hprice hle =>
          rcases List.mem_cons.1 he' with rfl | he'
          · trivial
          · exact ih hr ho e' he'
      | dropped t hzero =>
          have hnil := hr.nil_of_gone
          rw [List.map_eq_nil_iff] at hnil
          subst hnil
          obtain rfl := List.mem_singleton.1 he'
          trivial
      | parked t reason =>
          rcases List.mem_cons.1 he' with rfl | he'
          · trivial
          · exact ih hr ho e' he'
      | cancelled t howner => exact absurd (howner.symm.trans (Option.some.inj ho)) hne
      | claimed r howner => exact absurd (howner.symm.trans (Option.some.inj ho)) hne
      | placed t howner => cases ho
      | skipped => cases ho

end Frame

/-- What the books say of one accepted message: its events, order by order, and their frame. -/
structure Custodial (p : PairStorage) (user : Addr) (out : PairStorage × Response)
    (es : OrderId → List OrderEvent) : Prop where
  explains : Explains p user out es
  keeps : ∀ x, Keeps (p.book.orderState x) (out.1.book.orderState x)
  price : ∀ x t t', p.book.orderState x = .resting t → out.1.book.orderState x = .resting t' →
    (∀ price, .repriced price ∉ es x) → t'.price = t.price
  stranger : ∀ x o, (p.book.orderState x).owner = some o → user ≠ o → ∀ e ∈ es x, e.Open

theorem Explains.custodial {p : PairStorage} {user : Addr} {out : PairStorage × Response}
    {es : OrderId → List OrderEvent} (h : Explains p user out es) : Custodial p user out es where
  explains := h
  keeps x := (h.run x).keeps
  price x t t' ht ht' hes := (h.run x).price (fun u p hm => by
    obtain ⟨e, he, heq⟩ := List.mem_map.1 hm
    cases heq
    exact hes p he) t t' ht ht'
  stranger x o ho hne := (h.run x).open_of_stranger ho hne

section Runs

variable {p : PairStorage} {log : OrderId → List (Addr × OrderEvent)} {q : Querier} {env : Env}
  {sender : Addr} {msg : ExecuteMsg} {out : PairStorage × Response}

theorem Chronicle.invariant (h : Chronicle p log) : Reachable p ∧
    ∀ x, OrderRun (Book.initial.orderState x) (log x) (p.book.orderState x) := by
  induction h with
  | start h =>
      refine ⟨⟨_, h, .refl⟩, fun x => ?_⟩
      rw [h.fresh.1]
      exact .nil _
  | call _ hcall hes ih => exact ⟨ih.1.step (.call hcall), fun x => (ih.2 x).append (hes.run x)⟩

theorem Chronicle.explains (h : Chronicle p log) (hcall : execute p q env sender msg = .ok out) :
    ∃ es, Explains p (msg.user sender) out es := by
  obtain ⟨A, hA⟩ := h.invariant.1.healthy
  obtain ⟨acts, A', heff, -⟩ := ((execute_spec hA.rep hA.balanced _).success hcall).healthy hA
  exact heff.explains hA.rep rfl

theorem Chronicle.accounted (h : Chronicle p log) (x : OrderId) :
    Accounted (log x) (p.book.orderState x) where
  escrow := by
    have hheld := (h.invariant.2 x).held
    have hzero : (Book.initial.orderState x).held = 0 := by
      unfold Book.orderState Book.initial
      simp only [Book.terms]
      split_ifs <;> rfl
    omega
  once := (h.invariant.2 x).refunds_last

theorem execute_receive (hook : Cw20HookMsg) {user : Addr} {amount : ℕ}
    (hcall : execute p q env sender (.receive ⟨user, amount, hook⟩) = .ok out) :
    ∃ user', receiveHandler p q env sender user' amount hook = .ok out := by
  obtain ⟨-, -, h⟩ := bind_eq_ok.1 hcall
  obtain ⟨user', -, h⟩ := bind_eq_ok.1 h
  obtain ⟨wallets, -, h⟩ := bind_eq_ok.1 h
  obtain ⟨-, -, h⟩ := bind_eq_ok.1 h
  obtain ⟨-, -, h⟩ := bind_eq_ok.1 h
  exact ⟨user', h⟩

/-- A placement escrows of every rung its amount less the maker fee. -/
theorem Reachable.escrows (h : Reachable p) {user : Addr} {amount : ℕ}
    {side : LimitOrderSide} {orders : List LimitOrderPlacementItem}
    (hcall : execute p q env sender (.receive ⟨user, amount, .placeLimitOrderBatch side orders⟩) =
      .ok out) : Escrows p orders out := by
  obtain ⟨A, hA⟩ := h.healthy
  obtain ⟨user', h'⟩ := execute_receive _ hcall
  exact ((executePlaceLimitOrdersBatch_spec hA.rep q env sender user' amount side
    orders).success h').2.2

theorem Reachable.ladder_escrows (h : Reachable p) {user : Addr} {amount : ℕ}
    {ladder : LimitOrderLadderSpec}
    (hcall : execute p q env sender (.receive ⟨user, amount, .placeLimitOrderLadder ladder⟩) =
      .ok out) : ∃ decimals0 decimals1 orders, Escrows p orders out ∧
        expandLimitLadder ladder p.maxBatchRungs decimals0 decimals1 = .ok orders := by
  obtain ⟨A, hA⟩ := h.healthy
  obtain ⟨user', h'⟩ := execute_receive _ hcall
  exact ((executePlaceLimitOrderLadder_spec hA.rep q env sender user' amount
    ladder).success h').2.2

/-- Every order is accounted for after any run, and every further message keeps custody. -/
theorem order_custody (h : Chronicle p log) :
    (∀ x, Accounted (log x) (p.book.orderState x)) ∧
    (∀ q env sender msg out, execute p q env sender msg = .ok out →
      ∃ es, Custodial p (msg.user sender) out es) ∧
    (∀ q env sender user amount side orders out,
      execute p q env sender (.receive ⟨user, amount, .placeLimitOrderBatch side orders⟩) =
        .ok out → Escrows p orders out) ∧
    ∀ q env sender user amount ladder out,
      execute p q env sender (.receive ⟨user, amount, .placeLimitOrderLadder ladder⟩) = .ok out →
        ∃ decimals0 decimals1 orders, Escrows p orders out ∧
          expandLimitLadder ladder p.maxBatchRungs decimals0 decimals1 = .ok orders := by
  have hreach := h.invariant.1
  refine ⟨h.accounted, fun q env sender msg out hcall => ?_,
    fun q env sender user amount side orders out => hreach.escrows,
    fun q env sender user amount ladder out => hreach.ladder_escrows⟩
  obtain ⟨es, hes⟩ := h.explains hcall
  exact ⟨es, hes.custodial⟩

/-- Any message, accepted or not, extends the chronicle. -/
theorem Chronicle.transact (h : Chronicle p log) (q : Querier) (env : Env) (sender : Addr)
    (msg : ExecuteMsg) : ∃ log', Chronicle (p.transact q env sender msg) log' := by
  unfold PairStorage.transact
  cases hout : execute p q env sender msg with
  | ok out =>
      obtain ⟨es, hes⟩ := h.explains hout
      exact ⟨_, h.call hout hes⟩
  | error e => exact ⟨log, h⟩

end Runs

/-- A bid with an expiry, below the minimum that the factory then sets. -/
def sampleBid : PairStorage :=
  (samplePool.transact .permissive (sampleEnv 1006) 2 (.receive ⟨7, 600000,
    .placeLimitOrderBatch .bid [⟨⟨2 * 10 ^ 18⟩, 600000, 5, some 5000, none⟩]⟩)).transact
      .permissive (sampleEnv 1012) 4 (.updateLimitCleanConfig ⟨0, 10 ^ 9⟩)

theorem sampleBid_chronicle : ∃ log, Chronicle sampleBid log := by
  obtain ⟨log, h⟩ := (Chronicle.start samplePair_starts).transact .permissive (sampleEnv 1000) 7
    (.provideLiquidity (⟨.token 1, 1000000⟩, ⟨.token 2, 3000000⟩) none none none)
  obtain ⟨log', h'⟩ := h.transact .permissive (sampleEnv 1006) 2 (.receive ⟨7, 600000,
    .placeLimitOrderBatch .bid [⟨⟨2 * 10 ^ 18⟩, 600000, 5, some 5000, none⟩]⟩)
  exact h'.transact ..

theorem order_custody_sample : ∃ log, Chronicle sampleBid log ∧
    Accounted (log 1) (sampleBid.book.orderState 1) := by
  obtain ⟨log, h⟩ := sampleBid_chronicle
  exact ⟨log, h, (order_custody h).1 1⟩

/-- Parking an order that has not expired drops its expiry. -/
theorem parking_drops_expiry : ¬∀ p log q env sender msg out, Chronicle p log →
    execute p q env sender msg = .ok out → ∀ x t r, p.book.orderState x = .resting t →
      out.1.book.orderState x = .parked r → r.expiresAt = t.expiresAt := by
  intro hall
  obtain ⟨log, h⟩ := sampleBid_chronicle
  have hok : Meets (execute sampleBid .permissive (sampleEnv 1018) 8
      (.cleanLimitBook .bid 5 none (some 10)))
      (fun out => (sampleBid.book.terms 1).map (·.expiresAt) = some (some 5000) ∧
        out.1.book.terms 1 = none ∧
        (out.1.book.expiredLimitClaims 1).map (·.expiresAt) = some none)
      (fun _ => False) := by
    decide +kernel
  obtain ⟨out, hcall, hterms, hrow, hclaim⟩ := hok.accepted
  obtain ⟨t, ht, htexp⟩ := Option.map_eq_some_iff.1 hterms
  obtain ⟨r, hr, hrexp⟩ := Option.map_eq_some_iff.1 hclaim
  have hstate : sampleBid.book.orderState 1 = .resting t := by
    simp only [Book.orderState, ht]
  have hstate' : out.1.book.orderState 1 = .parked r := by
    simp only [Book.orderState, hrow, hr]
  have hexp := hall _ _ _ _ _ _ _ h hcall 1 t r hstate hstate'
  rw [htexp, hrexp] at hexp
  cases hexp

end Cl8yDex
