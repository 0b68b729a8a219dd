import Cl8yDex.LiquiditySpec
import Cl8yDex.SwapSpec

/-!
# What a message to the pair does

Every accepted message is a swap, a deposit, a withdrawal, an operation on the book, a growth of
the oracle's ring, a sweep or a change of the configuration. No message finds an escrow counter too
small.
-/

namespace Cl8yDex

open Outcome

section Gates

variable {p : PairStorage} {q : Querier} {env : Env} {sender : Addr}

theorem probeFactoryBlacklist_noUnderflow (info : PairInfo) (check : BlacklistCheck) :
    Meets (probeFactoryBlacklist q info check) (fun _ => True) (fun e => ¬e.Underflow) :=
  (orThrow_noUnderflow (by rintro ⟨_, _, ⟨⟩⟩)).bind fun _ _ =>
    (ensure_noUnderflow (by rintro ⟨_, _, ⟨⟩⟩)).weaken fun _ _ => trivial

theorem gateTradingBlacklist_noUnderflow (wallets extraTokens : List Addr) :
    Meets (p.gateTradingBlacklist q env wallets extraTokens) (fun _ => True)
      (fun e => ¬e.Underflow) := by
  have hloop : ∀ tokens (l : List Addr), Meets (l.forM fun wallet =>
      probeFactoryBlacklist q p.pairInfo ⟨some wallet, tokens, some env.contract⟩) (fun _ => True)
      (fun e => ¬e.Underflow) := by
    intro tokens l
    induction l with
    | nil => exact trivial
    | cons wallet l ih => exact (probeFactoryBlacklist_noUnderflow _ _).bind fun _ _ => ih
  unfold PairStorage.gateTradingBlacklist assertTradeNotBlacklisted
  cases wallets with
  | nil => exact probeFactoryBlacklist_noUnderflow _ _
  | cons wallet l => exact hloop _ _

theorem assertPinAndWhitelist_noUnderflow (info : PairInfo) (token : Addr) (pinned : ℕ) :
    Meets (assertPinAndWhitelist q info token pinned) (fun _ => True) (fun e => ¬e.Underflow) := by
  unfold assertPinAndWhitelist
  refine (orThrow_noUnderflow (by rintro ⟨_, _, ⟨⟩⟩)).bind fun _ _ => ?_
  refine (ensure_noUnderflow (by rintro ⟨_, _, ⟨⟩⟩)).bind fun _ _ => ?_
  exact (orThrow_noUnderflow (by rintro ⟨_, _, ⟨⟩⟩)).bind fun _ _ =>
    (ensure_noUnderflow (by rintro ⟨_, _, ⟨⟩⟩)).weaken fun _ _ => trivial

theorem gateAssetCodeIds_noUnderflow :
    Meets (p.gateAssetCodeIds q) (fun _ => True) (fun e => ¬e.Underflow) := by
  unfold PairStorage.gateAssetCodeIds
  refine (orThrow_noUnderflow (by rintro ⟨_, _, ⟨⟩⟩)).bind fun _ _ => ?_
  exact (assertPinAndWhitelist_noUnderflow _ _ _).bind fun _ _ =>
    assertPinAndWhitelist_noUnderflow _ _ _

theorem assertNotPaused_noUnderflow :
    Meets p.assertNotPaused (fun _ => True) (fun e => ¬e.Underflow) :=
  (ensure_noUnderflow (by rintro ⟨_, _, ⟨⟩⟩)).weaken fun _ _ => trivial

theorem assertFactory_noUnderflow :
    Meets (p.assertFactory sender) (fun _ => True) (fun e => ¬e.Underflow) :=
  (ensure_noUnderflow (by rintro ⟨_, _, ⟨⟩⟩)).weaken fun _ _ => trivial

theorem assertDeadline_noUnderflow (deadline : Option ℕ) :
    Meets (assertDeadline env deadline) (fun _ => True) (fun e => ¬e.Underflow) := by
  cases deadline with
  | none => exact trivial
  | some dl => exact (ensure_noUnderflow (by rintro ⟨_, _, ⟨⟩⟩)).weaken fun _ _ => trivial

theorem makerGate_noUnderflow :
    Meets (makerGate p q env sender) (fun _ => True) (fun e => ¬e.Underflow) := by
  unfold makerGate
  refine assertNotPaused_noUnderflow.bind fun _ _ => ?_
  exact (gateTradingBlacklist_noUnderflow _ _).bind fun _ _ => gateAssetCodeIds_noUnderflow

theorem mapM_addrValidate_noUnderflow (a : Option Addr) :
    Meets (a.mapM q.addrValidate) (fun _ => True) (fun e => ¬e.Underflow) := by
  cases a with
  | none => exact trivial
  | some a => exact (addrValidate_noUnderflow q a).bind fun _ _ => trivial

end Gates

section Messages

/-- A message to a token or to the discount registry, neither of which answers with a call. -/
def CosmosMsg.Quiet : CosmosMsg → Prop
  | transfer .. | deregisterWallet .. => True
  | _ => False

/-- A response of transfers only, but for a stale registration. -/
def QuietMessages (out : PairStorage × Response) : Prop := ∀ m ∈ out.2.messages, m.Quiet

variable {p : PairStorage} {q : Querier} {env : Env} {sender : Addr}

theorem quiet_maybeTransfer {token recipient : Addr} {n : ℕ} {m : CosmosMsg}
    (h : m ∈ maybeTransfer token recipient n) : m.Quiet := by
  unfold maybeTransfer at h
  split_ifs at h
  · cases h
  · rw [List.mem_singleton.1 h]
    exact trivial

theorem quiet_append {l r : List CosmosMsg} (hl : ∀ m ∈ l, m.Quiet) (hr : ∀ m ∈ r, m.Quiet) :
    ∀ m ∈ l ++ r, m.Quiet := fun m hm => (List.mem_append.1 hm).elim (hl m) (hr m)

theorem executeCancelLimitOrder_quiet (orderId : OrderId) :
    Meets (executeCancelLimitOrder p sender orderId) QuietMessages fun _ => True := by
  refine (meets_true _).bind fun o _ => ?_
  refine (meets_true _).bind fun _ _ => ?_
  refine (meets_true _).bind fun out _ => ?_
  refine (meets_true _).bind fun b _ m hm => ?_
  rw [List.mem_singleton.1 hm]
  exact trivial

theorem executeClaimExpiredLimitOrder_quiet (orderId : OrderId) :
    Meets (executeClaimExpiredLimitOrder p sender orderId) QuietMessages fun _ => True := by
  refine (meets_true _).bind fun row _ => ?_
  refine (meets_true _).bind fun _ _ => ?_
  exact (meets_true _).bind fun b _ m hm => quiet_maybeTransfer hm

theorem executeBatchRefund_quiet (orderIds : List OrderId)
    (takeOut : Addr → RefundState → OrderId → Except ContractError RefundState)
    (path : EscrowPath) (attributes : Attributes) :
    Meets (executeBatchRefund p sender orderIds takeOut path attributes) QuietMessages
      fun _ => True := by
  refine (meets_true _).bind fun _ _ => ?_
  refine (meets_true _).bind fun st _ => ?_
  refine (meets_true _).bind fun b _ => ?_
  refine (meets_true _).bind fun b' _ => ?_
  exact quiet_append (fun m => quiet_maybeTransfer) fun m => quiet_maybeTransfer

theorem executeUpdateLimitOrderPrice_quiet (orderId : OrderId) (price : Decimal)
    (hint : Option OrderId) (maxAdjustSteps : ℕ) :
    Meets (executeUpdateLimitOrderPrice p q env sender orderId price hint maxAdjustSteps)
      QuietMessages fun _ => True := by
  refine (meets_true _).bind fun decimals _ => ?_
  refine (meets_true _).bind fun _ _ => ?_
  refine (meets_true _).bind fun o _ => ?_
  refine (meets_true _).bind fun _ _ => ?_
  refine (meets_true _).bind fun _ _ => ?_
  refine (meets_true _).bind fun _ _ => ?_
  exact (meets_true _).bind fun b _ m hm => by cases hm

theorem executeCleanLimitBook_quiet (side : LimitOrderSide) (maxOrders : ℕ)
    (startHint : Option OrderId) (maxSteps : Option ℕ) :
    Meets (executeCleanLimitBook p env side maxOrders startHint maxSteps) QuietMessages
      fun _ => True :=
  (meets_true _).bind fun out _ m hm => by cases hm

theorem executePlaceLimitOrdersBatch_quiet (offerToken owner : Addr) (sendAmount : ℕ)
    (side : LimitOrderSide) (orders : List LimitOrderPlacementItem) :
    Meets (executePlaceLimitOrdersBatch p q env offerToken owner sendAmount side orders)
      QuietMessages fun _ => True := by
  refine (meets_true _).bind fun _ _ => ?_
  refine (meets_true _).bind fun decimals _ => ?_
  refine ((effectiveFeeBpsWithDiscountMsgs_spec q p.discountCache env.blockTime p.feeConfig.feeBps
    p.discountRegistry owner).mono (fun _ h => h) fun _ _ => trivial).bind fun fees hdereg => ?_
  refine (meets_true _).bind fun _ _ => ?_
  refine (meets_true _).bind fun out _ => ?_
  refine (meets_true _).bind fun st _ => ?_
  refine (meets_true _).bind fun b _ => ?_
  refine (meets_true _).bind fun _ _ => ?_
  refine (meets_true _).bind fun refund _ => ?_
  refine quiet_append (quiet_append (fun m hm => ?_) fun m => quiet_maybeTransfer)
    fun m => quiet_maybeTransfer
  have hd := hdereg m hm
  cases m with
  | deregisterWallet r w e => exact trivial
  | _ => exact absurd hd id

theorem executePlaceLimitOrderLadder_quiet (offerToken owner : Addr) (sendAmount : ℕ)
    (ladder : LimitOrderLadderSpec) :
    Meets (executePlaceLimitOrderLadder p q env offerToken owner sendAmount ladder) QuietMessages
      fun _ => True := by
  refine (meets_true _).bind fun decimals _ => ?_
  refine (meets_true _).bind fun orders _ => ?_
  exact executePlaceLimitOrdersBatch_quiet _ _ _ _ _

end Messages

/-- The user on whose behalf a message acts: token messages name the sender of the tokens. -/
def ExecuteMsg.user (sender : Addr) : ExecuteMsg → Addr
  | receive msg => msg.sender
  | _ => sender

/-- The tokens that arrived with a message; their contract is its sender. -/
def ExecuteMsg.incoming (info : PairInfo) (sender : Addr) : ExecuteMsg → LimitOrderSide → ℕ
  | receive msg => incomingOf info sender msg.amount
  | _ => fun _ => 0

/-- What an accepted message did. -/
inductive Served (p : PairStorage) (A : AbsBook) (q : Querier) (env : Env) (sender : Addr) :
    ExecuteMsg → PairStorage × Response → Prop
  | swapped {amount : ℕ} {user : Addr} {args : SwapArgs} {deadline : Option ℕ}
      {out : PairStorage × Response} (bps : ℕ) (parts : SwapParts)
      (h : Swapped p A q env sender user amount args bps out parts) :
      Served p A q env sender (.receive ⟨user, amount, .swap args deadline⟩) out
  | provided {assets : Asset × Asset} {tolerance : Option Decimal} {receiver : Option Addr}
      {deadline : Option ℕ} {out : PairStorage × Response} (d : Deposit)
      (h : Provided p env sender out d) :
      Served p A q env sender (.provideLiquidity assets tolerance receiver deadline) out
  | withdrawn {amount : ℕ} {user : Addr} {minAssets : Option (ℕ × ℕ)}
      {out : PairStorage × Response} (h : Withdrawn p env sender user amount out) :
      Served p A q env sender (.receive ⟨user, amount, .withdrawLiquidity minAssets⟩) out
  | booked {msg : ExecuteMsg} {out : PairStorage × Response}
      (h : Operation A p (msg.user sender) (msg.incoming p.pairInfo sender) out)
      (stored : out.1 = { p with book := out.1.book, discountCache := out.1.discountCache })
      (quiet : QuietMessages out) : Served p A q env sender msg out
  | grown {n : ℕ} {o : Oracle} (h : p.oracle.increaseObservationCardinality n = .ok o) :
      Served p A q env sender (.increaseObservationCardinality n)
        ({ p with oracle := o }, .plain (.increaseObservationCardinality n))
  | swept {token recipient : Addr} {balance : ℕ} (h : q.balance token env.contract = some balance)
      (hexcess : balance - p.reserveForToken token - p.pendingEscrowForToken token ≠ 0) :
      Served p A q env sender (.sweep token recipient)
        (p, ⟨[.transfer token recipient
          (balance - p.reserveForToken token - p.pendingEscrowForToken token)], [],
          .sweep token recipient
            (balance - p.reserveForToken token - p.pendingEscrowForToken token)⟩)
  | governed {msg : ExecuteMsg} {out : PairStorage × Response}
      (hfactory : sender = p.pairInfo.factory)
      (incoming : msg.incoming p.pairInfo sender = fun _ => 0) (stored : out.1 = { p with
        feeConfig := out.1.feeConfig
        hooks := out.1.hooks
        discountRegistry := out.1.discountRegistry
        assetCodeIds := out.1.assetCodeIds
        paused := out.1.paused
        maxBatchRungs := out.1.maxBatchRungs
        limitCleanConfig := out.1.limitCleanConfig })
      (messages : ∀ m ∈ out.2.messages, ∃ admin, m = .updateAdmin p.pairInfo.lpToken admin) :
      Served p A q env sender msg out

section Serve

variable {p : PairStorage} {A : AbsBook} {q : Querier} {env : Env} {sender : Addr}

theorem exists_takerFee (p : PairStorage) (q : Querier) (env : Env) (args : SwapArgs)
    (user : Addr) : ∃ bps, TakerFee p q env args user bps := by
  cases h : effectiveFeeBpsWithDeregisterMsgs q p.discountCache env.blockTime p.feeConfig.feeBps
      p.discountRegistry (args.trader.getD user) user with
  | ok out => exact ⟨out.2.1, fun out' hout' => by rw [Except.ok.inj (hout'.symm.trans h)]⟩
  | error e => exact ⟨0, fun out' hout' => by cases hout'.symm.trans h⟩

theorem receiveHandler_spec (h : Represents p.book A) (hbal : A.Balanced) (user : Addr)
    (amount : ℕ) (msg : Cw20HookMsg) : Meets (receiveHandler p q env sender user amount msg)
      (Served p A q env sender (.receive ⟨user, amount, msg⟩)) (fun e => ¬e.Underflow) := by
  cases msg with
  | swap args deadline =>
      obtain ⟨bps, hfee⟩ := exists_takerFee p q env args user
      refine (assertDeadline_noUnderflow deadline).bind fun _ _ => ?_
      refine (executeSwap_spec h hbal hfee).mono ?_ fun e he => he.1
      rintro out ⟨parts, hparts⟩
      exact .swapped bps parts hparts
  | placeLimitOrderBatch side orders =>
      exact ((executePlaceLimitOrdersBatch_spec h q env sender user amount side orders).and
        (executePlaceLimitOrdersBatch_quiet sender user amount side orders)).mono
          (fun out hout => .booked hout.1.1 hout.1.2.1 hout.2) fun e he => he.1
  | placeLimitOrderLadder ladder =>
      exact ((executePlaceLimitOrderLadder_spec h q env sender user amount ladder).and
        (executePlaceLimitOrderLadder_quiet sender user amount ladder)).mono
          (fun out hout => .booked hout.1.1 hout.1.2.1 hout.2) fun e he => he.1
  | withdrawLiquidity minAssets =>
      exact (executeWithdrawLiquidity_spec minAssets).weaken fun out hout => .withdrawn hout

theorem receiveWallets_noUnderflow (user : Addr) (msg : Cw20HookMsg) :
    Meets (receiveWallets q user msg) (fun _ => True) (fun e => ¬e.Underflow) := by
  unfold receiveWallets
  cases msg with
  | swap args deadline =>
      simp only
      cases args.trader with
      | none => exact trivial
      | some t => exact (addrValidate_noUnderflow q t).bind fun _ _ => trivial
  | _ => exact trivial

theorem executeReceive_spec (h : Represents p.book A) (hbal : A.Balanced) (msg : Cw20ReceiveMsg) :
    Meets (executeReceive p q env sender msg) (Served p A q env sender (.receive msg))
      (fun e => ¬e.Underflow) := by
  unfold executeReceive
  refine (addrValidate_noUnderflow q msg.sender).bind ?_
  rintro _ rfl
  refine (receiveWallets_noUnderflow _ _).bind fun wallets _ => ?_
  refine (gateTradingBlacklist_noUnderflow _ _).bind fun _ _ => ?_
  refine gateAssetCodeIds_noUnderflow.bind fun _ _ => ?_
  exact receiveHandler_spec h hbal msg.sender msg.amount msg.msg

/-- What the factory alone may do; `h` is the part of the handler behind the check of the caller. -/
theorem governed_spec {msg : ExecuteMsg} {f : Unit → Except ContractError (PairStorage × Response)}
    (hin : msg.incoming p.pairInfo sender = fun _ => 0)
    (h : Meets (f ()) (fun out => out.1 = { p with
        feeConfig := out.1.feeConfig
        hooks := out.1.hooks
        discountRegistry := out.1.discountRegistry
        assetCodeIds := out.1.assetCodeIds
        paused := out.1.paused
        maxBatchRungs := out.1.maxBatchRungs
        limitCleanConfig := out.1.limitCleanConfig } ∧
        ∀ m ∈ out.2.messages, ∃ admin, m = .updateAdmin p.pairInfo.lpToken admin)
      (fun e => ¬e.Underflow)) :
    Meets (p.assertFactory sender >>= f) (Served p A q env sender msg) (fun e => ¬e.Underflow) :=
  Meets.bind (Q := fun _ => sender = p.pairInfo.factory)
    (ensure_noUnderflow (by rintro ⟨_, _, ⟨⟩⟩)) fun _ hfactory =>
      h.weaken fun out hout => .governed hfactory hin hout.1 hout.2

theorem executeSweep_spec (token recipient : Addr) :
    Meets (executeSweep p q env sender token recipient)
      (Served p A q env sender (.sweep token recipient)) (fun e => ¬e.Underflow) := by
  unfold executeSweep
  refine assertFactory_noUnderflow.bind fun _ _ => ?_
  refine (addrValidate_noUnderflow q token).bind ?_
  rintro _ rfl
  refine (addrValidate_noUnderflow q recipient).bind ?_
  rintro _ rfl
  refine (orThrow_noUnderflow (by rintro ⟨_, _, ⟨⟩⟩)).bind fun balance hbalance => ?_
  refine (ensure_noUnderflow (by rintro ⟨_, _, ⟨⟩⟩)).bind fun _ hne => ?_
  exact .swept hbalance hne

theorem validatePairHooks_noUnderflow (hooks : List Addr) :
    Meets (validatePairHooks q hooks) (fun _ => True) (fun e => ¬e.Underflow) := by
  have hmap : Meets (hooks.mapM q.addrValidate) (fun _ => True) (fun e => ¬e.Underflow) := by
    induction hooks with
    | nil => exact trivial
    | cons a l ih =>
        rw [List.mapM_cons]
        exact (addrValidate_noUnderflow q a).bind fun _ _ => ih.bind fun _ _ => trivial
  unfold validatePairHooks
  refine Meets.bind (Q := fun _ => True) ?_ fun _ _ => ?_
  · exact (ensure_noUnderflow (by rintro ⟨_, _, ⟨⟩⟩)).weaken fun _ _ => trivial
  · exact hmap.bind fun validated _ =>
      (validateStoredHooks_noUnderflow validated).bind fun _ _ => trivial

theorem refreshAssetCodeIds_noUnderflow (info : PairInfo) :
    Meets (refreshAssetCodeIds q info) (fun _ => True) (fun e => ¬e.Underflow) := by
  have hlist : ∀ token codeId, Meets (assertWhitelisted q info token codeId) (fun _ => True)
      (fun e => ¬e.Underflow) := fun token codeId =>
    (orThrow_noUnderflow (by rintro ⟨_, _, ⟨⟩⟩)).bind fun _ _ =>
      (ensure_noUnderflow (by rintro ⟨_, _, ⟨⟩⟩)).weaken fun _ _ => trivial
  unfold refreshAssetCodeIds snapshotAssetCodeIds
  refine Meets.bind (Q := fun _ => True) ?_ fun _ _ => ?_
  · exact (orThrow_noUnderflow (by rintro ⟨_, _, ⟨⟩⟩)).bind fun _ _ =>
      (orThrow_noUnderflow (by rintro ⟨_, _, ⟨⟩⟩)).bind fun _ _ => trivial
  · exact (hlist _ _).bind fun _ _ => (hlist _ _).bind fun _ _ => trivial

theorem executeIncreaseObservationCardinality_spec (n : ℕ) :
    Meets (executeIncreaseObservationCardinality p n)
      (Served p A q env sender (.increaseObservationCardinality n)) (fun e => ¬e.Underflow) := by
  unfold executeIncreaseObservationCardinality
  cases h : p.oracle.increaseObservationCardinality n with
  | ok o => exact .grown h
  | error e =>
      have hgrow : Meets (p.oracle.increaseObservationCardinality n) (fun _ => True)
          (fun e => ¬e.Underflow) :=
        (ensure_noUnderflow (by rintro ⟨_, _, ⟨⟩⟩)).bind fun _ _ =>
          (ensure_noUnderflow (by rintro ⟨_, _, ⟨⟩⟩)).bind fun _ _ => trivial
      exact hgrow.failure h

/-- An operation on the book alone that sends quiet messages. -/
theorem served_of_quiet {msg : ExecuteMsg} {x : Except ContractError (PairStorage × Response)}
    (h : Meets x (fun out => Operation A p sender (fun _ => 0) out ∧
      out.1 = { p with book := out.1.book }) (fun e => ¬e.Underflow))
    (hquiet : Meets x QuietMessages fun _ => True) (huser : msg.user sender = sender)
    (hin : msg.incoming p.pairInfo sender = fun _ => 0) :
    Meets x (Served p A q env sender msg) (fun e => ¬e.Underflow) := by
  refine (h.and hquiet).mono (fun out hout => ?_) fun e he => he.1
  obtain ⟨⟨hop, hstored⟩, hq⟩ := hout
  refine .booked ?_ (by rw [hstored]) hq
  rw [huser, hin]
  exact hop

/-- The entry point of the pair, on a book whose counters are exact. -/
theorem execute_spec (h : Represents p.book A) (hbal : A.Balanced) (msg : ExecuteMsg) :
    Meets (execute p q env sender msg) (Served p A q env sender msg) (fun e => ¬e.Underflow) := by
  cases msg with
  | receive msg =>
      exact assertNotPaused_noUnderflow.bind fun _ _ => executeReceive_spec h hbal msg
  | provideLiquidity assets tolerance receiver deadline =>
      refine assertNotPaused_noUnderflow.bind fun _ _ => ?_
      refine (assertDeadline_noUnderflow deadline).bind fun _ _ => ?_
      refine (gateTradingBlacklist_noUnderflow _ _).bind fun _ _ => ?_
      refine gateAssetCodeIds_noUnderflow.bind fun _ _ => ?_
      refine (executeProvideLiquidity_spec assets tolerance receiver).weaken ?_
      rintro out ⟨d, hd⟩
      exact .provided d hd
  | swap offerAsset =>
      obtain ⟨info, amount⟩ := offerAsset
      cases info with
      | token a => rintro ⟨_, _, ⟨⟩⟩
      | nativeToken d => rintro ⟨_, _, ⟨⟩⟩
  | updateFee feeBps =>
      exact governed_spec rfl ((ensure_noUnderflow (by rintro ⟨_, _, ⟨⟩⟩)).bind fun _ _ =>
        ⟨rfl, fun m hm => by cases hm⟩)
  | updateTreasury treasury =>
      exact governed_spec rfl ((addrValidate_noUnderflow q treasury).bind fun _ _ =>
        ⟨rfl, fun m hm => by cases hm⟩)
  | updateHooks hooks =>
      exact governed_spec rfl ((validatePairHooks_noUnderflow hooks).bind fun _ _ =>
        ⟨rfl, fun m hm => by cases hm⟩)
  | increaseObservationCardinality n => exact executeIncreaseObservationCardinality_spec n
  | setDiscountRegistry registry =>
      exact governed_spec rfl ((mapM_addrValidate_noUnderflow registry).bind fun _ _ =>
        ⟨rfl, fun m hm => by cases hm⟩)
  | refreshAssetCodeIds =>
      exact governed_spec rfl ((refreshAssetCodeIds_noUnderflow p.pairInfo).bind fun _ _ =>
        ⟨rfl, fun m hm => by cases hm⟩)
  | setPaused paused => exact governed_spec rfl ⟨rfl, fun m hm => by cases hm⟩
  | sweep token recipient => exact executeSweep_spec token recipient
  | setLpAdmin admin =>
      exact governed_spec rfl ((addrValidate_noUnderflow q admin).bind fun admin _ =>
        ⟨rfl, fun m hm => ⟨admin, List.mem_singleton.1 hm⟩⟩)
  | cancelLimitOrder orderId =>
      exact makerGate_noUnderflow.bind fun _ _ =>
        served_of_quiet (executeCancelLimitOrder_spec h hbal sender orderId)
          (executeCancelLimitOrder_quiet orderId) rfl rfl
  | cancelLimitOrders orderIds =>
      exact makerGate_noUnderflow.bind fun _ _ =>
        served_of_quiet (executeCancelLimitOrders_spec h hbal sender orderIds)
          (executeBatchRefund_quiet orderIds _ _ _) rfl rfl
  | claimExpiredLimitOrder orderId =>
      exact makerGate_noUnderflow.bind fun _ _ =>
        served_of_quiet (executeClaimExpiredLimitOrder_spec h hbal sender orderId)
          (executeClaimExpiredLimitOrder_quiet orderId) rfl rfl
  | claimExpiredLimitOrders orderIds =>
      exact makerGate_noUnderflow.bind fun _ _ =>
        served_of_quiet (executeClaimExpiredLimitOrders_spec h hbal sender orderIds)
          (executeBatchRefund_quiet orderIds _ _ _) rfl rfl
  | updateLimitOrderPrice orderId price hint maxAdjustSteps =>
      exact makerGate_noUnderflow.bind fun _ _ =>
        served_of_quiet
          (executeUpdateLimitOrderPrice_spec h q env sender orderId price hint maxAdjustSteps)
          (executeUpdateLimitOrderPrice_quiet orderId price hint maxAdjustSteps) rfl rfl
  | updateLimitOrderConfig n =>
      exact governed_spec rfl ((ensure_noUnderflow (by rintro ⟨_, _, ⟨⟩⟩)).bind fun _ _ =>
        ⟨rfl, fun m hm => by cases hm⟩)
  | cleanLimitBook side maxOrders startHint maxSteps =>
      refine assertNotPaused_noUnderflow.bind fun _ _ => ?_
      refine gateAssetCodeIds_noUnderflow.bind fun _ _ => ?_
      exact served_of_quiet
        (executeCleanLimitBook_spec h env side maxOrders startHint maxSteps sender)
        (executeCleanLimitBook_quiet side maxOrders startHint maxSteps) rfl rfl
  | updateLimitCleanConfig config => exact governed_spec rfl ⟨rfl, fun m hm => by cases hm⟩

end Serve

section Facts

variable {p : PairStorage} {A : AbsBook} {q : Querier} {env : Env} {sender : Addr}
  {msg : ExecuteMsg} {out : PairStorage × Response}

/-- Whatever was served is a run of acts on the book. -/
theorem Served.effect (h : Served p A q env sender msg out) (hrep : Represents p.book A) :
    ∃ acts A', Effect A p (msg.user sender) acts A' out.1 out.2.messages := by
  cases h with
  | swapped bps parts h => exact ⟨_, _, h.effect⟩
  | provided d h =>
      obtain ⟨acts, A', heff, -⟩ := h.operation hrep
      exact ⟨acts, A', heff⟩
  | withdrawn h =>
      obtain ⟨acts, A', heff, -⟩ := h.operation hrep
      exact ⟨acts, A', heff⟩
  | booked h stored quiet =>
      obtain ⟨acts, A', heff, -⟩ := h
      exact ⟨acts, A', heff⟩
  | grown h => exact ⟨[], A, .idle hrep rfl rfl⟩
  | swept h hexcess => exact ⟨[], A, .idle hrep rfl rfl⟩
  | governed hfactory incoming stored messages =>
      exact ⟨[], A, .idle hrep (by rw [stored]) (by rw [stored])⟩

theorem Served.pairInfo (h : Served p A q env sender msg out) (hrep : Represents p.book A) :
    out.1.pairInfo = p.pairInfo := by
  obtain ⟨acts, A', heff⟩ := h.effect hrep
  exact heff.pairInfo

theorem amounts_of_updateAdmin {msgs : List CosmosMsg} {lpToken : Addr}
    (h : ∀ m ∈ msgs, ∃ admin, m = .updateAdmin lpToken admin) (token : Addr) :
    totalOf (CosmosMsg.sent token) msgs = 0 ∧ totalOf (CosmosMsg.pulled token) msgs = 0 := by
  refine ⟨totalOf_eq_zero fun m hm => ?_, totalOf_eq_zero fun m hm => ?_⟩
  · obtain ⟨admin, rfl⟩ := h m hm
    rfl
  · obtain ⟨admin, rfl⟩ := h m hm
    rfl

/-- Unless it was a sweep, the tokens add up. -/
theorem Served.conserves (h : Served p A q env sender msg out) (hrep : Represents p.book A)
    (hd : p.pairInfo.Distinct) : Conserves p out.1 (msg.incoming p.pairInfo sender) out.2.messages ∨
      ∃ token recipient, msg = .sweep token recipient := by
  cases h with
  | swapped bps parts h => exact .inl (h.conserves hrep hd)
  | provided d h =>
      obtain ⟨_, _, -, hcons⟩ := h.operation hrep
      exact .inl (hcons hd)
  | withdrawn h =>
      obtain ⟨_, _, -, hcons⟩ := h.operation hrep
      exact .inl (hcons hd)
  | booked h stored quiet =>
      obtain ⟨_, _, -, hcons⟩ := h
      exact .inl (hcons hd)
  | grown h => exact .inl fun s => by simp [ExecuteMsg.incoming, Response.plain, PairStorage.owed]
  | swept h hexcess => exact .inr ⟨_, _, rfl⟩
  | governed hfactory incoming stored messages =>
      refine .inl fun s => ?_
      obtain ⟨h1, h2⟩ := amounts_of_updateAdmin messages (p.pairInfo.escrowToken s)
      rw [h1, h2, incoming, stored]
      rfl

end Facts

end Cl8yDex
