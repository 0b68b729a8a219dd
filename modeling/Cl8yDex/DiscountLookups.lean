import Cl8yDex.Execute
import Cl8yDex.SwapPlanSpec

/-!
# What a fee rests on

A fee lookup takes the cached answer while it is usable and asks the registry otherwise. Swaps and
limit placements are the only messages that look a fee up, and the only ones that touch the cache.
-/

namespace Cl8yDex

open Outcome

/-- The discount that an answer gives to a swap; without an answer there is none. -/
def swapDiscountBps (discount : Option DiscountResponse) : ℕ :=
  (discount.map (·.discountBps)).getD 0

/-- The discount that an answer gives to a limit placement. -/
def limitDiscountBps (discount : Option DiscountResponse) : ℕ :=
  (discount.map fun d => resolveLimitDiscountBps d.limitDiscountBps d.discountBps).getD 0

@[simp] theorem effectiveFeeBps_zero (feeBps : ℕ) : effectiveFeeBps feeBps 0 = feeBps := by
  simp [effectiveFeeBps]

section Lookup

variable (q : Querier) (c : DiscountCache) (blockTime feeBps : ℕ)

/-- The cache entry that a lookup may serve. -/
def usableEntry (trader sender : Addr) : Option DiscountCacheEntry :=
  (c trader sender).filter fun entry =>
    entry.isFresh blockTime ∧ ¬entry.discount.needsDeregister

/-- The query of a lookup and its answer, when the lookup makes one. -/
def registryQuery (discountRegistry : Option Addr) (trader sender : Addr) :
    Option (Addr × Option DiscountResponse) :=
  discountRegistry.bind fun registry =>
    if (usableEntry c blockTime trader sender).isSome then none
    else some (registry, q.getDiscount registry trader sender)

/-- What the answer of the registry leaves in the cache. -/
def cacheAfter (discountRegistry : Option Addr) (trader sender : Addr) : DiscountCache :=
  match registryQuery q c blockTime discountRegistry trader sender with
  | some (_, some discount) =>
      c.save trader sender (if discount.needsDeregister then none
        else some ⟨effectiveFeeBps feeBps discount.discountBps, discount, blockTime⟩)
  | _ => c

/-- What a lookup came to: the effective fee with the answer that it rests on. -/
inductive LookedUp (discountRegistry : Option Addr) (trader sender : Addr) :
    ℕ → Option DiscountResponse → Prop
  | noRegistry (h : discountRegistry = none) :
      LookedUp discountRegistry trader sender feeBps none
  | cached {registry : Addr} {entry : DiscountCacheEntry} (h : discountRegistry = some registry)
      (hentry : usableEntry c blockTime trader sender = some entry) :
      LookedUp discountRegistry trader sender entry.effectiveFeeBps (some entry.discount)
  | failed {registry : Addr}
      (h : registryQuery q c blockTime discountRegistry trader sender = some (registry, none)) :
      LookedUp discountRegistry trader sender feeBps none
  | answered {registry : Addr} {discount : DiscountResponse}
      (h : registryQuery q c blockTime discountRegistry trader sender =
        some (registry, some discount)) :
      LookedUp discountRegistry trader sender (effectiveFeeBps feeBps discount.discountBps)
        (some discount)

variable {q c blockTime feeBps} {discountRegistry : Option Addr} {trader sender : Addr}

theorem addrValidate_eq_ok {a b : Addr} (h : q.addrValidate a = .ok b) : b = a :=
  (addrValidate_spec q a).success h

theorem tryDiscountCacheHit_eq_ok {hit : Option (ℕ × DiscountResponse)}
    (h : tryDiscountCacheHit q c blockTime trader sender = .ok hit) :
    q.addrValidate trader = .ok trader ∧ q.addrValidate sender = .ok sender ∧
      hit = (usableEntry c blockTime trader sender).map fun entry =>
        (entry.effectiveFeeBps, entry.discount) := by
  obtain ⟨trader', htrader, h⟩ := bind_eq_ok.1 h
  obtain ⟨sender', hsender, h⟩ := bind_eq_ok.1 h
  cases addrValidate_eq_ok htrader
  cases addrValidate_eq_ok hsender
  exact ⟨htrader, hsender, (Except.ok.inj h).symm⟩

/-- The lookup of a fee, by the use it makes of the cache. -/
theorem lookupEffectiveFeeBpsCached_eq_ok {out : DiscountCache × ℕ × Option DiscountResponse}
    (h : lookupEffectiveFeeBpsCached q c blockTime feeBps discountRegistry trader sender =
      .ok out) :
    LookedUp q c blockTime feeBps discountRegistry trader sender out.2.1 out.2.2 ∧
      lookupEffectiveFeeBpsReadonly q c blockTime feeBps discountRegistry trader sender =
        out.2.1 ∧
      settleDiscount q out.1 discountRegistry trader sender out.2.2 =
        .ok (cacheAfter q c blockTime feeBps discountRegistry trader sender,
          (out.2.2.bind fun d => discountRegistry.map fun r =>
            deregisterMsgsForDiscount r trader d).getD []) := by
  cases discountRegistry with
  | none =>
      cases h
      exact ⟨.noRegistry rfl, rfl, rfl⟩
  | some registry =>
      obtain ⟨hit, hhit, h⟩ := bind_eq_ok.1 h
      obtain ⟨htrader, hsender, rfl⟩ := tryDiscountCacheHit_eq_ok hhit
      cases hentry : usableEntry c blockTime trader sender with
      | some entry =>
          rw [hentry] at hhit h
          cases h
          have hquery : registryQuery q c blockTime (some registry) trader sender = none := by
            simp [registryQuery, hentry]
          have hkept : entry.discount.needsDeregister = false := by
            have := (Option.filter_eq_some_iff.1 hentry).2
            simp only [decide_eq_true_eq] at this
            simpa using this.2
          refine ⟨.cached rfl hentry, by simp [lookupEffectiveFeeBpsReadonly, hhit], ?_⟩
          simp [settleDiscount, deregisterMsgsForDiscount, cacheAfter, hquery, hkept]
      | none =>
          rw [hentry] at hhit h
          have hquery : registryQuery q c blockTime (some registry) trader sender =
              some (registry, q.getDiscount registry trader sender) := by
            simp [registryQuery, hentry]
          cases hanswer : q.getDiscount registry trader sender with
          | none =>
              simp only [Option.map_none, lookupRegistry, hanswer] at h
              cases h
              rw [hanswer] at hquery
              exact ⟨.failed hquery, by simp [lookupEffectiveFeeBpsReadonly, hhit, hanswer],
                by simp [settleDiscount, cacheAfter, hquery]⟩
          | some discount =>
              simp only [Option.map_none, lookupRegistry, hanswer, htrader, hsender, ok_bind] at h
              cases h
              rw [hanswer] at hquery
              refine ⟨.answered hquery, by simp [lookupEffectiveFeeBpsReadonly, hhit, hanswer], ?_⟩
              simp only [settleDiscount, deregisterMsgsForDiscount, cacheAfter, hquery,
                saveDiscountCache, htrader, hsender, ok_bind]
              by_cases hderegister : discount.needsDeregister
              · simp [hderegister]
                rfl
              · simp [hderegister]

/-- The taker's fee is the fee of the lookup. -/
theorem effectiveFeeBpsWithDeregisterMsgs_eq_ok {out : DiscountCache × ℕ × List CosmosMsg}
    (h : effectiveFeeBpsWithDeregisterMsgs q c blockTime feeBps discountRegistry trader sender =
      .ok out) :
    ∃ looked, lookupEffectiveFeeBpsCached q c blockTime feeBps discountRegistry trader sender =
        .ok looked ∧ out.1 = cacheAfter q c blockTime feeBps discountRegistry trader sender ∧
      out.2.1 = looked.2.1 := by
  obtain ⟨looked, hlooked, h⟩ := bind_eq_ok.1 h
  obtain ⟨-, -, hsettle⟩ := lookupEffectiveFeeBpsCached_eq_ok hlooked
  dsimp only at h
  rw [hsettle, ok_bind] at h
  cases h
  exact ⟨looked, hlooked, rfl, rfl⟩

/-- The maker's fee applies the answer of the lookup to the fee in force. -/
theorem effectiveFeeBpsWithDiscountMsgs_eq_ok {owner : Addr}
    {out : DiscountCache × ℕ × List CosmosMsg}
    (h : effectiveFeeBpsWithDiscountMsgs q c blockTime feeBps discountRegistry owner = .ok out) :
    ∃ looked, lookupEffectiveFeeBpsCached q c blockTime feeBps discountRegistry owner owner =
        .ok looked ∧ out.1 = cacheAfter q c blockTime feeBps discountRegistry owner owner ∧
      out.2.1 = effectiveFeeBps feeBps (limitDiscountBps looked.2.2) := by
  obtain ⟨looked, hlooked, h⟩ := bind_eq_ok.1 h
  obtain ⟨-, -, hsettle⟩ := lookupEffectiveFeeBpsCached_eq_ok hlooked
  dsimp only at h
  rw [hsettle, ok_bind] at h
  cases h
  refine ⟨looked, hlooked, rfl, ?_⟩
  cases looked.2.2 with
  | none => exact (effectiveFeeBps_zero feeBps).symm
  | some discount => rfl

end Lookup

/-- What a fee is looked up for. -/
inductive FeeUse
  | swap (trader sender : Addr)
  | placement (owner : Addr)
  deriving DecidableEq

namespace FeeUse

def trader : FeeUse → Addr
  | swap trader _ => trader
  | placement owner => owner

def sender : FeeUse → Addr
  | swap _ sender => sender
  | placement owner => owner

/-- The fee that the attributes of a response report: a swap takes the fee of the lookup, a
placement applies the answer's limit discount to the fee in force. -/
def Reports (feeBps bps : ℕ) (discount : Option DiscountResponse) : FeeUse → Attributes → Prop
  | swap .., .swap report => report.effectiveFeeBps = bps
  | placement _, .placeLimitOrderBatch report =>
      report.effectiveFeeBps = effectiveFeeBps feeBps (limitDiscountBps discount)
  | _, _ => False

end FeeUse

def ExecuteMsg.feeUse : ExecuteMsg → Option FeeUse
  | .receive ⟨user, _, .swap args _⟩ => some (.swap (args.trader.getD user) user)
  | .receive ⟨user, _, .placeLimitOrderBatch ..⟩ => some (.placement user)
  | .receive ⟨user, _, .placeLimitOrderLadder ..⟩ => some (.placement user)
  | _ => none

section Message

variable {p : PairStorage} {q : Querier} {env : Env} {sender : Addr}
  {out : PairStorage × Response}

/-- An accepted message that looked a fee up. -/
structure FeeCharged (p : PairStorage) (q : Querier) (env : Env) (use : FeeUse)
    (out : PairStorage × Response) : Prop where
  cache : out.1.discountCache = cacheAfter q p.discountCache env.blockTime p.feeConfig.feeBps
    p.discountRegistry use.trader use.sender
  fee : ∃ looked, lookupEffectiveFeeBpsCached q p.discountCache env.blockTime p.feeConfig.feeBps
    p.discountRegistry use.trader use.sender = .ok looked ∧
      use.Reports p.feeConfig.feeBps looked.2.1 looked.2.2 out.2.attributes

theorem executeSwap_fee {offerToken user : Addr} {inputAmount : ℕ} {args : SwapArgs}
    (h : executeSwap p q env offerToken user inputAmount args = .ok out) :
    FeeCharged p q env (.swap (args.trader.getD user) user) out := by
  obtain ⟨plan, -, h⟩ := bind_eq_ok.1 h
  obtain ⟨p', hp', h⟩ := bind_eq_ok.1 h
  obtain ⟨o, -, rfl⟩ := updateOracle_spec.success hp'
  obtain ⟨side, -, h⟩ := bind_eq_ok.1 h
  obtain ⟨receiver, -, h⟩ := bind_eq_ok.1 h
  obtain ⟨fee, hfee, h⟩ := bind_eq_ok.1 h
  obtain ⟨looked, hlooked, hcache, hbps⟩ := effectiveFeeBpsWithDeregisterMsgs_eq_ok hfee
  obtain ⟨n, hscope⟩ := openTxSwapScope_eq { p with oracle := o, discountCache := fee.1 } env
  dsimp only at h hlooked hcache
  rw [hscope] at h
  obtain ⟨legs, -, h⟩ := bind_eq_ok.1 h
  obtain ⟨s, -, h⟩ := bind_eq_ok.1 h
  obtain ⟨m, hadvance⟩ := advanceTxSwapIndex_eq { p with
    oracle := o, discountCache := fee.1, txSwapScope := some (PairStorage.txSwapScopeOf env),
    txSwapCounter := n, book := legs.book, reserves := legs.reserves } env
  dsimp only at h
  rw [hadvance] at h
  cases h
  exact ⟨hcache, looked, hlooked, hbps⟩

theorem executePlaceLimitOrdersBatch_fee {offerToken owner : Addr} {sendAmount : ℕ}
    {side : LimitOrderSide} {orders : List LimitOrderPlacementItem}
    (h : executePlaceLimitOrdersBatch p q env offerToken owner sendAmount side orders = .ok out) :
    FeeCharged p q env (.placement owner) out := by
  obtain ⟨_, -, h⟩ := bind_eq_ok.1 h
  obtain ⟨decimals, -, h⟩ := bind_eq_ok.1 h
  obtain ⟨fee, hfee, h⟩ := bind_eq_ok.1 h
  obtain ⟨looked, hlooked, hcache, hlimit⟩ := effectiveFeeBpsWithDiscountMsgs_eq_ok hfee
  obtain ⟨_, -, h⟩ := bind_eq_ok.1 h
  obtain ⟨ids, -, h⟩ := bind_eq_ok.1 h
  obtain ⟨st, -, h⟩ := bind_eq_ok.1 h
  obtain ⟨b, -, h⟩ := bind_eq_ok.1 h
  obtain ⟨_, -, h⟩ := bind_eq_ok.1 h
  obtain ⟨refund, -, h⟩ := bind_eq_ok.1 h
  cases h
  exact ⟨hcache, looked, hlooked, hlimit⟩

theorem executePlaceLimitOrderLadder_fee {offerToken owner : Addr} {sendAmount : ℕ}
    {ladder : LimitOrderLadderSpec}
    (h : executePlaceLimitOrderLadder p q env offerToken owner sendAmount ladder = .ok out) :
    FeeCharged p q env (.placement owner) out := by
  obtain ⟨decimals, -, h⟩ := bind_eq_ok.1 h
  obtain ⟨orders, -, h⟩ := bind_eq_ok.1 h
  exact executePlaceLimitOrdersBatch_fee h

/-- Nothing else touches the cache. -/
def KeepsCache (p : PairStorage) (x : Except ContractError (PairStorage × Response)) : Prop :=
  Meets x (fun out => out.1.discountCache = p.discountCache) fun _ => True

theorem KeepsCache.bind {α : Type} {x : Except ContractError α}
    {f : α → Except ContractError (PairStorage × Response)} (hf : ∀ a, KeepsCache p (f a)) :
    KeepsCache p (x >>= f) :=
  (meets_true x).bind fun a _ => hf a

theorem keepsCache_provide {assets : Asset × Asset} {tolerance : Option Decimal}
    {receiver : Option Addr} :
    KeepsCache p (executeProvideLiquidity p q env sender assets tolerance receiver) := by
  apply KeepsCache.bind; intro amounts
  apply KeepsCache.bind; intro _
  refine (updateOracle_spec.mono (fun _ h => h) fun _ _ => trivial).bind ?_
  rintro _ ⟨o, -, rfl⟩
  apply KeepsCache.bind; intro lpTokens
  apply KeepsCache.bind; intro _
  apply KeepsCache.bind; intro mint
  apply KeepsCache.bind; intro _
  apply KeepsCache.bind; intro reserveA
  apply KeepsCache.bind; intro reserveB
  apply KeepsCache.bind; intro totalSupply
  apply KeepsCache.bind; intro lpReceiver
  exact rfl

theorem keepsCache_withdraw {token user : Addr} {amount : ℕ} {minAssets : Option (ℕ × ℕ)} :
    KeepsCache p (executeWithdrawLiquidity p env token user amount minAssets) := by
  apply KeepsCache.bind; intro _
  apply KeepsCache.bind; intro _
  refine (updateOracle_spec.mono (fun _ h => h) fun _ _ => trivial).bind ?_
  rintro _ ⟨o, -, rfl⟩
  apply KeepsCache.bind; intro _
  apply KeepsCache.bind; intro amounts
  apply KeepsCache.bind; intro _
  apply KeepsCache.bind; intro reserveA
  apply KeepsCache.bind; intro reserveB
  apply KeepsCache.bind; intro totalSupply
  exact rfl

theorem keepsCache_batchRefund {ids : List OrderId}
    {takeOut : Addr → RefundState → OrderId → Except ContractError RefundState} {path : EscrowPath}
    {attributes : Attributes} :
    KeepsCache p (executeBatchRefund p sender ids takeOut path attributes) := by
  apply KeepsCache.bind; intro _
  apply KeepsCache.bind; intro st
  apply KeepsCache.bind; intro b
  apply KeepsCache.bind; intro b'
  exact rfl

theorem keepsCache_cancel {orderId : OrderId} :
    KeepsCache p (executeCancelLimitOrder p sender orderId) := by
  apply KeepsCache.bind; intro o
  apply KeepsCache.bind; intro _
  apply KeepsCache.bind; intro removed
  apply KeepsCache.bind; intro b
  exact rfl

theorem keepsCache_claim {orderId : OrderId} :
    KeepsCache p (executeClaimExpiredLimitOrder p sender orderId) := by
  apply KeepsCache.bind; intro row
  apply KeepsCache.bind; intro _
  apply KeepsCache.bind; intro b
  exact rfl

theorem keepsCache_updatePrice {orderId : OrderId} {price : Decimal} {hint : Option OrderId}
    {steps : ℕ} :
    KeepsCache p (executeUpdateLimitOrderPrice p q env sender orderId price hint steps) := by
  apply KeepsCache.bind; intro decimals
  apply KeepsCache.bind; intro _
  apply KeepsCache.bind; intro o
  apply KeepsCache.bind; intro _
  apply KeepsCache.bind; intro _
  apply KeepsCache.bind; intro _
  apply KeepsCache.bind; intro b
  exact rfl

theorem keepsCache_clean {side : LimitOrderSide} {maxOrders : ℕ} {hint : Option OrderId}
    {maxSteps : Option ℕ} :
    KeepsCache p (executeCleanLimitBook p env side maxOrders hint maxSteps) := by
  apply KeepsCache.bind; intro cleaned
  exact rfl

/-- A handler behind the check of the factory. -/
theorem keepsCache_governed {f : Unit → Except ContractError (PairStorage × Response)}
    (h : KeepsCache p (f ())) : KeepsCache p (p.assertFactory sender >>= f) :=
  KeepsCache.bind fun _ => h

theorem keepsCache_receive {msg : Cw20ReceiveMsg}
    (h : (ExecuteMsg.receive msg).feeUse = none) :
    KeepsCache p (executeReceive p q env sender msg) := by
  obtain ⟨user, amount, hook⟩ := msg
  apply KeepsCache.bind; intro tokenSender
  apply KeepsCache.bind; intro wallets
  apply KeepsCache.bind; intro _
  apply KeepsCache.bind; intro _
  cases hook with
  | withdrawLiquidity minAssets => exact keepsCache_withdraw
  | _ => cases h

/-- Every other message leaves the cache alone. -/
theorem keepsCache_execute {msg : ExecuteMsg} (h : msg.feeUse = none) :
    KeepsCache p (execute p q env sender msg) := by
  cases msg with
  | receive msg => exact KeepsCache.bind fun _ => keepsCache_receive h
  | provideLiquidity assets tolerance receiver deadline =>
      apply KeepsCache.bind; intro _
      apply KeepsCache.bind; intro _
      apply KeepsCache.bind; intro _
      apply KeepsCache.bind; intro _
      exact keepsCache_provide
  | swap offerAsset =>
      obtain ⟨info, amount⟩ := offerAsset
      cases info <;> exact trivial
  | updateFee feeBps => exact keepsCache_governed (KeepsCache.bind fun _ => rfl)
  | updateTreasury treasury => exact keepsCache_governed (KeepsCache.bind fun _ => rfl)
  | updateHooks hooks => exact keepsCache_governed (KeepsCache.bind fun _ => rfl)
  | increaseObservationCardinality n => exact KeepsCache.bind fun _ => rfl
  | setDiscountRegistry registry => exact keepsCache_governed (KeepsCache.bind fun _ => rfl)
  | refreshAssetCodeIds => exact keepsCache_governed (KeepsCache.bind fun _ => rfl)
  | setPaused paused => exact keepsCache_governed rfl
  | sweep token recipient =>
      apply keepsCache_governed
      apply KeepsCache.bind; intro _
      apply KeepsCache.bind; intro _
      apply KeepsCache.bind; intro balance
      apply KeepsCache.bind; intro _
      exact rfl
  | setLpAdmin admin => exact keepsCache_governed (KeepsCache.bind fun _ => rfl)
  | cancelLimitOrder orderId => exact KeepsCache.bind fun _ => keepsCache_cancel
  | cancelLimitOrders ids => exact KeepsCache.bind fun _ => keepsCache_batchRefund
  | claimExpiredLimitOrder orderId => exact KeepsCache.bind fun _ => keepsCache_claim
  | claimExpiredLimitOrders ids => exact KeepsCache.bind fun _ => keepsCache_batchRefund
  | updateLimitOrderPrice orderId price hint steps =>
      exact KeepsCache.bind fun _ => keepsCache_updatePrice
  | updateLimitOrderConfig rungs => exact keepsCache_governed (KeepsCache.bind fun _ => rfl)
  | cleanLimitBook side maxOrders hint maxSteps =>
      apply KeepsCache.bind; intro _
      apply KeepsCache.bind; intro _
      exact keepsCache_clean
  | updateLimitCleanConfig config => exact keepsCache_governed rfl

/-- A message with a fee looks it up once, on the storage it finds. -/
theorem execute_fee {msg : ExecuteMsg} {use : FeeUse} (huse : msg.feeUse = some use)
    (h : execute p q env sender msg = .ok out) : FeeCharged p q env use out := by
  cases msg with
  | receive msg =>
      obtain ⟨user, amount, hook⟩ := msg
      obtain ⟨_, -, h⟩ := bind_eq_ok.1 h
      obtain ⟨tokenSender, hsender, h⟩ := bind_eq_ok.1 h
      cases addrValidate_eq_ok hsender
      obtain ⟨wallets, -, h⟩ := bind_eq_ok.1 h
      obtain ⟨_, -, h⟩ := bind_eq_ok.1 h
      obtain ⟨_, -, h⟩ := bind_eq_ok.1 h
      cases hook with
      | swap args deadline =>
          obtain ⟨_, -, h⟩ := bind_eq_ok.1 h
          cases huse
          exact executeSwap_fee h
      | placeLimitOrderBatch side orders =>
          cases huse
          exact executePlaceLimitOrdersBatch_fee h
      | placeLimitOrderLadder ladder =>
          cases huse
          exact executePlaceLimitOrderLadder_fee h
      | withdrawLiquidity minAssets => cases huse
  | _ => cases huse

end Message

end Cl8yDex
