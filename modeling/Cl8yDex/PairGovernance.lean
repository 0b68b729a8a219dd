import Cl8yDex.OracleGrowth
import Cl8yDex.PairRuns

/-!
# Who may change what

The settings of a pair are the factory's: no run of messages from anybody else changes one. While
the pause flag is set nothing moves the reserves, the shares, the book or the escrow, and the only
tokens that leave the pair are the excess that the factory sweeps.
-/

namespace Cl8yDex

open Outcome

/-- The settings that only the factory writes. -/
structure SameSettings (p p' : PairStorage) : Prop where
  pairInfo : p'.pairInfo = p.pairInfo
  feeConfig : p'.feeConfig = p.feeConfig
  hooks : p'.hooks = p.hooks
  discountRegistry : p'.discountRegistry = p.discountRegistry
  assetCodeIds : p'.assetCodeIds = p.assetCodeIds
  paused : p'.paused = p.paused
  maxBatchRungs : p'.maxBatchRungs = p.maxBatchRungs
  limitCleanConfig : p'.limitCleanConfig = p.limitCleanConfig

/-- What stays while the pair is paused. -/
structure Frozen (p p' : PairStorage) : Prop where
  pairInfo : p'.pairInfo = p.pairInfo
  reserves : p'.reserves = p.reserves
  totalLpSupply : p'.totalLpSupply = p.totalLpSupply
  book : p'.book = p.book
  discountCache : p'.discountCache = p.discountCache
  txSwapScope : p'.txSwapScope = p.txSwapScope
  txSwapCounter : p'.txSwapCounter = p.txSwapCounter

/-- The ring with another cardinality; its observations stay where they are. -/
def Oracle.resized (o : Oracle) (n : ℕ) : Oracle :=
  { o with state := { o.state with cardinality := n } }

def Oracle.Widens (o o' : Oracle) : Prop := ∃ n, o.state.cardinality ≤ n ∧ o' = o.resized n

theorem Oracle.Widens.refl (o : Oracle) : o.Widens o := ⟨o.state.cardinality, le_rfl, rfl⟩

theorem Oracle.Widens.trans {o o' o'' : Oracle} (h : o.Widens o') (h' : o'.Widens o'') :
    o.Widens o'' := by
  obtain ⟨n, hle, rfl⟩ := h
  obtain ⟨n', hle', rfl⟩ := h'
  have hwide : n ≤ n' := hle'
  exact ⟨n', hle.trans hwide, rfl⟩

theorem SameSettings.refl (p : PairStorage) : SameSettings p p := by constructor <;> rfl

theorem SameSettings.trans {p p' p'' : PairStorage} (h : SameSettings p p')
    (h' : SameSettings p' p'') : SameSettings p p'' where
  pairInfo := h'.pairInfo.trans h.pairInfo
  feeConfig := h'.feeConfig.trans h.feeConfig
  hooks := h'.hooks.trans h.hooks
  discountRegistry := h'.discountRegistry.trans h.discountRegistry
  assetCodeIds := h'.assetCodeIds.trans h.assetCodeIds
  paused := h'.paused.trans h.paused
  maxBatchRungs := h'.maxBatchRungs.trans h.maxBatchRungs
  limitCleanConfig := h'.limitCleanConfig.trans h.limitCleanConfig

theorem Frozen.refl (p : PairStorage) : Frozen p p := by constructor <;> rfl

theorem Frozen.trans {p p' p'' : PairStorage} (h : Frozen p p') (h' : Frozen p' p'') :
    Frozen p p'' where
  pairInfo := h'.pairInfo.trans h.pairInfo
  reserves := h'.reserves.trans h.reserves
  totalLpSupply := h'.totalLpSupply.trans h.totalLpSupply
  book := h'.book.trans h.book
  discountCache := h'.discountCache.trans h.discountCache
  txSwapScope := h'.txSwapScope.trans h.txSwapScope
  txSwapCounter := h'.txSwapCounter.trans h.txSwapCounter

section OneMessage

variable {p : PairStorage} {A : AbsBook} {q : Querier} {env : Env} {sender : Addr}
  {msg : ExecuteMsg} {out : PairStorage × Response}

theorem sameSettings_of_stored {p' : PairStorage} (h : p' = { p with
    oracle := p'.oracle
    discountCache := p'.discountCache
    txSwapScope := p'.txSwapScope
    txSwapCounter := p'.txSwapCounter
    book := p'.book
    reserves := p'.reserves
    totalLpSupply := p'.totalLpSupply }) : SameSettings p p' := by
  rw [h]
  constructor <;> rfl

/-- A message that does not come from the factory leaves the settings alone. -/
theorem Served.sameSettings (h : Served p A q env sender msg out)
    (hne : sender ≠ p.pairInfo.factory) : SameSettings p out.1 := by
  cases h with
  | swapped bps parts h =>
      refine sameSettings_of_stored ?_
      rw [h.stored]
  | provided d h =>
      refine sameSettings_of_stored ?_
      rw [h.stored]
  | withdrawn h =>
      refine sameSettings_of_stored ?_
      rw [h.stored]
  | booked h stored quiet =>
      refine sameSettings_of_stored ?_
      rw [stored]
  | grown h => constructor <;> rfl
  | swept h hexcess => exact .refl p
  | governed hfactory incoming stored messages => exact absurd hfactory hne

/-- What a paused pair may send: the swept excess, or the LP token's new admin. -/
def IdleMessage (p : PairStorage) (q : Querier) (env : Env) (m : CosmosMsg) : Prop :=
  (∃ token recipient balance, q.balance token env.contract = some balance ∧
    m = .transfer token recipient
      (balance - p.reserveForToken token - p.pendingEscrowForToken token)) ∨
  ∃ admin, m = .updateAdmin p.pairInfo.lpToken admin

/-- An accepted message to a paused pair. -/
structure Idle (p : PairStorage) (q : Querier) (env : Env) (sender : Addr) (msg : ExecuteMsg)
    (out : PairStorage × Response) : Prop where
  frozen : Frozen p out.1
  ring : p.oracle.Widens out.1.oracle
  messages : ∀ m ∈ out.2.messages, IdleMessage p q env m
  outsider : sender ≠ p.pairInfo.factory → (∃ n, p.oracle.state.cardinality < n ∧
    n ≤ maxObservationCardinality ∧ msg = .increaseObservationCardinality n ∧
    out.1 = { p with oracle := p.oracle.resized n }) ∧ out.2.messages = []

theorem not_paused {f : Unit → Except ContractError (PairStorage × Response)}
    (h : (p.assertNotPaused >>= f) = .ok out) : p.paused = false := by
  obtain ⟨_, hp, -⟩ := bind_eq_ok.1 h
  exact Bool.eq_false_iff.2 (ensure_eq_ok.1 hp)

/-- An operation of the factory that writes one of its settings. -/
theorem idle_of_factory {f : Unit → Except ContractError (PairStorage × Response)}
    (h : (p.assertFactory sender >>= f) = .ok out)
    (hf : f () = .ok out → Frozen p out.1 ∧ out.1.oracle = p.oracle ∧
      ∀ m ∈ out.2.messages, IdleMessage p q env m) : Idle p q env sender msg out := by
  obtain ⟨_, hsender, h⟩ := bind_eq_ok.1 h
  obtain ⟨hfrozen, hring, hmessages⟩ := hf h
  refine ⟨hfrozen, ?_, hmessages, fun hne => absurd (ensure_eq_ok.1 hsender) hne⟩
  rw [hring]
  exact .refl p.oracle

/-- A setting of the factory that is stored as it is. -/
theorem idle_of_stored {stored : PairStorage} {attributes : Attributes}
    (h : (p.assertFactory sender >>= fun _ => pure (stored, .plain attributes)) = .ok out)
    (hfrozen : Frozen p stored) (hring : stored.oracle = p.oracle) :
    Idle p q env sender msg out := by
  refine idle_of_factory h fun h => ?_
  cases h
  exact ⟨hfrozen, hring, by simp [Response.plain]⟩

/-- A setting of the factory that is stored once it is checked. -/
theorem idle_of_checked {α : Type} {checked : Except ContractError α} {stored : α → PairStorage}
    {attributes : α → Attributes} (h : (p.assertFactory sender >>= fun _ =>
      checked >>= fun v => pure (stored v, .plain (attributes v))) = .ok out)
    (hfrozen : ∀ v, Frozen p (stored v)) (hring : ∀ v, (stored v).oracle = p.oracle) :
    Idle p q env sender msg out := by
  refine idle_of_factory h fun h => ?_
  obtain ⟨v, _, h⟩ := bind_eq_ok.1 h
  cases h
  exact ⟨hfrozen v, hring v, by simp [Response.plain]⟩

theorem idle_of_paused (hp : p.paused = true) (h : execute p q env sender msg = .ok out) :
    Idle p q env sender msg out := by
  have hgated : ∀ f : Unit → Except ContractError (PairStorage × Response),
      (p.assertNotPaused >>= f) = .ok out → Idle p q env sender msg out := by
    intro f hf
    rw [not_paused hf] at hp
    cases hp
  have hmaker : ∀ f : Unit → Except ContractError (PairStorage × Response),
      (makerGate p q env sender >>= f) = .ok out → Idle p q env sender msg out := by
    intro f hf
    obtain ⟨_, hgate, -⟩ := bind_eq_ok.1 hf
    obtain ⟨_, hnot, -⟩ := bind_eq_ok.1 hgate
    exact absurd hp (ensure_eq_ok.1 hnot)
  cases msg with
  | receive msg => exact hgated _ h
  | provideLiquidity assets tolerance receiver deadline => exact hgated _ h
  | swap offerAsset =>
      obtain ⟨info, amount⟩ := offerAsset
      cases info with
      | token _ => cases h
      | nativeToken _ => cases h
  | updateFee feeBps =>
      exact idle_of_checked h (fun _ => by constructor <;> rfl) fun _ => rfl
  | updateTreasury treasury =>
      exact idle_of_checked h (fun _ => by constructor <;> rfl) fun _ => rfl
  | updateHooks hooks =>
      exact idle_of_checked h (fun _ => by constructor <;> rfl) fun _ => rfl
  | increaseObservationCardinality n =>
      obtain ⟨o, hgrown, h⟩ := bind_eq_ok.1 h
      cases h
      obtain ⟨hmax, hlt, rfl⟩ := Oracle.increase_eq_ok.1 hgrown
      refine ⟨by constructor <;> rfl, ⟨n, hlt.le, rfl⟩, by simp [Response.plain], fun _ => ?_⟩
      exact ⟨⟨n, hlt, hmax, rfl, rfl⟩, rfl⟩
  | setDiscountRegistry registry =>
      exact idle_of_checked h (fun _ => by constructor <;> rfl) fun _ => rfl
  | refreshAssetCodeIds =>
      exact idle_of_checked h (fun _ => by constructor <;> rfl) fun _ => rfl
  | setPaused paused =>
      exact idle_of_stored h (by constructor <;> rfl) rfl
  | sweep token recipient =>
      refine idle_of_factory h fun h => ?_
      obtain ⟨token', htoken, h⟩ := bind_eq_ok.1 h
      obtain ⟨recipient', _, h⟩ := bind_eq_ok.1 h
      obtain ⟨balance, hbalance, h⟩ := bind_eq_ok.1 h
      obtain ⟨_, _, h⟩ := bind_eq_ok.1 h
      cases h
      refine ⟨.refl p, rfl, fun m hm => .inl ⟨token', recipient', balance, ?_, ?_⟩⟩
      · exact orThrow_eq_ok.1 hbalance
      · exact List.mem_singleton.1 hm
  | setLpAdmin admin =>
      refine idle_of_factory h fun h => ?_
      obtain ⟨admin', _, h⟩ := bind_eq_ok.1 h
      cases h
      exact ⟨.refl p, rfl, fun m hm => .inr ⟨admin', List.mem_singleton.1 hm⟩⟩
  | cancelLimitOrder orderId => exact hmaker _ h
  | cancelLimitOrders orderIds => exact hmaker _ h
  | claimExpiredLimitOrder orderId => exact hmaker _ h
  | claimExpiredLimitOrders orderIds => exact hmaker _ h
  | updateLimitOrderPrice orderId price hint steps => exact hmaker _ h
  | updateLimitOrderConfig n =>
      exact idle_of_checked h (fun _ => by constructor <;> rfl) fun _ => rfl
  | cleanLimitBook side maxOrders startHint maxSteps => exact hgated _ h
  | updateLimitCleanConfig config =>
      exact idle_of_stored h (by constructor <;> rfl) rfl

end OneMessage

section Runs

variable {p p' : PairStorage}

/-- An accepted message from anybody but the factory. -/
def OutsideCall (p p' : PairStorage) : Prop :=
  ∃ q env sender msg out, execute p q env sender msg = .ok out ∧ sender ≠ p.pairInfo.factory ∧
    p' = out.1

/-- An accepted message to a pair whose pause flag is set. -/
def PausedCall (p p' : PairStorage) : Prop :=
  p.paused = true ∧ ∃ q env sender msg out, execute p q env sender msg = .ok out ∧ p' = out.1

/-- Whatever the others do, in any order, the settings stay as the factory left them. -/
theorem settings_only_by_factory (hp : Reachable p) (h : Relation.ReflTransGen OutsideCall p p') :
    Reachable p' ∧ SameSettings p p' := by
  induction h with
  | refl => exact ⟨hp, .refl p⟩
  | tail _ hstep ih =>
      obtain ⟨hreach, hsame⟩ := ih
      obtain ⟨q, env, sender, msg, out, hout, hne, rfl⟩ := hstep
      obtain ⟨A, hA⟩ := hreach.healthy
      have hserved := (execute_spec hA.rep hA.balanced _).success hout
      exact ⟨hreach.step (.call hout), hsame.trans (hserved.sameSettings hne)⟩

/-- A paused pair keeps its reserves, shares, book, escrow and observations, and pays out of none of
them. Whoever is not the factory can raise the cardinality of the ring and nothing else. -/
theorem paused_frozen (h : Relation.ReflTransGen PausedCall p p') :
    Frozen p p' ∧ p.oracle.Widens p'.oracle ∧ ∀ q env sender msg out, p'.paused = true →
      execute p' q env sender msg = .ok out →
      (∀ m ∈ out.2.messages, IdleMessage p' q env m) ∧
        (sender ≠ p.pairInfo.factory → (∃ n, p'.oracle.state.cardinality < n ∧
          n ≤ maxObservationCardinality ∧ msg = .increaseObservationCardinality n ∧
          out.1 = { p' with oracle := p'.oracle.resized n }) ∧ out.2.messages = []) := by
  have hkept : Frozen p p' ∧ p.oracle.Widens p'.oracle := by
    induction h with
    | refl => exact ⟨.refl p, .refl p.oracle⟩
    | tail _ hstep ih =>
        obtain ⟨hfrozen, hring⟩ := ih
        obtain ⟨hpaused, q, env, sender, msg, out, hout, rfl⟩ := hstep
        have hidle := idle_of_paused hpaused hout
        exact ⟨hfrozen.trans hidle.frozen, hring.trans hidle.ring⟩
  obtain ⟨hfrozen, hring⟩ := hkept
  refine ⟨hfrozen, hring, fun q env sender msg out hpaused hout => ?_⟩
  have hidle := idle_of_paused hpaused hout
  refine ⟨hidle.messages, fun hne => hidle.outsider ?_⟩
  rw [hfrozen.pairInfo]
  exact hne

end Runs

section Sample

/-- The pool of the sample run, paused by its factory. -/
def samplePaused : PairStorage :=
  samplePool.transact .permissive (sampleEnv 1006) 4 (.setPaused true)

def sampleGrown : PairStorage :=
  samplePaused.transact .permissive (sampleEnv 1012) 7 (.increaseObservationCardinality 500)

theorem settings_only_by_factory_sample :
    Reachable samplePool ∧ SameSettings samplePair samplePool := by
  have hcall : Meets (execute samplePair .permissive (sampleEnv 1000) 7 (.provideLiquidity
      (⟨.token 1, 1000000⟩, ⟨.token 2, 3000000⟩) none none none)) (fun _ => True)
      (fun _ => False) := by decide +kernel
  obtain ⟨out, hout, -⟩ := hcall.accepted
  have hpool : samplePool = out.1 := by
    unfold samplePool PairStorage.transact
    rw [hout]
  exact settings_only_by_factory ⟨_, samplePair_starts, .refl⟩
    (.single ⟨_, _, _, _, out, hout, by decide, hpool⟩)

theorem paused_frozen_sample : Frozen samplePaused sampleGrown ∧
    sampleGrown.oracle = samplePaused.oracle.resized 500 := by
  have hcall : Meets (execute samplePaused .permissive (sampleEnv 1012) 7
      (.increaseObservationCardinality 500)) (fun _ => True) (fun _ => False) := by decide +kernel
  obtain ⟨out, hout, -⟩ := hcall.accepted
  have hgrown : sampleGrown = out.1 := by
    unfold sampleGrown PairStorage.transact
    rw [hout]
  have hpaused : samplePaused.paused = true := by decide +kernel
  have hcalls := paused_frozen (.single ⟨hpaused, _, _, _, _, out, hout, hgrown⟩)
  have hnow := paused_frozen (.refl : Relation.ReflTransGen PausedCall samplePaused samplePaused)
  obtain ⟨⟨n, -, -, hn, hstored⟩, -⟩ := (hnow.2.2 _ _ _ _ _ hpaused hout).2 (by decide +kernel)
  cases hn
  refine ⟨hcalls.1, ?_⟩
  rw [hgrown, hstored]

end Sample

end Cl8yDex
