import Cl8yDex.PairRuns
import Cl8yDex.WholeEventColumns

/-!
# The ordinals of swaps

A pair counts its swaps within one transaction and stamps each fill with the count. The count starts
from zero at the pair's first swap of a transaction, over any history of transactions, and so does
the number that the indexer gives a swap: the stamp of a fill names the swap that caused it.
-/

namespace Cl8yDex

open Outcome

def MatchEvent.isFill : MatchEvent → Bool
  | .limitOrderFill .. => true
  | .limitOrderExpiredParked .. => false

namespace PairStorage

/-- The ordinal of the next swap in a transaction. -/
def nextOrdinal (p : PairStorage) (scope : TxSwapScope) : ℕ :=
  if p.txSwapScope = some scope then p.txSwapCounter else 0

theorem openTxSwapScope_ordinal (p : PairStorage) (env : Env) :
    (p.openTxSwapScope env).txSwapCounter = p.nextOrdinal (txSwapScopeOf env) ∧
      (p.openTxSwapScope env).txSwapScope = some (txSwapScopeOf env) := by
  unfold openTxSwapScope nextOrdinal
  split
  · exact ⟨rfl, ‹_›⟩
  · exact ⟨rfl, rfl⟩

theorem advanceTxSwapIndex_ordinal {p : PairStorage} {env : Env}
    (h : p.txSwapScope = some (txSwapScopeOf env)) :
    (p.advanceTxSwapIndex env).txSwapCounter = p.txSwapCounter + 1 ∧
      (p.advanceTxSwapIndex env).txSwapScope = some (txSwapScopeOf env) := by
  unfold advanceTxSwapIndex
  rw [if_pos h]
  exact ⟨rfl, h⟩

end PairStorage

/-- A swap stamps its fills with the next ordinal and moves the count on. -/
structure CountsSwap (p : PairStorage) (env : Env) (out : PairStorage × Response)
    (report : SwapReport) : Prop where
  attributes : out.2.attributes = .swap report
  stamped : ∃ fills, out.2.events =
    stampSwapIndexOnFillEvents fills (p.nextOrdinal (PairStorage.txSwapScopeOf env))
  counter : out.1.txSwapCounter = p.nextOrdinal (PairStorage.txSwapScopeOf env) + 1
  scope : out.1.txSwapScope = some (PairStorage.txSwapScopeOf env)

structure KeepsOrdinal (p : PairStorage) (out : PairStorage × Response) : Prop where
  counter : out.1.txSwapCounter = p.txSwapCounter
  scope : out.1.txSwapScope = p.txSwapScope
  noSwap : ∀ report, out.2.attributes ≠ .swap report
  noFill : ∀ e ∈ out.2.events, e.event.isFill = false

section OneCall

variable {p : PairStorage} {q : Querier} {env : Env} {sender : Addr} {msg : ExecuteMsg}
  {out : PairStorage × Response}

theorem executeSwap_ordinals {offerToken : Addr} {inputAmount : ℕ} {args : SwapArgs}
    (h : executeSwap p q env offerToken sender inputAmount args = .ok out) :
    ∃ report, CountsSwap p env out report := by
  obtain ⟨plan, -, h⟩ := bind_eq_ok.1 h
  obtain ⟨p₁, hp, h⟩ := bind_eq_ok.1 h
  obtain ⟨oracle, -, hp⟩ := bind_eq_ok.1 hp
  cases hp
  obtain ⟨side, -, h⟩ := bind_eq_ok.1 h
  obtain ⟨receiver, -, h⟩ := bind_eq_ok.1 h
  obtain ⟨⟨cache, bps, deregisterMsgs⟩, -, h⟩ := bind_eq_ok.1 h
  obtain ⟨legs, -, h⟩ := bind_eq_ok.1 h
  obtain ⟨s, -, h⟩ := bind_eq_ok.1 h
  obtain ⟨hcounter, hscope⟩ := PairStorage.openTxSwapScope_ordinal
    { p with oracle := oracle, discountCache := cache } env
  have hsame : PairStorage.nextOrdinal { p with oracle := oracle, discountCache := cache }
      (PairStorage.txSwapScopeOf env) = p.nextOrdinal (PairStorage.txSwapScopeOf env) := rfl
  rw [hsame] at hcounter
  obtain ⟨hnext, hkept⟩ := @PairStorage.advanceTxSwapIndex_ordinal
    { PairStorage.openTxSwapScope { p with oracle := oracle, discountCache := cache } env with
      book := legs.book, reserves := legs.reserves } env hscope
  cases h
  refine ⟨_, rfl, ⟨legs.bookMatch.fillEvents, ?_⟩, ?_, hkept⟩
  · rw [← hcounter]
  · rw [← hcounter]
    exact hnext

/-- Every event of a clean is a park. -/
theorem cleanWalk_noFill {now minRemaining cap stepsLeft : ℕ} {cursor : Option OrderId}
    {st : CleanState} {res : CleanState × CleanEnd}
    (h : cleanWalk now minRemaining cap stepsLeft cursor st = .ok res)
    (hst : ∀ e ∈ st.events, e.isFill = false) : ∀ e ∈ res.1.events, e.isFill = false := by
  induction stepsLeft generalizing cursor st with
  | zero =>
    cases cursor with
    | none =>
      cases h
      exact hst
    | some oid =>
      unfold cleanWalk at h
      split at h <;> (cases h; exact hst)
  | succ stepsLeft ih =>
    cases cursor with
    | none =>
      cases h
      exact hst
    | some oid =>
      unfold cleanWalk at h
      split at h
      · cases h
        exact hst
      · obtain ⟨order, -, h⟩ := bind_eq_ok.1 h
        obtain ⟨st', hstep, h⟩ := bind_eq_ok.1 h
        refine ih h ?_
        unfold cleanStep at hstep
        split at hstep
        · obtain ⟨⟨b, ev⟩, hpark, hstep⟩ := bind_eq_ok.1 hstep
          obtain ⟨_, -, hpark⟩ := bind_eq_ok.1 hpark
          obtain ⟨⟨b', removed⟩, -, hpark⟩ := bind_eq_ok.1 hpark
          cases hpark
          cases hstep
          simpa [or_imp, forall_and, MatchEvent.isFill] using hst
        · cases hstep
          exact hst

theorem keepsOrdinal_of_eq {p' : PairStorage} {response : Response}
    (hcounter : p'.txSwapCounter = p.txSwapCounter) (hscope : p'.txSwapScope = p.txSwapScope)
    (hnoSwap : ∀ report, response.attributes ≠ .swap report) (hevents : response.events = []) :
    KeepsOrdinal p (p', response) := by
  refine ⟨hcounter, hscope, hnoSwap, fun e he => ?_⟩
  have hnone : e ∈ response.events := he
  rw [hevents] at hnone
  cases hnone

theorem executeBatch_ordinals {offerToken owner : Addr} {amount : ℕ} {side : LimitOrderSide}
    {orders : List LimitOrderPlacementItem}
    (h : executePlaceLimitOrdersBatch p q env offerToken owner amount side orders = .ok out) :
    KeepsOrdinal p out := by
  iterate 9 obtain ⟨_, -, h⟩ := bind_eq_ok.1 h
  cases h
  exact keepsOrdinal_of_eq rfl rfl (fun _ hattr => by cases hattr) rfl

theorem receiveHandler_ordinals {token user : Addr} {amount : ℕ} {hook : Cw20HookMsg}
    (h : receiveHandler p q env token user amount hook = .ok out) :
    (∃ report, CountsSwap p env out report) ∨ KeepsOrdinal p out := by
  cases hook with
  | swap args deadline =>
    obtain ⟨_, -, h⟩ := bind_eq_ok.1 h
    exact .inl (executeSwap_ordinals h)
  | placeLimitOrderBatch side orders => exact .inr (executeBatch_ordinals h)
  | placeLimitOrderLadder ladder =>
    obtain ⟨_, -, h⟩ := bind_eq_ok.1 h
    obtain ⟨_, -, h⟩ := bind_eq_ok.1 h
    exact .inr (executeBatch_ordinals h)
  | withdrawLiquidity minAssets =>
    right
    obtain ⟨_, -, h⟩ := bind_eq_ok.1 h
    obtain ⟨_, -, h⟩ := bind_eq_ok.1 h
    obtain ⟨p₁, hp, h⟩ := bind_eq_ok.1 h
    obtain ⟨oracle, -, hp⟩ := bind_eq_ok.1 hp
    cases hp
    iterate 6 obtain ⟨_, -, h⟩ := bind_eq_ok.1 h
    cases h
    exact keepsOrdinal_of_eq rfl rfl (fun _ hattr => by cases hattr) rfl

/-- An accepted message is a swap that counts, or leaves the count alone and emits no fill. -/
theorem execute_ordinals (h : execute p q env sender msg = .ok out) :
    (∃ report, CountsSwap p env out report) ∨ KeepsOrdinal p out := by
  have hrefund : ∀ {ids takeOut path attributes}, (∀ report, attributes ≠ Attributes.swap report) →
      executeBatchRefund p sender ids takeOut path attributes = .ok out → KeepsOrdinal p out := by
    intro ids takeOut path attributes hattr h
    iterate 4 obtain ⟨_, -, h⟩ := bind_eq_ok.1 h
    cases h
    exact keepsOrdinal_of_eq rfl rfl hattr rfl
  cases msg with
  | receive msg =>
    iterate 5 obtain ⟨_, -, h⟩ := bind_eq_ok.1 h
    exact receiveHandler_ordinals h
  | provideLiquidity assets tolerance receiver deadline =>
    right
    iterate 6 obtain ⟨_, -, h⟩ := bind_eq_ok.1 h
    obtain ⟨p₁, hp, h⟩ := bind_eq_ok.1 h
    obtain ⟨oracle, -, hp⟩ := bind_eq_ok.1 hp
    cases hp
    iterate 8 obtain ⟨_, -, h⟩ := bind_eq_ok.1 h
    cases h
    exact keepsOrdinal_of_eq rfl rfl (fun _ hattr => by cases hattr) rfl
  | swap offerAsset =>
    obtain ⟨info, amount⟩ := offerAsset
    cases info with
    | token _ => cases h
    | nativeToken _ => cases h
  | cancelLimitOrders orderIds =>
    right
    obtain ⟨_, -, h⟩ := bind_eq_ok.1 h
    exact hrefund (fun _ hattr => by cases hattr) h
  | claimExpiredLimitOrders orderIds =>
    right
    obtain ⟨_, -, h⟩ := bind_eq_ok.1 h
    exact hrefund (fun _ hattr => by cases hattr) h
  | cancelLimitOrder orderId =>
    right
    iterate 5 obtain ⟨_, -, h⟩ := bind_eq_ok.1 h
    cases h
    exact keepsOrdinal_of_eq rfl rfl (fun _ hattr => by cases hattr) rfl
  | claimExpiredLimitOrder orderId =>
    right
    iterate 4 obtain ⟨_, -, h⟩ := bind_eq_ok.1 h
    cases h
    exact keepsOrdinal_of_eq rfl rfl (fun _ hattr => by cases hattr) rfl
  | updateLimitOrderPrice orderId price hint steps =>
    right
    iterate 8 obtain ⟨_, -, h⟩ := bind_eq_ok.1 h
    cases h
    exact keepsOrdinal_of_eq rfl rfl (fun _ hattr => by cases hattr) rfl
  | cleanLimitBook side maxOrders startHint maxSteps =>
    right
    obtain ⟨_, -, h⟩ := bind_eq_ok.1 h
    obtain ⟨_, -, h⟩ := bind_eq_ok.1 h
    obtain ⟨res, hclean, h⟩ := bind_eq_ok.1 h
    obtain ⟨_, -, hclean⟩ := bind_eq_ok.1 hclean
    obtain ⟨_, -, hclean⟩ := bind_eq_ok.1 hclean
    have hparks := cleanWalk_noFill hclean fun e he => by cases he
    cases h
    refine ⟨rfl, rfl, fun _ hattr => (by cases hattr), fun e he => ?_⟩
    obtain ⟨ev, hev, rfl⟩ := List.mem_map.1 he
    exact hparks ev hev
  | sweep token recipient =>
    right
    iterate 5 obtain ⟨_, -, h⟩ := bind_eq_ok.1 h
    cases h
    exact keepsOrdinal_of_eq rfl rfl (fun _ hattr => by cases hattr) rfl
  | increaseObservationCardinality n | setPaused paused | updateLimitCleanConfig config =>
    right
    obtain ⟨_, -, h⟩ := bind_eq_ok.1 h
    cases h
    exact keepsOrdinal_of_eq rfl rfl (fun _ hattr => by cases hattr) rfl
  | updateFee feeBps | updateTreasury treasury | updateHooks hooks | setDiscountRegistry registry
  | refreshAssetCodeIds | setLpAdmin admin | updateLimitOrderConfig n =>
    right
    obtain ⟨_, -, h⟩ := bind_eq_ok.1 h
    obtain ⟨_, -, h⟩ := bind_eq_ok.1 h
    cases h
    exact keepsOrdinal_of_eq rfl rfl (fun _ hattr => by cases hattr) rfl

end OneCall

def TxSwapScope.Before (s t : TxSwapScope) : Prop :=
  s.height < t.height ∨ s.height = t.height ∧ s.txIndex < t.txIndex

namespace WasmEvents

/-- What one committed call adds to the events of a transaction: the response of a pair, or
attributes that are nobody's swap or fill. -/
inductive TxEntry
  | call (contract : String) (response : Response) (bookLeg : Bool)
  | plain (block : Block)

def TxEntry.emissions : TxEntry → List Emission
  | call contract response bookLeg => (responseEmissions response bookLeg).map (.pair contract)
  | plain block => [.other block]

/-- No fill without the ordinal of a swap. -/
def PairEmission.Stamped : PairEmission → Prop
  | book ⟨.limitOrderFill .., none⟩ => False
  | _ => True

/-- The bounds on what is emitted; that fills are stamped follows from the run. -/
def TxEntry.Bounded : TxEntry → Prop
  | call _ response bookLeg => ∀ e ∈ responseEmissions response bookLeg, e.Stamped → e.Bounded
  | plain _ => True

/-- A swap with the events of its response. -/
structure SwapEntry where
  report : SwapReport
  bookLeg : Bool
  events : List BookEvent

def TxEntry.swap (contract : String) : TxEntry → Option SwapEntry
  | call c ⟨_, events, .swap report⟩ bookLeg =>
    if c = contract then some ⟨report, bookLeg, events⟩ else none
  | _ => none

/-- The swaps of a pair in a transaction. -/
def swapsOf (contract : String) (log : List TxEntry) : List SwapEntry :=
  log.filterMap (TxEntry.swap contract)

def Block.Quiet (b : Block) : Prop :=
  ∀ a ∈ b.body, a.isAction = true → a.value ≠ "swap" ∧ a.value ≠ "limit_order_fill"

/-- A transaction that has committed so far. A pair that it creates is deployed before it. -/
inductive TxRun (scope : TxSwapScope) (chain : String → Option PairStorage) :
    List TxEntry → (String → Option PairStorage) → Prop
  | start : TxRun scope chain [] chain
  | call {log : List TxEntry} {chain' : String → Option PairStorage} {contract : String}
      {p : PairStorage} {q : Querier} {env : Env} {sender : Addr} {msg : ExecuteMsg}
      {out : PairStorage × Response} (bookLeg : Bool) (run : TxRun scope chain log chain')
      (hpair : chain' contract = some p) (hscope : PairStorage.txSwapScopeOf env = scope)
      (h : execute p q env sender msg = .ok out) :
      TxRun scope chain (log ++ [.call contract out.2 bookLeg])
        (Function.update chain' contract (some out.1))
  | plain {log : List TxEntry} {chain' : String → Option PairStorage} {block : Block}
      (run : TxRun scope chain log chain') (hblock : block.Unreserved)
      (hquiet : chain block.contract ≠ none → block.Quiet) :
      TxRun scope chain (log ++ [.plain block]) chain'

/-- The transactions so far and the place of the last one in the chain. -/
inductive History : (String → Option PairStorage) → Option TxSwapScope → Prop
  | genesis : History (fun _ => none) none
  | deploy {chain : String → Option PairStorage} {last : Option TxSwapScope} {contract : String}
      {p : PairStorage} (history : History chain last) (hnew : chain contract = none)
      (hp : Starts p) : History (Function.update chain contract (some p)) last
  | tx {chain chain' : String → Option PairStorage} {last : Option TxSwapScope}
      {scope : TxSwapScope} {log : List TxEntry} (history : History chain last)
      (hlater : ∀ s ∈ last, s.Before scope) (run : TxRun scope chain log chain') :
      History chain' (some scope)

section Counting

variable {scope : TxSwapScope} {chain chain' : String → Option PairStorage}
  {last : Option TxSwapScope} {log : List TxEntry} {contract : String} {p : PairStorage}

/-- A pair keeps the scope of the last transaction in which it swapped. -/
theorem TxRun.scopes (run : TxRun scope chain log chain') (hp : chain' contract = some p) :
    p.txSwapScope = some scope ∨
      ∃ p₀, chain contract = some p₀ ∧ p.txSwapScope = p₀.txSwapScope := by
  induction run generalizing contract p with
  | start => exact .inr ⟨p, hp, rfl⟩
  | @call log chain' c p₁ q env sender msg out bookLeg run hpair hscope h ih =>
    by_cases hc : contract = c
    · subst hc
      rw [Function.update_self] at hp
      obtain rfl := Option.some.inj hp
      rcases execute_ordinals h with ⟨report, hcounts⟩ | hkeeps
      · exact .inl (hscope ▸ hcounts.scope)
      · rw [hkeeps.scope]
        exact ih hpair
    · rw [Function.update_of_ne hc] at hp
      exact ih hp
  | plain run hblock hquiet ih => exact ih hp

theorem unscoped_of_starts (h : Starts p) : p.txSwapScope = none := by
  cases h with
  | intro h h' =>
  obtain ⟨lp, -, h'⟩ := bind_eq_ok.1 h'
  iterate 4 obtain ⟨_, -, h⟩ := bind_eq_ok.1 h
  cases h
  cases h'
  rfl

/-- No pair has swapped in a transaction that is still to come. -/
theorem History.fresh (history : History chain last) (hlater : ∀ s ∈ last, s.Before scope)
    (hp : chain contract = some p) : p.txSwapScope ≠ some scope := by
  induction history generalizing contract p scope with
  | genesis => cases hp
  | @deploy chain last c p₁ history hnew hstarts ih =>
    by_cases hc : contract = c
    · subst hc
      rw [Function.update_self] at hp
      obtain rfl := Option.some.inj hp
      rw [unscoped_of_starts hstarts]
      exact fun h => by cases h
    · rw [Function.update_of_ne hc] at hp
      exact ih hlater hp
  | @tx chain chain' last scope₁ log history hearlier run ih =>
    have hbefore : scope₁.Before scope := hlater scope₁ rfl
    rcases run.scopes hp with hscope | ⟨p₀, hp₀, hscope⟩
    · rw [hscope]
      intro heq
      rw [Option.some.inj heq] at hbefore
      unfold TxSwapScope.Before at hbefore
      omega
    · rw [hscope]
      refine ih (fun s hs => ?_) hp₀
      have hs₁ := hearlier s hs
      unfold TxSwapScope.Before at hs₁ hbefore ⊢
      omega

theorem swapsOf_append (entry : TxEntry) : swapsOf contract (log ++ [entry]) =
    swapsOf contract log ++ (entry.swap contract).toList := by
  unfold swapsOf
  rw [List.filterMap_append]
  cases h : entry.swap contract <;> simp [h]

theorem swap_of_noSwap {response : Response} {bookLeg : Bool} {c : String}
    (h : ∀ report, response.attributes ≠ .swap report) :
    (TxEntry.call c response bookLeg).swap contract = none := by
  obtain ⟨messages, events, attributes⟩ := response
  cases attributes with
  | swap report => exact absurd rfl (h report)
  | _ => rfl

theorem swap_of_other {response : Response} {bookLeg : Bool} {c : String} (h : c ≠ contract) :
    (TxEntry.call c response bookLeg).swap contract = none := by
  obtain ⟨messages, events, attributes⟩ := response
  cases attributes with
  | swap report => exact if_neg h
  | _ => rfl

theorem swap_of_report {response : Response} {bookLeg : Bool} {report : SwapReport}
    (h : response.attributes = .swap report) :
    (TxEntry.call contract response bookLeg).swap contract =
      some ⟨report, bookLeg, response.events⟩ := by
  obtain ⟨messages, events, attributes⟩ := response
  subst h
  exact if_pos rfl

/-- A pair's next ordinal counts its swaps of the transaction. -/
theorem TxRun.counts (run : TxRun scope chain log chain')
    (hfresh : ∀ p, chain contract = some p → p.txSwapScope ≠ some scope)
    (hp : chain' contract = some p) : p.nextOrdinal scope = (swapsOf contract log).length := by
  induction run generalizing p with
  | start => exact if_neg (hfresh p hp)
  | @call log chain' c p₁ q env sender msg out bookLeg run hpair hscope h ih =>
    rw [swapsOf_append, List.length_append]
    by_cases hc : contract = c
    · subst hc
      rw [Function.update_self] at hp
      obtain rfl := Option.some.inj hp
      have hbefore := ih hpair
      rcases execute_ordinals h with ⟨report, hcounts⟩ | hkeeps
      · rw [swap_of_report hcounts.attributes, PairStorage.nextOrdinal, ← hscope,
          if_pos hcounts.scope, hcounts.counter, hscope, hbefore]
        rfl
      · rw [swap_of_noSwap hkeeps.noSwap, PairStorage.nextOrdinal, hkeeps.scope, hkeeps.counter]
        exact hbefore
    · rw [Function.update_of_ne hc] at hp
      rw [swap_of_other (Ne.symm hc)]
      exact ih hp
  | plain run hblock hquiet ih =>
    rw [swapsOf_append, List.length_append]
    exact ih hp

end Counting

section Rows

variable (text : Addr → String) {scope : TxSwapScope} {chain chain' : String → Option PairStorage}
  {last : Option TxSwapScope} {log : List TxEntry} {contract : String} {p : PairStorage}

/-- The row of a swap that is the given one of its pair. -/
def SwapEntry.row (contract : String) (index : ℕ) (s : SwapEntry) : Option ParsedSwap :=
  PairEmission.swapRow text contract index (.swap s.report s.bookLeg)

/-- The rows of the fills of a swap, under its ordinal. -/
def SwapEntry.fillRows (contract : String) (index : ℕ) (s : SwapEntry) :
    List ParsedLimitOrderFill :=
  s.events.flatMap fun e => PairEmission.fillRows text contract (.book ⟨e.event, some index⟩)

theorem emissionsOf_append (es es' : List Emission) :
    emissionsOf contract (es ++ es') = emissionsOf contract es ++ emissionsOf contract es' :=
  List.filterMap_append

theorem emissionsOf_call {response : Response} {bookLeg : Bool} {c : String} :
    emissionsOf contract (TxEntry.call c response bookLeg).emissions =
      if c = contract then responseEmissions response bookLeg else [] := by
  unfold TxEntry.emissions emissionsOf
  rw [List.filterMap_map]
  split
  · rename_i hc
    subst hc
    simp
  · rename_i hc
    simp [hc]

theorem swapRowsFrom_append (n : ℕ) (es es' : List PairEmission) :
    swapRowsFrom text contract n (es ++ es') = swapRowsFrom text contract n es ++
      swapRowsFrom text contract (n + (swapRowsFrom text contract n es).length) es' := by
  induction es generalizing n with
  | nil => rfl
  | cons e es ih =>
    rw [List.cons_append, swapRowsFrom_cons, swapRowsFrom_cons, ih, List.append_assoc,
      List.length_append, Nat.add_assoc]

theorem swapRowsFrom_none {es : List PairEmission} (n : ℕ)
    (h : ∀ e ∈ es, ∀ n, e.swapRow text contract n = none) :
    swapRowsFrom text contract n es = [] := by
  induction es with
  | nil => rfl
  | cons e es ih =>
    obtain ⟨he, hes⟩ := List.forall_mem_cons.1 h
    rw [swapRowsFrom_cons, he n]
    exact ih hes

theorem swapRowsFrom_books (n : ℕ) (events : List BookEvent) :
    swapRowsFrom text contract n (events.map PairEmission.book) = [] := by
  refine swapRowsFrom_none text n fun e he n => ?_
  obtain ⟨event, -, rfl⟩ := List.mem_map.1 he
  rfl

theorem swapRowsFrom_response (n : ℕ) (response : Response) (bookLeg : Bool) :
    swapRowsFrom text contract n (responseEmissions response bookLeg) =
      ((TxEntry.call contract response bookLeg).swap contract).toList.filterMap
        (SwapEntry.row text contract n) := by
  obtain ⟨messages, events, attributes⟩ := response
  have hbooks : swapRowsFrom text contract n (events.map PairEmission.book) = [] :=
    swapRowsFrom_books text n events
  have hrest : swapRowsFrom text contract (n + 1) (events.map PairEmission.book) = [] :=
    swapRowsFrom_books text (n + 1) events
  cases attributes with
  | swap report =>
    rw [swap_of_report rfl, responseEmissions, swapRowsFrom_cons]
    exact congrArg (_ ++ ·) hrest
  | _ => first | exact hbooks | rfl

/-- The parsed swaps of a pair are its swaps of the log, numbered from zero. -/
theorem swapRows_of_log (log : List TxEntry) :
    swapRowsFrom text contract 0 (emissionsOf contract (log.flatMap TxEntry.emissions)) =
      (swapsOf contract log).zipIdx.filterMap fun s => s.1.row text contract s.2 := by
  induction log using List.reverseRecOn with
  | nil => rfl
  | append_singleton log entry ih =>
    have hlength : ((swapsOf contract log).zipIdx.filterMap
        fun s => s.1.row text contract s.2).length = (swapsOf contract log).length := by
      rw [List.filterMap_length_eq_length.2 fun s _ => rfl, List.length_zipIdx]
    rw [List.flatMap_append, List.flatMap_singleton, emissionsOf_append, swapRowsFrom_append, ih,
      swapsOf_append, List.zipIdx_append, List.filterMap_append, hlength, Nat.zero_add]
    refine congrArg (_ ++ ·) ?_
    cases entry with
    | plain block => rfl
    | call c response bookLeg =>
      rw [emissionsOf_call]
      split
      · rename_i hc
        subst hc
        rw [swapRowsFrom_response]
        cases (TxEntry.call c response bookLeg).swap c <;> rfl
      · rename_i hc
        rw [swap_of_other hc]
        rfl

theorem responseEmissions_swap {response : Response} {bookLeg : Bool} {report : SwapReport}
    (h : response.attributes = .swap report) : responseEmissions response bookLeg =
      .swap report bookLeg :: response.events.map PairEmission.book := by
  unfold responseEmissions
  rw [h]

theorem fillRows_swapResponse {response : Response} {bookLeg : Bool} {report : SwapReport}
    (h : response.attributes = .swap report) :
    (responseEmissions response bookLeg).flatMap (PairEmission.fillRows text contract) =
      response.events.flatMap fun e => PairEmission.fillRows text contract (.book e) := by
  rw [responseEmissions_swap h, List.flatMap_cons, List.flatMap_map]
  rfl

theorem fillRows_noFill {response : Response} {bookLeg : Bool}
    (h : ∀ e ∈ response.events, e.event.isFill = false) :
    (responseEmissions response bookLeg).flatMap (PairEmission.fillRows text contract) = [] := by
  have hbooks : (response.events.map PairEmission.book).flatMap
      (PairEmission.fillRows text contract) = [] := by
    rw [List.flatMap_map]
    refine List.flatMap_eq_nil_iff.2 fun e he => ?_
    have hpark := h e he
    obtain ⟨event, stamp⟩ := e
    cases event with
    | limitOrderFill => cases hpark
    | limitOrderExpiredParked => rfl
  unfold responseEmissions
  cases response.attributes <;> first | exact hbooks | rfl

theorem fillRows_stamp (fills : List MatchEvent) (index : ℕ) :
    (stampSwapIndexOnFillEvents fills index).flatMap
        (fun e => PairEmission.fillRows text contract (.book e)) =
      (stampSwapIndexOnFillEvents fills index).flatMap fun e =>
        PairEmission.fillRows text contract (.book ⟨e.event, some index⟩) := by
  refine List.flatMap_congr fun e he => ?_
  obtain ⟨event, -, rfl⟩ := List.mem_map.1 he
  cases event <;> rfl

/-- The fills that a pair emitted carry the ordinal of their swap. -/
theorem TxRun.fillRows (run : TxRun scope chain log chain')
    (hfresh : ∀ p, chain contract = some p → p.txSwapScope ≠ some scope) :
    (emissionsOf contract (log.flatMap TxEntry.emissions)).flatMap
        (PairEmission.fillRows text contract) =
      (swapsOf contract log).zipIdx.flatMap fun s => s.1.fillRows text contract s.2 := by
  induction run with
  | start => rfl
  | @call log chain' c p₁ q env sender msg out bookLeg run hpair hscope h ih =>
    rw [List.flatMap_append, List.flatMap_singleton, emissionsOf_append, List.flatMap_append, ih,
      swapsOf_append, List.zipIdx_append, List.flatMap_append, emissionsOf_call, Nat.zero_add]
    refine congrArg (_ ++ ·) ?_
    split
    · rename_i hc
      subst hc
      have hindex := run.counts hfresh hpair
      rcases execute_ordinals h with ⟨report, hcounts⟩ | hkeeps
      · obtain ⟨fills, hevents⟩ := hcounts.stamped
        rw [fillRows_swapResponse text hcounts.attributes, swap_of_report hcounts.attributes,
          Option.toList_some, List.zipIdx_singleton, List.flatMap_singleton, SwapEntry.fillRows,
          hevents, hscope, hindex]
        exact fillRows_stamp text fills _
      · rw [fillRows_noFill text hkeeps.noFill, swap_of_noSwap hkeeps.noSwap]
        rfl
    · rename_i hc
      rw [swap_of_other hc]
      rfl
  | plain run hblock hquiet ih =>
    rw [List.flatMap_append, emissionsOf_append, List.flatMap_append, ih, swapsOf_append,
      List.zipIdx_append, List.flatMap_append]
    refine congrArg (_ ++ ·) ?_
    rfl

/-- A block without an action gives a scan for it no rows. -/
theorem scanRows_none {α : Type} {action : String} {b : Block}
    (h : ∀ a ∈ b.body, a.isAction = true → a.value ≠ action)
    (single : String → Segment → Option α) (columnar : String → List Attribute → Option (List α)) :
    b.scanRows action single columnar = [] := by
  have hbody : ∀ (attrs before : List Attribute),
      (∀ a ∈ attrs, a.isAction = true → a.value ≠ action) →
        batchScan action single columnar before attrs = [] := by
    intro attrs
    induction attrs with
    | nil => exact fun before _ => batchScan_nil
    | cons a rest ih =>
      intro before hattrs
      obtain ⟨ha, hrest⟩ := List.forall_mem_cons.1 hattrs
      rw [batchScan_other]
      · exact ih _ hrest
      · by_cases hkey : a.key = "action"
        · have hvalue := ha (decide_eq_true hkey)
          simp [Attribute.hasAction, hvalue]
        · simp [Attribute.hasAction, hkey]
  unfold Block.scanRows WasmEvents.scanRows
  rw [hbody _ _ h]
  rfl

theorem quiet_scan {α : Type} {b : Block} (h : b.Quiet)
    (single : String → Segment → Option α) (columnar : String → List Attribute → Option (List α)) :
    b.scanRows "limit_order_fill" single columnar = [] :=
  scanRows_none (fun a ha haction => (h a ha haction).2) single columnar

theorem bodyActions_name {attrs : List Attribute} {position : ℕ} {act : BodyAction}
    (h : act ∈ bodyActions position attrs) :
    ∃ a ∈ attrs, a.isAction = true ∧ a.value = act.2.1 := by
  induction attrs generalizing position with
  | nil => cases h
  | cons a rest ih =>
    unfold bodyActions at h
    split at h
    · rcases List.mem_cons.1 h with rfl | h
      · exact ⟨a, List.mem_cons_self, ‹_›, rfl⟩
      · obtain ⟨a', ha', hrest⟩ := ih h
        exact ⟨a', List.mem_cons_of_mem _ ha', hrest⟩
    · obtain ⟨a', ha', hrest⟩ := ih h
      exact ⟨a', List.mem_cons_of_mem _ ha', hrest⟩

theorem quiet_actions {b : Block} (h : b.Quiet) :
    ∀ act ∈ b.unplacedActions, act.action ≠ "swap" := by
  intro act hact
  obtain ⟨placed, hplaced, rfl⟩ := List.mem_map.1 hact
  obtain ⟨action, haction, rfl⟩ := List.mem_map.1 hplaced
  obtain ⟨a, ha, hisAction, hvalue⟩ := bodyActions_name haction
  intro hswap
  exact (h a ha hisAction).1 (hvalue.trans hswap)

theorem stamped_of_swap {p : PairStorage} {env : Env} {out : PairStorage × Response}
    {report : SwapReport} (h : CountsSwap p env out report) :
    ∀ e ∈ out.2.events, (PairEmission.book e).Stamped := by
  obtain ⟨fills, hevents⟩ := h.stamped
  rw [hevents]
  intro e he
  obtain ⟨event, -, rfl⟩ := List.mem_map.1 he
  cases event <;> trivial

theorem stamped_of_noSwap {p : PairStorage} {out : PairStorage × Response}
    (h : KeepsOrdinal p out) : ∀ e ∈ out.2.events, (PairEmission.book e).Stamped := by
  intro e he
  have hpark := h.noFill e he
  obtain ⟨event, stamp⟩ := e
  cases event with
  | limitOrderFill => cases hpark
  | limitOrderExpiredParked => trivial

theorem responseEmissions_stamped {response : Response} {bookLeg : Bool}
    (h : ∀ e ∈ response.events, (PairEmission.book e).Stamped) :
    ∀ e ∈ responseEmissions response bookLeg, e.Stamped := by
  have hbooks : ∀ e ∈ response.events.map PairEmission.book, e.Stamped :=
    List.forall_mem_map.2 h
  unfold responseEmissions
  cases response.attributes <;>
    first | exact List.forall_mem_cons.2 ⟨trivial, hbooks⟩ | exact fun e he => (by cases he)

/-- No accepted message emits a fill without the ordinal of its swap. -/
theorem execute_stamped {p : PairStorage} {q : Querier} {env : Env} {sender : Addr}
    {msg : ExecuteMsg} {out : PairStorage × Response} (bookLeg : Bool)
    (h : execute p q env sender msg = .ok out) :
    ∀ e ∈ responseEmissions out.2 bookLeg, e.Stamped := by
  refine responseEmissions_stamped ?_
  rcases execute_ordinals h with ⟨report, hcounts⟩ | hkeeps
  · exact stamped_of_swap hcounts
  · exact stamped_of_noSwap hkeeps

theorem TxRun.apart_of {quiet : Block → Prop} (run : TxRun scope chain log chain')
    (hbounded : ∀ e ∈ log, e.Bounded)
    (hplain : ∀ b, .plain b ∈ log → b.contract = contract → quiet b) :
    ∀ e ∈ log.flatMap TxEntry.emissions, e.Apart quiet contract := by
  induction run with
  | start => simp
  | @call log chain' c p₁ q env sender msg out bookLeg run hchain hscope h ih =>
    rw [List.flatMap_append, List.flatMap_singleton]
    obtain ⟨hlog, hcall⟩ := List.forall_mem_append.1 hbounded
    have hbefore := ih hlog fun b hb => hplain b (List.mem_append_left _ hb)
    refine List.forall_mem_append.2 ⟨hbefore, fun e he => ?_⟩
    obtain ⟨emission, hemission, rfl⟩ := List.mem_map.1 he
    have hstamped := execute_stamped bookLeg h emission hemission
    exact hcall _ List.mem_cons_self emission hemission hstamped
  | @plain log chain' block run hblock hquiet ih =>
    rw [List.flatMap_append, List.flatMap_singleton]
    have hbefore := ih (List.forall_mem_append.1 hbounded).1
      fun b hb => hplain b (List.mem_append_left _ hb)
    refine List.forall_mem_append.2 ⟨hbefore, fun e he => ?_⟩
    rw [List.mem_singleton.1 he]
    exact ⟨hblock, hplain block (List.mem_append_right _ List.mem_cons_self)⟩

theorem TxRun.quiet (run : TxRun scope chain log chain') {b : Block} (hb : .plain b ∈ log)
    (hpair : chain b.contract ≠ none) : b.Quiet := by
  induction run with
  | start => cases hb
  | call bookLeg run hchain hscope h ih =>
    rcases List.mem_append.1 hb with hb | hb
    · exact ih hb
    · cases List.mem_singleton.1 hb
  | plain run hblock hquiet ih =>
    rcases List.mem_append.1 hb with hb | hb
    · exact ih hb
    · obtain rfl := TxEntry.plain.inj (List.mem_singleton.1 hb)
      exact hquiet hpair

theorem TxRun.apart (run : TxRun scope chain log chain') (hbounded : ∀ e ∈ log, e.Bounded)
    (hpair : chain contract ≠ none) :
    ∀ e ∈ log.flatMap TxEntry.emissions, e.Apart Block.Quiet contract :=
  run.apart_of hbounded fun _ hb hc => run.quiet hb (hc ▸ hpair)

/-- After any history, the parsers number the swaps of a pair in a transaction as the pair counted
them, and each fill of the pair has the number of the swap that emitted it. -/
theorem swap_fills_linked {tx : TxResponse} (history : History chain last)
    (hlater : ∀ s ∈ last, s.Before scope) (run : TxRun scope chain log chain')
    (hbounded : ∀ e ∈ log, e.Bounded) (hpair : chain contract ≠ none)
    (hdelivery : Separate text (log.flatMap TxEntry.emissions) tx ∨
      Flattened text (log.flatMap TxEntry.emissions) tx) :
    (parseSwaps tx).filter (fun row => row.pairAddress = contract) =
        (swapsOf contract log).zipIdx.filterMap (fun s => s.1.row text contract s.2) ∧
      (parseLimitOrderFills tx).filter (fun row => row.pairAddress = contract) =
        (swapsOf contract log).zipIdx.flatMap fun s => s.1.fillRows text contract s.2 := by
  have hapart := run.apart hbounded hpair
  constructor
  · rw [parseSwaps_apart text (fun _ => quiet_actions) hapart hdelivery]
    exact swapRows_of_log text log
  · rw [parseLimitOrderFills_apart text (fun b hb => quiet_scan hb _ _) hapart hdelivery]
    exact run.fillRows text fun p hp => history.fresh hlater hp

end Rows

section Sample

/-- A sale of 100000 that the first bid of the sample book takes. -/
def sampleSale : ExecuteMsg :=
  .receive ⟨7, 100000, .swap
    ⟨none, some ⟨9 * 10 ^ 17⟩, some 1, none, none, some ⟨0, 100000, 5, none⟩, none⟩ none⟩

def saleReport : SwapReport :=
  ⟨7, 7, 1, 2, 100000, 199700, 199700, 0, 0, 199700, 0, 0, 30, 100000, 300, 0, 0, false, none⟩

def saleFill (index : ℕ) : BookEvent :=
  ⟨.limitOrderFill 1 .bid 7 ⟨2 * 10 ^ 18⟩ 100000 200000 300, some index⟩

def chainOf (p : PairStorage) : String → Option PairStorage :=
  Function.update (fun _ => none) "terra1pair" (some p)

theorem TxRun.callPair {scope : TxSwapScope} {chain : String → Option PairStorage}
    {log : List TxEntry} {p : PairStorage} {env : Env} {sender : Addr} {msg : ExecuteMsg}
    {out : PairStorage × Response} (run : TxRun scope chain log (chainOf p))
    (hscope : PairStorage.txSwapScopeOf env = scope)
    (h : execute p .permissive env sender msg = .ok out) :
    TxRun scope chain (log ++ [.call "terra1pair" out.2 true]) (chainOf out.1) := by
  have hself : chainOf p "terra1pair" = some p := Function.update_self ..
  have hcall := TxRun.call true run hself hscope h
  unfold chainOf at hcall
  rw [Function.update_idem] at hcall
  exact hcall

theorem History.callPair {p : PairStorage} {t : ℕ} {last : Option TxSwapScope} {sender : Addr}
    {msg : ExecuteMsg} {out : PairStorage × Response} (history : History (chainOf p) last)
    (ht : ∀ s ∈ last, s.height < t)
    (h : execute p .permissive (sampleEnv t) sender msg = .ok out) :
    History (chainOf out.1) (some ⟨t, 0⟩) :=
  history.tx (fun s hs => .inl (ht s hs)) (TxRun.start.callPair rfl h)

/-- The pool and the bids of the sample book are a history. -/
theorem sampleBook_history : History (chainOf sampleBook) (some ⟨1006, 0⟩) := by
  have hdeposit : Meets (execute samplePair .permissive (sampleEnv 1000) 7 (.provideLiquidity
      (⟨.token 1, 1000000⟩, ⟨.token 2, 3000000⟩) none none none)) (fun _ => True)
      (fun _ => False) := by decide +kernel
  have hbids : Meets (execute samplePool .permissive (sampleEnv 1006) 2 (.receive ⟨7, 1000000,
      .placeLimitOrderBatch .bid [⟨⟨2 * 10 ^ 18⟩, 600000, 5, none, none⟩,
        ⟨⟨2 * 10 ^ 18⟩, 400000, 5, none, none⟩]⟩)) (fun _ => True) (fun _ => False) := by
    decide +kernel
  obtain ⟨deposited, hdeposited, -⟩ := hdeposit.accepted
  obtain ⟨placed, hplaced, -⟩ := hbids.accepted
  have hpool : deposited.1 = samplePool := by
    unfold samplePool PairStorage.transact
    rw [hdeposited]
  have hbook : placed.1 = sampleBook := by
    unfold sampleBook PairStorage.transact
    rw [hplaced]
  have hpair : History (chainOf samplePair) none := .deploy .genesis rfl samplePair_starts
  have hfirst := hpair.callPair (fun s hs => by cases hs) hdeposited
  rw [hpool] at hfirst
  rw [← hbook]
  refine hfirst.callPair (fun s hs => ?_) hplaced
  cases hs
  decide

theorem sale_bounded {response : Response} {index : ℕ} (hindex : index < 2 ^ 31)
    (hattr : response.attributes = .swap saleReport)
    (hevents : response.events = [saleFill index]) :
    (TxEntry.call "terra1pair" response true).Bounded := by
  have hfill : (PairEmission.book (saleFill index)).Bounded :=
    ⟨by decide, by decide, by decide, by decide, by decide, index, rfl, hindex⟩
  have hswap : (PairEmission.swap saleReport true).Bounded := by
    simp [PairEmission.Bounded, saleReport]
  intro e he _
  rw [responseEmissions_swap hattr, hevents] at he
  rcases List.mem_cons.1 he with rfl | he
  · exact hswap
  · rw [List.mem_singleton.1 he]
    exact hfill

/-- Both sales of one transaction take from the first bid, and their fills are told apart. -/
theorem swap_fills_linked_sample : ∃ log chain', TxRun ⟨1012, 0⟩ (chainOf sampleBook) log chain' ∧
    ((parseLimitOrderFills (separateTx (log.flatMap TxEntry.emissions))).filter
      (fun row => row.pairAddress = "terra1pair")).map
        (fun row => (row.orderId, row.swapIndex)) = [(1, 0), (1, 1)] := by
  have hsales : Meets (execute sampleBook .permissive (sampleEnv 1012) 1 sampleSale)
      (fun out => (out.2.attributes = .swap saleReport ∧ out.2.events = [saleFill 0]) ∧
        Meets (execute out.1 .permissive (sampleEnv 1012) 1 sampleSale) (fun next =>
          next.2.attributes = .swap saleReport ∧ next.2.events = [saleFill 1]) (fun _ => False))
      (fun _ => False) := by decide +kernel
  obtain ⟨out, hout, ⟨hattr, hevents⟩, hnext⟩ := hsales.accepted
  obtain ⟨next, hnext, hattr', hevents'⟩ := hnext.accepted
  have hrun := (TxRun.start.callPair rfl hout).callPair rfl hnext
  refine ⟨_, _, hrun, ?_⟩
  have hlinked := swap_fills_linked ownerText sampleBook_history ?_ hrun ?_
    (show chainOf sampleBook "terra1pair" ≠ none by simp [chainOf]) (.inl (separateTx_separate _))
  · rw [hlinked.2, swapsOf_append, swapsOf_append, swap_of_report hattr, swap_of_report hattr',
      hevents, hevents']
    rfl
  · intro s hs
    cases hs
    exact .inl (by decide)
  · intro e he
    rcases List.mem_append.1 he with he | he
    · rw [List.mem_singleton.1 he]
      exact sale_bounded (by decide) hattr hevents
    · rw [List.mem_singleton.1 he]
      exact sale_bounded (by decide) hattr' hevents'

end Sample

end WasmEvents

end Cl8yDex
