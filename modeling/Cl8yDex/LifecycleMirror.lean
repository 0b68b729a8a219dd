import Cl8yDex.LifecycleTables
import Cl8yDex.SwapOrdinals

/-!
# The tables follow the orders of the chain

What the indexer reads of a transaction is what its pairs told of their orders, grouped by kind.
Each order's own story comes in the order of the kinds, so its rows are moved on step by step with
it, however many attempts at a block were cut short.
-/

namespace Cl8yDex.WasmEvents

open Outcome

section Kinds

variable (text : Addr → String) (tx : TxPlace) (contract : String)

def markOp (m : OrderId × OrderMark) : LifecycleOp := ⟨tx, contract, m.1, m.2.change text⟩

def ofKind (kind : MarkKind) (marks : List (OrderId × OrderMark)) : List (OrderId × OrderMark) :=
  marks.filter fun m => m.2.kind = kind

theorem ofKind_flatMap {α : Type} (kind : MarkKind) (l : List α)
    (f : α → List (OrderId × OrderMark)) :
    ofKind kind (l.flatMap f) = l.flatMap fun a => ofKind kind (f a) := List.filter_flatMap ..

variable {text tx contract} (e : PairEmission)

theorem placementOps : (e.placementRows text contract).map (fun p : ParsedLimitOrderPlacement =>
      (⟨tx, p.pairAddress, p.orderId, .placed p.owner p.side p.price p.expiresAt⟩ : LifecycleOp)) =
    (ofKind .placement e.marks).map (markOp text tx contract) := by
  cases e with
  | place report =>
    have hall : ofKind .placement (PairEmission.marks (.place report)) =
        PairEmission.marks (.place report) := by
      refine List.filter_eq_self.2 fun m hm => ?_
      obtain ⟨rung, -, rfl⟩ := List.mem_map.1 hm
      rfl
    rw [hall, PairEmission.placementRows, PairEmission.marks, List.map_map, List.map_map]
    rfl
  | book event =>
    obtain ⟨event, stamp⟩ := event
    cases event <;> rfl
  | cancelBatch orderIds owner | claimBatch orderIds owner =>
    simp [PairEmission.placementRows, PairEmission.marks, ofKind, OrderMark.kind]
  | _ => rfl

theorem cancellationOps : (e.cancellationRows text contract).map
      (fun c : ParsedLimitOrderCancellation =>
        (⟨tx, c.pairAddress, c.orderId, .cancelled c.owner⟩ : LifecycleOp)) =
    (ofKind .cancellation e.marks).map (markOp text tx contract) := by
  cases e with
  | cancelBatch orderIds owner =>
    simp [PairEmission.cancellationRows, PairEmission.cancels, PairEmission.marks, ofKind,
      OrderMark.kind, markOp, OrderMark.change, List.filter_map, Function.comp_def]
  | book event =>
    obtain ⟨event, stamp⟩ := event
    cases event <;> rfl
  | place report =>
    simp [PairEmission.cancellationRows, PairEmission.cancels, PairEmission.marks, ofKind,
      OrderMark.kind, PlacedRung.mark]
  | claimBatch orderIds owner =>
    simp [PairEmission.cancellationRows, PairEmission.cancels, PairEmission.marks, ofKind,
      OrderMark.kind]
  | _ => rfl

theorem parkedOps : (e.parkedRows contract).map (fun p : ParsedLimitOrderExpiredParked =>
      (⟨tx, p.pairAddress, p.orderId, .parked p.remaining⟩ : LifecycleOp)) =
    (ofKind .park e.marks).map (markOp text tx contract) := by
  cases e with
  | book event =>
    obtain ⟨event, stamp⟩ := event
    cases event <;> rfl
  | place report =>
    simp [PairEmission.parkedRows, PairEmission.marks, ofKind, OrderMark.kind, PlacedRung.mark]
  | cancelBatch orderIds owner | claimBatch orderIds owner =>
    simp [PairEmission.parkedRows, PairEmission.marks, ofKind, OrderMark.kind]
  | _ => rfl

theorem claimOps : (e.claimRows contract).map (fun c : ParsedClaimExpiredLimitOrder =>
      (⟨tx, c.pairAddress, c.orderId, .claimed⟩ : LifecycleOp)) =
    (ofKind .claim e.marks).map (markOp text tx contract) := by
  cases e with
  | claimBatch orderIds owner =>
    simp [PairEmission.claimRows, PairEmission.claims, PairEmission.marks, ofKind,
      OrderMark.kind, markOp, OrderMark.change, List.filter_map, Function.comp_def]
  | book event =>
    obtain ⟨event, stamp⟩ := event
    cases event <;> rfl
  | place report =>
    simp [PairEmission.claimRows, PairEmission.claims, PairEmission.marks, ofKind,
      OrderMark.kind, PlacedRung.mark]
  | cancelBatch orderIds owner =>
    simp [PairEmission.claimRows, PairEmission.claims, PairEmission.marks, ofKind, OrderMark.kind]
  | _ => rfl

end Kinds

/-- The actions of an order's life. -/
def lifecycleActions : List String :=
  ["place_limit_order", "cancel_limit_order", "cancel_limit_orders_batch",
    "limit_order_expired_parked", "claim_expired_limit_order", "claim_expired_limit_orders_batch"]

def Block.Still (b : Block) : Prop :=
  ∀ a ∈ b.body, a.isAction = true → a.value ∉ lifecycleActions

section Still

variable {b : Block} {name : String}

theorem Block.Still.action (h : b.Still) (hname : name ∈ lifecycleActions) :
    ∀ a ∈ b.body, a.isAction = true → a.value ≠ name := by
  rintro a ha haction rfl
  exact h a ha haction hname

theorem Block.Still.hasAction (h : b.Still) (hname : name ∈ lifecycleActions) :
    ∀ a ∈ b.attributes, a.hasAction name = false := by
  intro a ha
  rcases List.mem_cons.1 ha with rfl | ha
  · simp [Attribute.hasAction]
  · by_cases hkey : a.key = "action"
    · have hvalue := h.action hname a ha (decide_eq_true hkey)
      simp [Attribute.hasAction, hvalue]
    · simp [Attribute.hasAction, hkey]

theorem Block.Still.actionRows {α : Type} {row : WasmAction → Option α} (h : b.Still)
    (hname : name ∈ lifecycleActions) (hrow : ∀ act, act.action ≠ name → row act = none) :
    b.actionRows row = [] := by
  refine List.filterMap_eq_nil_iff.2 fun act hact => hrow act fun heq => ?_
  obtain ⟨action, haction, rfl⟩ := List.mem_map.1 hact
  obtain ⟨a, ha, hisAction, hvalue⟩ := bodyActions_name haction
  exact h.action hname a ha hisAction (hvalue.trans heq)

theorem Block.Still.placements (h : b.Still) : b.scanRows "place_limit_order"
    parseLimitOrderPlacementSegment parseLimitOrderPlacementsColumnar = [] :=
  scanRows_none (h.action (by simp [lifecycleActions])) _ _

theorem Block.Still.parks (h : b.Still) : b.actionRows parkedRow = [] := by
  have hname : "limit_order_expired_parked" ∈ lifecycleActions := by simp [lifecycleActions]
  exact h.actionRows hname fun _ hne => if_pos hne

theorem Block.Still.cancelRows (h : b.Still) : b.actionRows cancellationRow = [] := by
  have hname : "cancel_limit_order" ∈ lifecycleActions := by simp [lifecycleActions]
  exact h.actionRows hname fun _ hne => if_pos hne

theorem Block.Still.claimRows (h : b.Still) : b.actionRows claimRow = [] := by
  have hname : "claim_expired_limit_order" ∈ lifecycleActions := by simp [lifecycleActions]
  exact h.actionRows hname fun _ hne => if_pos hne

theorem Block.Still.cancellations (h : b.Still) (hb : b.Unreserved) :
    parseLimitOrderCancellationsFromWasmAttrs b.attributes = [] := by
  have hcolumns : ¬ cancelsInColumns ([b].flatMap Block.attributes) := by
    rw [List.flatMap_singleton]
    intro hcolumns
    have hnone := readsColumns_none
      (h.hasAction (show "cancel_limit_orders_batch" ∈ lifecycleActions by simp [lifecycleActions]))
      (h.hasAction (show "cancel_limit_order" ∈ lifecycleActions by simp [lifecycleActions]))
    exact absurd hcolumns.1 (by simp [hnone])
  have hrows := cancellations_rows (by simpa using hb) hcolumns
  rwa [List.flatMap_singleton, List.flatMap_singleton, h.cancelRows] at hrows

theorem Block.Still.claims (h : b.Still) (hb : b.Unreserved) :
    parseClaimExpiredLimitOrdersFromWasmAttrs b.attributes = [] := by
  have hcolumns : ¬ claimsInColumns ([b].flatMap Block.attributes) := by
    rw [List.flatMap_singleton]
    intro hcolumns
    have hnone := readsColumns_none
      (h.hasAction (show "claim_expired_limit_orders_batch" ∈ lifecycleActions by
        simp [lifecycleActions]))
      (h.hasAction (show "claim_expired_limit_order" ∈ lifecycleActions by
        simp [lifecycleActions]))
    exact absurd hcolumns.1 (by simp [hnone])
  have hrows := claims_rows (by simpa using hb) hcolumns
  rwa [List.flatMap_singleton, List.flatMap_singleton, h.claimRows] at hrows

end Still

/-- A delivery in which cancellations and claims are read where they were emitted: an event for each
emission, or a single event whose columns are not read. -/
def Delivered (text : Addr → String) (emissions : List Emission) (tx : TxResponse) : Prop :=
  Separate text emissions tx ∨ Flattened text emissions tx ∧
    ¬ cancelsInColumns (streamOf text emissions) ∧ ¬ claimsInColumns (streamOf text emissions)

section Decoding

variable {text : Addr → String} {emissions : List Emission} {contract : String} {tx : TxResponse}

theorem Delivered.plain (h : Delivered text emissions tx) :
    Separate text emissions tx ∨ Flattened text emissions tx := h.imp_right And.left

/-- A parser that reads each block on its own, where columns are not read. -/
theorem rows_of_delivered {α : Type} {parse : List Attribute → List α}
    {row : WasmAction → Option α} {rows : PairEmission → List α} {pairOf : α → String}
    {inColumns : List Attribute → Prop} (hdelivered : Separate text emissions tx ∨
      Flattened text emissions tx ∧ ¬ inColumns (streamOf text emissions))
    (hparse : ∀ l : List Block, (∀ b ∈ l, b.Unreserved) →
      ¬ inColumns (l.flatMap Block.attributes) →
        parse (l.flatMap Block.attributes) = l.flatMap (Block.actionRows row))
    (hcontract : ∀ b : Block, b.Unreserved → ∀ r ∈ parse b.attributes, pairOf r = b.contract)
    (hrow : ∀ act r, row act = some r → pairOf r = act.contract)
    (hpair : ∀ e : PairEmission, e.Bounded → parse (e.block text contract).attributes = rows e)
    (hblock : ∀ e : PairEmission, e.Bounded →
      (e.block text contract).actionRows row = rows e)
    (hstill : ∀ b : Block, b.Unreserved → b.Still →
      parse b.attributes = [] ∧ b.actionRows row = [])
    (h : ∀ e ∈ emissions, e.Apart (fun b => b.Unreserved ∧ b.Still) contract) :
    ((tx.allEvents.filter Event.isLifecycle).flatMap fun event =>
        parse event.attributes).filter (fun r => pairOf r = contract) =
      (emissionsOf contract emissions).flatMap rows := by
  rcases hdelivered with hseparate | ⟨hflat, hcolumns⟩
  · rw [separate_rows text hseparate]
    exact @filter_apartRows text emissions contract _ _ pairOf _ _ hcontract hpair
      (fun b hb => (hstill b hb.1 hb.2).1) h
  · have hstream : parse (streamOf text emissions) =
        (emittedBlocks text emissions).flatMap (Block.actionRows row) :=
      hparse _ (unreserved_apart h) hcolumns
    rw [flattened_rows text hflat, hstream]
    exact @filter_apartRows text emissions contract _ _ pairOf _ _
      (fun b _ => actionRows_contract hrow b) hblock (fun b hb => (hstill b hb.1 hb.2).2) h

def PairEmission.marksOf (emissions : List PairEmission) : List (OrderId × OrderMark) :=
  emissions.flatMap PairEmission.marks

theorem filter_map_pair {α : Type} {l : List α} {f : α → LifecycleOp} {pairOf : α → String}
    (hf : ∀ a, (f a).pairAddress = pairOf a) :
    (l.map f).filter (fun op => op.pairAddress = contract) =
      (l.filter fun a => pairOf a = contract).map f := by
  rw [List.filter_map]
  refine congrArg (List.map f) (List.filter_congr fun a _ => ?_)
  simp [hf]

/-- The operations of a transaction on a pair: what the pair told, kind by kind. -/
theorem lifecycleOps_contract {place : TxPlace} (hdelivered : Delivered text emissions tx)
    (h : ∀ e ∈ emissions, e.Apart (fun b => b.Unreserved ∧ b.Still) contract) :
    (lifecycleOps place tx).filter (fun op => op.pairAddress = contract) =
      (ofKind .placement (PairEmission.marksOf (emissionsOf contract emissions)) ++
        ofKind .cancellation (PairEmission.marksOf (emissionsOf contract emissions)) ++
        ofKind .park (PairEmission.marksOf (emissionsOf contract emissions)) ++
        ofKind .claim (PairEmission.marksOf (emissionsOf contract emissions))).map
          (markOp text place contract) := by
  have hplacements : (parseLimitOrderPlacements tx).filter (fun p => p.pairAddress = contract) =
      (emissionsOf contract emissions).flatMap (PairEmission.placementRows text contract) := by
    unfold parseLimitOrderPlacements
    rw [rows_of_deliveries placements_blocks (unreserved_apart h) hdelivered.plain]
    exact @filter_apartRows text emissions contract _ _ ParsedLimitOrderPlacement.pairAddress _ _
      (blockScan_contract (fun _ _ _ => placementSegment_contract) placementColumns_contract)
      (fun e he => placementRows_block text he) (fun b hb => hb.2.placements) h
  have hparks : (parseLimitOrderExpiredParked tx).filter (fun p => p.pairAddress = contract) =
      (emissionsOf contract emissions).flatMap (PairEmission.parkedRows contract) := by
    unfold parseLimitOrderExpiredParked
    rw [rows_of_deliveries parks_blocks (unreserved_apart h) hdelivered.plain]
    exact @filter_apartRows text emissions contract _ _ ParsedLimitOrderExpiredParked.pairAddress
      _ _ (fun b _ => actionRows_contract (fun _ _ => parkedRow_contract) b)
      (fun e he => parkedRows_block text he) (fun b hb => hb.2.parks) h
  have hcancels : (parseLimitOrderCancellations tx).filter (fun c => c.pairAddress = contract) =
      (emissionsOf contract emissions).flatMap (PairEmission.cancellationRows text contract) :=
    rows_of_delivered (hdelivered.imp_right fun hflat => ⟨hflat.1, hflat.2.1⟩)
      (fun _ => cancellations_rows) cancellations_contract
      (fun _ _ => cancellationRow_contract) (fun _ he => cancellations_pair text he)
      (fun _ he => cancellationRows_block text he)
      (fun _ hb hstill => ⟨hstill.cancellations hb, hstill.cancelRows⟩) h
  have hclaims : (parseClaimExpiredLimitOrders tx).filter (fun c => c.pairAddress = contract) =
      (emissionsOf contract emissions).flatMap (PairEmission.claimRows contract) :=
    rows_of_delivered (hdelivered.imp_right fun hflat => ⟨hflat.1, hflat.2.2⟩)
      (fun _ => claims_rows) claims_contract
      (fun _ _ => claimRow_contract) (fun _ he => claims_pair text he)
      (fun _ he => claimRows_block text he)
      (fun _ hb hstill => ⟨hstill.claims hb, hstill.claimRows⟩) h
  unfold lifecycleOps PairEmission.marksOf
  simp only [List.filter_append, List.map_append, ofKind_flatMap, List.map_flatMap]
  rw [@filter_map_pair contract _ _ _ ParsedLimitOrderPlacement.pairAddress fun _ => rfl,
    @filter_map_pair contract _ _ _ ParsedLimitOrderCancellation.pairAddress fun _ => rfl,
    @filter_map_pair contract _ _ _ ParsedLimitOrderExpiredParked.pairAddress fun _ => rfl,
    @filter_map_pair contract _ _ _ ParsedClaimExpiredLimitOrder.pairAddress fun _ => rfl,
    hplacements, hcancels, hparks, hclaims, List.map_flatMap, List.map_flatMap, List.map_flatMap,
    List.map_flatMap]
  simp only [placementOps, cancellationOps, @parkedOps text place contract,
    @claimOps text place contract]

theorem changes_of_order {marks : List (OrderId × OrderMark)} {place : TxPlace} {x : OrderId} :
    ((marks.map (markOp text place contract)).filter fun op => op.orderId = (x : ℤ)).map
        LifecycleOp.change = (marksOf x marks).map (OrderMark.change text) := by
  induction marks with
  | nil => rfl
  | cons m marks ih =>
    by_cases hx : m.1 = x
    · have hself : marksOf x (m :: marks) = m.2 :: marksOf x marks := by simp [marksOf, hx]
      have hop : (markOp text place contract m).orderId = (x : ℤ) := by simp [markOp, hx]
      simp only [hself, List.map_cons, List.filter_cons, hop, decide_true, if_true, ih]
      rfl
    · have hother : marksOf x (m :: marks) = marksOf x marks := by simp [marksOf, hx]
      have hop : ¬ (markOp text place contract m).orderId = (x : ℤ) := by simpa [markOp] using hx
      simp only [hother, List.map_cons, List.filter_cons, hop, decide_false, Bool.false_eq_true,
        if_false, ih]

theorem marksOf_ofKind {marks : List (OrderId × OrderMark)} {kind : MarkKind} {x : OrderId} :
    marksOf x (ofKind kind marks) = marksOfKind kind (marksOf x marks) := by
  induction marks with
  | nil => rfl
  | cons m marks ih =>
    unfold marksOf ofKind marksOfKind at ih ⊢
    by_cases hx : m.1 = x <;> by_cases hkind : m.2.kind = kind <;>
      simp [hx, hkind, ih]

/-- The operations of a transaction on one order are what was told of it, in order. -/
theorem lifecycleOps_order {place : TxPlace} {x : OrderId} {s s' : OrderState}
    (hdelivered : Delivered text emissions tx)
    (h : ∀ e ∈ emissions, e.Apart (fun b => b.Unreserved ∧ b.Still) contract)
    (htold : Told s (marksOf x (PairEmission.marksOf (emissionsOf contract emissions))) s') :
    ((lifecycleOps place tx).filter (LifecycleOp.concerns contract x)).map LifecycleOp.change =
      (marksOf x (PairEmission.marksOf (emissionsOf contract emissions))).map
        (OrderMark.change text) := by
  have hsplit : (lifecycleOps place tx).filter (LifecycleOp.concerns contract x) =
      ((lifecycleOps place tx).filter fun op => op.pairAddress = contract).filter
        fun op => op.orderId = (x : ℤ) := by
    rw [List.filter_filter]
    refine List.filter_congr fun op _ => ?_
    rw [LifecycleOp.concerns, Bool.and_comm]
  rw [hsplit, lifecycleOps_contract hdelivered h, changes_of_order]
  simp only [marksOf_append, marksOf_ofKind]
  rw [htold.grouped]

end Decoding

/-- Where an order of a contract is. -/
def orderAt (chain : String → Option PairStorage) (contract : String) (x : OrderId) : OrderState :=
  match chain contract with
  | some p => p.book.orderState x
  | none => .unborn

def TidyChain (chain : String → Option PairStorage) : Prop :=
  ∀ contract p, chain contract = some p → p.book.Tidy

section Chain

variable {scope : TxSwapScope} {chain chain' : String → Option PairStorage} {log : List TxEntry}
  {contract : String} {p : PairStorage}

theorem orderAt_some (h : chain contract = some p) (x : OrderId) :
    orderAt chain contract x = p.book.orderState x := by simp only [orderAt, h]

/-- What the log of a transaction tells of an order of a contract. -/
def toldOf (contract : String) (x : OrderId) (log : List TxEntry) : List OrderMark :=
  marksOf x (PairEmission.marksOf (emissionsOf contract (log.flatMap TxEntry.emissions)))

theorem toldOf_append (log : List TxEntry) (entry : TxEntry) (x : OrderId) :
    toldOf contract x (log ++ [entry]) = toldOf contract x log ++
      marksOf x (PairEmission.marksOf (emissionsOf contract entry.emissions)) := by
  unfold toldOf PairEmission.marksOf
  rw [List.flatMap_append, List.flatMap_singleton, emissionsOf_append, List.flatMap_append,
    marksOf_append]

theorem TxRun.tidy (run : TxRun scope chain log chain') (htidy : TidyChain chain) :
    TidyChain chain' := by
  induction run with
  | start => exact htidy
  | @call log chain' c p₁ q env sender msg out bookLeg run hpair hscope h ih =>
    have hcall : p₁.book.Tells (responseMarks out.2 bookLeg) out.1.book :=
      execute_tells (ih c p₁ hpair) h
    intro contract p hp
    by_cases hc : contract = c
    · subst hc
      rw [Function.update_self] at hp
      exact Option.some.inj hp ▸ hcall.tidy
    · rw [Function.update_of_ne hc] at hp
      exact ih contract p hp
  | plain run hblock hquiet ih => exact ih

/-- A transaction tells of each order what it did to it. -/
theorem TxRun.told (run : TxRun scope chain log chain') (htidy : TidyChain chain)
    (contract : String) (x : OrderId) :
    Told (orderAt chain contract x) (toldOf contract x log) (orderAt chain' contract x) := by
  induction run with
  | start => exact .refl _
  | @call log chain' c p₁ q env sender msg out bookLeg run hpair hscope h ih =>
    have hcall : p₁.book.Tells (responseMarks out.2 bookLeg) out.1.book :=
      execute_tells (run.tidy htidy c p₁ hpair) h
    rw [toldOf_append, emissionsOf_call]
    by_cases hc : c = contract
    · subst hc
      rw [if_pos rfl, orderAt_some (Function.update_self ..)]
      rw [orderAt_some hpair] at ih
      exact ih.append (hcall.told x)
    · have hother : orderAt (Function.update chain' c (some out.1)) contract x =
          orderAt chain' contract x := by
        rw [orderAt, Function.update_of_ne (Ne.symm hc), orderAt]
      rw [if_neg hc, hother]
      exact ih.append (.refl _)
  | plain run hblock hquiet ih =>
    rw [toldOf_append]
    exact ih.append (.refl _)

/-- No order is placed yet when a pair starts; the number zero is never used. -/
theorem starts_orders (h : Starts p) :
    p.book.Tidy ∧ ∀ x, Told .unborn [] (p.book.orderState x) := by
  have htidy : Book.initial.Tidy :=
    ⟨fun _ _ hrow => (by cases hrow), fun _ _ hclaim => (by cases hclaim),
      fun _ _ hrow => (by cases hrow)⟩
  rw [h.fresh.1]
  refine ⟨htidy, fun x => ?_⟩
  rcases Nat.eq_zero_or_pos x with rfl | hpos
  · exact ToldStep.skipped.told
  · rw [Book.orderState_of_unborn htidy hpos]
    exact .refl _

end Chain

/-- A transaction as the indexer gets it: within the bounds, with attributes of known pairs that
tell nothing beyond their responses. -/
structure TxSeen (text : Addr → String) (known : KnownPairs) (log : List TxEntry)
    (tx : TxResponse) : Prop where
  bounded : ∀ e ∈ log, e.Bounded
  still : ∀ b, .plain b ∈ log → known.id b.contract ≠ none → b.Still
  delivered : Delivered text (log.flatMap TxEntry.emissions) tx

def blockOps (block : List (TxPlace × TxResponse)) : List LifecycleOp :=
  block.flatMap fun tx => lifecycleOps tx.1 tx.2

/-- What `process_block_txs` does to the tables. -/
def processBlock (known : KnownPairs) (tables : LifecycleTables)
    (block : List (TxPlace × TxResponse)) : LifecycleTables :=
  block.foldl (fun tables tx => processLifecycle known tx.1 tables tx.2) tables

/-- The tables after attempts at a block, each cut short after some of its rows. -/
def interrupted (known : KnownPairs) (block : List (TxPlace × TxResponse)) (attempts : List ℕ)
    (tables : LifecycleTables) : LifecycleTables :=
  (lifecycleRuns known).retries (blockOps block) attempts tables

theorem processBlock_eq (known : KnownPairs) (tables : LifecycleTables)
    (block : List (TxPlace × TxResponse)) :
    processBlock known tables block = (lifecycleRuns known).run tables (blockOps block) := by
  induction block generalizing tables with
  | nil => rfl
  | cons tx block ih =>
    have hhead : blockOps (tx :: block) = lifecycleOps tx.1 tx.2 ++ blockOps block :=
      List.flatMap_cons
    rw [hhead, Absorbing.run_append, processBlock, List.foldl_cons, processLifecycle_eq]
    exact ih _

/-- The chain, the tables, and the transactions of the block that is not in the tables yet. -/
inductive Indexed (text : Addr → String) (known : KnownPairs) :
    (String → Option PairStorage) → LifecycleTables → List (TxPlace × TxResponse) → Prop
  | genesis : Indexed text known (fun _ => none) ⟨[], []⟩ []
  | deploy {chain : String → Option PairStorage} {tables : LifecycleTables}
      {block : List (TxPlace × TxResponse)} {contract : String} {p : PairStorage}
      (history : Indexed text known chain tables block) (hnew : chain contract = none)
      (hp : Starts p) : Indexed text known (Function.update chain contract (some p)) tables block
  | tx {chain chain' : String → Option PairStorage} {tables : LifecycleTables}
      {block : List (TxPlace × TxResponse)} {scope : TxSwapScope} {log : List TxEntry}
      {response : TxResponse} (place : TxPlace) (history : Indexed text known chain tables block)
      (run : TxRun scope chain log chain') (seen : TxSeen text known log response) :
      Indexed text known chain' tables (block ++ [(place, response)])
  | index {chain : String → Option PairStorage} {tables : LifecycleTables}
      {block : List (TxPlace × TxResponse)} (history : Indexed text known chain tables block)
      (attempts : List ℕ) : Indexed text known chain
        (processBlock known (interrupted known block attempts tables) block) []

/-- The tables were right before the block, and its operations tell the rest. -/
structure Follows (text : Addr → String) (known : KnownPairs)
    (chain : String → Option PairStorage) (tables : LifecycleTables)
    (ops : List LifecycleOp) : Prop where
  tidy : TidyChain chain
  natural : ∀ op ∈ ops, known.id op.pairAddress ≠ none → ∃ x : OrderId, op.orderId = (x : ℤ)
  told : ∀ contract pairId, known.id contract = some pairId → ∀ x : OrderId,
    ∃ s l, Mirrored text pairId x s (tables.ofOrder pairId x) ∧
      (ops.filter (LifecycleOp.concerns contract x)).map LifecycleOp.change =
        l.map (OrderMark.change text) ∧ Told s l (orderAt chain contract x)

section Following

variable {text : Addr → String} {known : KnownPairs} {scope : TxSwapScope}
  {chain chain' : String → Option PairStorage} {tables : LifecycleTables} {ops : List LifecycleOp}
  {block : List (TxPlace × TxResponse)} {log : List TxEntry} {response : TxResponse}
  {contract : String} {p : PairStorage}

/-- Operations run forward when those on each order do. -/
theorem forward_of_orders (h : ∀ contract, known.id contract ≠ none → ∀ x : ℤ,
    ((ops.filter (LifecycleOp.concerns contract x)).map LifecycleOp.change).Pairwise
      fun c c' => ¬ c'.Revives c) : (lifecycleRuns known).Forward ops := by
  induction ops with
  | nil => exact .nil
  | cons op ops ih =>
    refine List.pairwise_cons.2 ⟨fun op' hop' hrevives => ?_, ih fun contract hid x => ?_⟩
    · obtain ⟨⟨pairId, hid', hid⟩, hx, hchange⟩ := hrevives
      have hsame := known.inj _ _ _ hid' hid
      have hown := h op.pairAddress (by simp [hid]) op.orderId
      have hself : op.concerns op.pairAddress op.orderId = true := by
        simp [LifecycleOp.concerns]
      rw [List.filter_cons_of_pos hself, List.map_cons] at hown
      have hconcerns : op'.concerns op.pairAddress op.orderId = true := by
        simp [LifecycleOp.concerns, hsame, hx]
      exact (List.pairwise_cons.1 hown).1 op'.change
        (List.mem_map_of_mem (List.mem_filter.2 ⟨hop', hconcerns⟩)) hchange
    · refine (h contract hid x).sublist ?_
      exact ((List.sublist_cons_self op ops).filter _).map _

theorem Follows.forward (h : Follows text known chain tables ops) :
    (lifecycleRuns known).Forward ops := by
  refine forward_of_orders fun contract hid x => ?_
  obtain ⟨pairId, hid⟩ := Option.ne_none_iff_exists'.1 hid
  by_cases hnone : ops.filter (LifecycleOp.concerns contract x) = []
  · rw [hnone]
    exact .nil
  · obtain ⟨op, hop⟩ := List.exists_mem_of_ne_nil _ hnone
    obtain ⟨hmem, hconcerns⟩ := List.mem_filter.1 hop
    obtain ⟨hcontract, horder⟩ : op.pairAddress = contract ∧ op.orderId = x := by
      simpa [LifecycleOp.concerns] using hconcerns
    obtain ⟨n, hn⟩ := h.natural op hmem (by simp [hcontract, hid])
    obtain rfl : x = n := horder.symm.trans hn
    obtain ⟨s, l, -, hchanges, htold⟩ := h.told contract pairId hid n
    rw [hchanges]
    exact htold.forward

theorem Follows.deploy (h : Follows text known chain tables ops) (hnew : chain contract = none)
    (hp : Starts p) : Follows text known (Function.update chain contract (some p)) tables ops := by
  obtain ⟨htidy, horders⟩ := starts_orders hp
  refine ⟨fun c p' hc => ?_, h.natural, fun c pairId hid x => ?_⟩
  · by_cases hsame : c = contract
    · subst hsame
      rw [Function.update_self] at hc
      exact Option.some.inj hc ▸ htidy
    · rw [Function.update_of_ne hsame] at hc
      exact h.tidy c p' hc
  · obtain ⟨s, l, hrows, hchanges, htold⟩ := h.told c pairId hid x
    refine ⟨s, l, hrows, hchanges, ?_⟩
    by_cases hsame : c = contract
    · subst hsame
      have hbefore : orderAt chain c x = .unborn := by simp only [orderAt, hnew]
      rw [hbefore] at htold
      rw [orderAt_some (Function.update_self ..)]
      have hall := htold.append (horders x)
      rwa [List.append_nil] at hall
    · rw [orderAt, Function.update_of_ne hsame]
      exact htold

theorem TxSeen.apart (seen : TxSeen text known log response) (run : TxRun scope chain log chain')
    (hid : known.id contract ≠ none) : ∀ e ∈ log.flatMap TxEntry.emissions,
      e.Apart (fun b => b.Unreserved ∧ b.Still) contract := by
  intro e he
  have hplain : ∀ b, .plain b ∈ log → b.contract = contract → b.Still :=
    fun b hb hc => seen.still b hb (hc ▸ hid)
  have hapart := run.apart_of seen.bounded hplain e he
  cases e with
  | pair c emission => exact hapart
  | other b => exact ⟨hapart.1, fun hc => ⟨hapart.1, hapart.2 hc⟩⟩

theorem Follows.tx (h : Follows text known chain tables ops) (place : TxPlace)
    (run : TxRun scope chain log chain') (seen : TxSeen text known log response) :
    Follows text known chain' tables (ops ++ lifecycleOps place response) := by
  refine ⟨run.tidy h.tidy, fun op hop hid => ?_, fun c pairId hid x => ?_⟩
  · rcases List.mem_append.1 hop with hop | hop
    · exact h.natural op hop hid
    · have hown := @lifecycleOps_contract text _ op.pairAddress response place seen.delivered
        (seen.apart run hid)
      have hmem : op ∈ (lifecycleOps place response).filter
          fun op' => op'.pairAddress = op.pairAddress := List.mem_filter.2 ⟨hop, by simp⟩
      rw [hown] at hmem
      obtain ⟨m, -, hm⟩ := List.mem_map.1 hmem
      exact ⟨m.1, by rw [← hm]; rfl⟩
  · obtain ⟨s, l, hrows, hchanges, htold⟩ := h.told c pairId hid x
    have hrun := run.told h.tidy c x
    have hops := @lifecycleOps_order text _ c response place x _ _ seen.delivered
      (seen.apart run (by simp [hid])) hrun
    refine ⟨s, l ++ toldOf c x log, hrows, ?_, htold.append hrun⟩
    rw [List.filter_append, List.map_append, List.map_append, hchanges, hops]
    rfl

theorem Follows.index (h : Follows text known chain tables ops) (attempts : List ℕ) :
    Follows text known chain ((lifecycleRuns known).run
      ((lifecycleRuns known).retries ops attempts tables) ops) [] := by
  rw [Absorbing.run_retries _ h.forward]
  refine ⟨h.tidy, fun op hop => (by cases hop), fun c pairId hid x => ?_⟩
  obtain ⟨s, l, hrows, hchanges, htold⟩ := h.told c pairId hid x
  refine ⟨orderAt chain c x, [], ?_, rfl, .refl _⟩
  rw [ofOrder_run hid]
  exact hrows.told htold _ hchanges

theorem Indexed.follows (history : Indexed text known chain tables block) :
    Follows text known chain tables (blockOps block) := by
  induction history with
  | genesis =>
    exact ⟨fun _ _ hp => (by cases hp), fun _ hop => (by cases hop),
      fun _ _ _ _ => ⟨.unborn, [], .unborn, rfl, .refl _⟩⟩
  | deploy history hnew hp ih => exact ih.deploy hnew hp
  | @tx chain chain' tables block scope log response place history run seen ih =>
    have hops : blockOps (block ++ [(place, response)]) =
        blockOps block ++ lifecycleOps place response := by
      unfold blockOps
      rw [List.flatMap_append, List.flatMap_singleton]
    rw [hops]
    exact ih.tx place run seen
  | index history attempts ih =>
    rw [processBlock_eq]
    exact ih.index attempts

theorem Follows.mirrored {pairId : ℤ} (h : Follows text known chain tables [])
    (hid : known.id contract = some pairId) (hp : chain contract = some p) (x : OrderId) :
    Mirrored text pairId x (p.book.orderState x) (tables.ofOrder pairId x) := by
  obtain ⟨s, l, hrows, hchanges, htold⟩ := h.told contract pairId hid x
  rw [orderAt_some hp] at htold
  exact hrows.told htold [] hchanges

/-- Attempts at a block that were cut short anywhere leave nothing behind: the next full attempt
ends with the tables of an undisturbed one. -/
theorem attempts_settle (history : Indexed text known chain tables block) (attempts : List ℕ) :
    processBlock known (interrupted known block attempts tables) block =
      processBlock known tables block := by
  rw [processBlock_eq, processBlock_eq]
  exact Absorbing.run_retries _ history.follows.forward attempts

/-- The listing of one order, among the rows of its pair. -/
theorem listing_ofOrder {pairId orderId : ℤ} (lifecycle : PlacementLifecycleFilter) :
    (tables.listPlacementsForPair pairId lifecycle).filter (fun row => row.orderId = orderId) =
      (tables.ofOrder pairId orderId).placements.filter fun row =>
        (tables.ofOrder pairId orderId).cancellations = [] &&
          lifecycle.grants row.lifecycleStatus := by
  have hnone : decide ((tables.ofOrder pairId orderId).cancellations = []) =
      !(tables.cancellations.any (CancellationRow.isOf pairId orderId)) := by
    rw [Bool.eq_iff_iff, decide_eq_true_iff, Bool.not_eq_true', List.any_eq_false]
    exact List.filter_eq_nil_iff
  rw [hnone, LifecycleTables.listPlacementsForPair, List.filter_filter, LifecycleTables.ofOrder,
    List.filter_filter]
  refine List.filter_congr fun row _ => ?_
  by_cases hp : row.pairId = pairId <;> by_cases hx : row.orderId = orderId <;>
    simp [PlacementRow.isOf, hp, hx, Bool.and_comm]

theorem claims_of_orderState {b : Book} (h : b.Tidy) (x : OrderId) :
    b.expiredLimitClaims x = match b.orderState x with
      | .parked r => some r
      | _ => none := by
  cases hrow : b.terms x with
  | some t =>
    rw [Book.orderState_of_row hrow]
    exact h.disjoint x t hrow
  | none =>
    cases hclaim : b.expiredLimitClaims x with
    | some r => rw [Book.orderState_of_claim hrow hclaim]
    | none =>
      unfold Book.orderState
      rw [hrow, hclaim]
      dsimp only
      split_ifs <;> rfl

/-- Of the orders of a pair the listing shows each at most once: those at rest as active, and as
parked exactly those whose escrow waits for its owner, with the amount. -/
theorem placements_listed {pairId : ℤ} (history : Indexed text known chain tables [])
    (hid : known.id contract = some pairId) (hp : chain contract = some p) (x : OrderId) :
    ((tables.listPlacementsForPair pairId .parkedExpiredOnly).filter
        (fun row => row.orderId = (x : ℤ))).map
          (fun row => (row.owner, row.side, row.remainingEscrow)) =
        (p.book.expiredLimitClaims x).toList.map
          (fun r => (some (text r.owner), some (sideStr r.side), some r.remaining)) ∧
      (∀ t, p.book.terms x = some t → ((tables.listPlacementsForPair pairId .activeOnly).filter
        (fun row => row.orderId = (x : ℤ))).map (fun row => (row.owner, row.side)) =
          [(some (text t.owner), some (sideStr t.side))]) ∧
      ((tables.listPlacementsForPair pairId .all).filter
        fun row => row.orderId = (x : ℤ)).length ≤ 1 := by
  have hmirrored := history.follows.mirrored hid hp x
  have htidy := history.follows.tidy contract p hp
  rw [claims_of_orderState htidy x]
  simp only [listing_ofOrder]
  have hresting : ∀ t, p.book.terms x = some t → p.book.orderState x = .resting t :=
    fun _ => Book.orderState_of_row
  generalize p.book.orderState x = state at hmirrored hresting ⊢
  generalize tables.ofOrder pairId x = rows at hmirrored ⊢
  cases hmirrored with
  | unborn => exact ⟨rfl, fun t ht => (by cases hresting t ht), Nat.zero_le _⟩
  | skipped => exact ⟨rfl, fun t ht => (by cases hresting t ht), Nat.zero_le _⟩
  | resting h =>
    refine ⟨?_, fun t ht => ?_, ?_⟩
    · simp [PlacementLifecycleFilter.grants, h.status_eq]
    · cases hresting t ht
      simp [PlacementLifecycleFilter.grants, h.status_eq, h.owner_eq, h.side_eq]
    · simp [PlacementLifecycleFilter.grants]
  | parked h hremaining =>
    refine ⟨?_, fun t ht => (by cases hresting t ht), ?_⟩
    · simp [PlacementLifecycleFilter.grants, h.status_eq, h.owner_eq, h.side_eq, hremaining]
    · simp [PlacementLifecycleFilter.grants]
  | filled h =>
    refine ⟨?_, fun t ht => (by cases hresting t ht), ?_⟩
    · simp [PlacementLifecycleFilter.grants, h.status_eq]
    · simp [PlacementLifecycleFilter.grants]
  | cancelled h hof howner =>
    exact ⟨by simp, fun t ht => (by cases hresting t ht), by simp⟩
  | refunded h =>
    refine ⟨?_, fun t ht => (by cases hresting t ht), ?_⟩
    · simp [PlacementLifecycleFilter.grants, h.status_eq]
    · simp [PlacementLifecycleFilter.grants]

end Following

section Sample

/-- Two bids of user 7, the second for a while. -/
def sampleBids : ExecuteMsg :=
  .receive ⟨7, 1000000, .placeLimitOrderBatch .bid
    [⟨⟨2 * 10 ^ 18⟩, 600000, 5, none, none⟩, ⟨⟨2 * 10 ^ 18⟩, 400000, 5, some 1010, none⟩]⟩

def bidsReport : PlacementReport :=
  ⟨[⟨1, 900, ⟨2 * 10 ^ 18⟩⟩, ⟨2, 600, ⟨2 * 10 ^ 18⟩⟩], 0, 0, .bid, 1500, 30, 7⟩

def cleanedReport : CleanReport := ⟨.bid, 1, 1, 0, false, false, none⟩

def secondParked : BookEvent := ⟨.limitOrderExpiredParked 2 7 .bid 399400 .expired, none⟩

def sampleKnown : KnownPairs where
  id contract := if contract = "terra1pair" then some 1 else none
  inj a b i ha hb := by
    obtain ⟨rfl, -⟩ := Option.ite_none_right_eq_some.1 ha
    exact (Option.ite_none_right_eq_some.1 hb).1.symm

theorem Indexed.callPair {tables : LifecycleTables} {block : List (TxPlace × TxResponse)}
    {p : PairStorage} {t : ℕ} {sender : Addr} {msg : ExecuteMsg} {out : PairStorage × Response}
    (history : Indexed ownerText sampleKnown (chainOf p) tables block)
    (h : execute p .permissive (sampleEnv t) sender msg = .ok out)
    (hbounded : ∀ e ∈ responseEmissions out.2 true, e.Bounded) :
    ∃ tx, Indexed ownerText sampleKnown (chainOf out.1) tables (block ++ [tx]) := by
  have hrun : TxRun ⟨t, 0⟩ (chainOf p) _ (chainOf out.1) := TxRun.start.callPair rfl h
  refine ⟨_, history.tx ⟨t, t, "hash"⟩ hrun ⟨fun e he => ?_, fun b hb => ?_,
    .inl (separateTx_separate _)⟩⟩
  · rw [List.mem_singleton.1 he]
    exact fun e he _ => hbounded e he
  · cases List.mem_singleton.1 hb

theorem sampleIndexed : ∃ p block, Indexed ownerText sampleKnown (chainOf p) ⟨[], []⟩ block ∧
    p.book.expiredLimitClaims 2 = some ⟨7, .bid, 399400, some 1010, some .expired⟩ := by
  have hcalls : Meets (execute samplePair .permissive (sampleEnv 1006) 2 sampleBids)
      (fun out => (out.2.attributes = .placeLimitOrderBatch bidsReport ∧ out.2.events = []) ∧
        Meets (execute out.1 .permissive (sampleEnv 1012) 8 (.cleanLimitBook .bid 5 none none))
          (fun next => (next.2.attributes = .cleanLimitBook cleanedReport ∧
              next.2.events = [secondParked]) ∧ next.1.book.expiredLimitClaims 2 =
                some ⟨7, .bid, 399400, some 1010, some .expired⟩) (fun _ => False))
      (fun _ => False) := by decide +kernel
  obtain ⟨placed, hplaced, ⟨hattr, hevents⟩, hclean⟩ := hcalls.accepted
  obtain ⟨cleaned, hcleaned, ⟨hattr', hevents'⟩, hclaim⟩ := hclean.accepted
  have hpair : Indexed ownerText sampleKnown (chainOf samplePair) ⟨[], []⟩ [] :=
    .deploy .genesis rfl samplePair_starts
  obtain ⟨tx, hfirst⟩ := hpair.callPair hplaced (by
    simp [responseEmissions, hattr, hevents, PairEmission.Bounded, bidsReport])
  obtain ⟨tx', hsecond⟩ := hfirst.callPair hcleaned (by
    simp [responseEmissions, hattr', hevents', PairEmission.Bounded, secondParked])
  exact ⟨cleaned.1, _, hsecond, hclaim⟩

/-- Attempts that stop between the two bids and before the park. -/
theorem attempts_settle_sample : ∃ chain block,
    Indexed ownerText sampleKnown chain ⟨[], []⟩ block ∧
    processBlock sampleKnown (interrupted sampleKnown block [1, 2] ⟨[], []⟩) block =
      processBlock sampleKnown ⟨[], []⟩ block := by
  obtain ⟨p, block, hblock, -⟩ := sampleIndexed
  exact ⟨_, block, hblock, attempts_settle hblock [1, 2]⟩

/-- The second bid is listed as parked with what is left of it. -/
theorem placements_listed_sample : ∃ chain tables,
    Indexed ownerText sampleKnown chain tables [] ∧
    ((tables.listPlacementsForPair 1 .parkedExpiredOnly).filter
      (fun row => row.orderId = ((2 : OrderId) : ℤ))).map
        (fun row => (row.owner, row.side, row.remainingEscrow)) =
      [(some "second", some "bid", some 399400)] := by
  obtain ⟨p, block, hblock, hclaim⟩ := sampleIndexed
  refine ⟨_, _, hblock.index [], ?_⟩
  rw [(placements_listed (hblock.index []) rfl (Function.update_self ..) 2).1, hclaim]
  rfl

end Sample

end Cl8yDex.WasmEvents
