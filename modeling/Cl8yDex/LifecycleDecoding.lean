import Cl8yDex.EmissionRows

/-!
# Decoding the lifecycle of orders

What a transaction's contracts emitted, delivered as one event for each emission or as a single
event. Swaps, fills, placements and parks decode to the rows of each pair's own emissions in both
deliveries: their parsers stay within what one contract emitted.
-/

namespace Cl8yDex.WasmEvents

/-- What a contract of the transaction emitted at once. -/
inductive Emission
  | pair (contract : String) (emission : PairEmission)
  | other (block : Block)

section Deliveries

variable (text : Addr → String)

def Emission.block : Emission → Block
  | pair contract emission => emission.block text contract
  | other block => block

/-- Emissions of pairs within the bounds, and attributes of other contracts. -/
def Emission.Formed (pairs : String → Prop) : Emission → Prop
  | pair contract emission => pairs contract ∧ emission.Bounded
  | other block => ¬ pairs block.contract ∧ block.Unreserved

/-- What a pair emitted, in order. -/
def emissionsOf (contract : String) (emissions : List Emission) : List PairEmission :=
  emissions.filterMap fun
    | .pair c emission => if c = contract then some emission else none
    | .other _ => none

def emittedBlocks (emissions : List Emission) : List Block := emissions.map (Emission.block text)

/-- An event of the runtime for each emission. -/
def Separate (emissions : List Emission) (tx : TxResponse) : Prop :=
  tx.allEvents = (emittedBlocks text emissions).map fun b => ⟨"wasm", b.attributes⟩

/-- One event with all emissions one after another. -/
def Flattened (emissions : List Emission) (tx : TxResponse) : Prop :=
  tx.allEvents = [⟨"wasm", (emittedBlocks text emissions).flatMap Block.attributes⟩]

/-- The swaps of a pair's emissions, numbered from its swaps before. -/
def swapRowsFrom (contract : String) (n : ℕ) : List PairEmission → List ParsedSwap
  | [] => []
  | emission :: emissions =>
    match emission.swapRow text contract n with
    | some row => row :: swapRowsFrom contract (n + 1) emissions
    | none => swapRowsFrom contract n emissions

end Deliveries

section Streams

variable {text : Addr → String} {pairs : String → Prop} {emissions : List Emission}
  {contract : String} {quiet : Block → Prop}

/-- An emission as one pair sees it: a pair's own within the bounds, or attributes that another
contract wrote or that are quiet. -/
def Emission.Apart (quiet : Block → Prop) (contract : String) : Emission → Prop
  | pair _ emission => emission.Bounded
  | other block => block.Unreserved ∧ (block.contract = contract → quiet block)

theorem Emission.Apart.unreserved {e : Emission} (h : e.Apart quiet contract) :
    (e.block text).Unreserved := by
  cases e with
  | pair contract emission => exact unreserved_block text contract emission
  | other block => exact h.1

theorem Emission.Formed.apart {e : Emission} (h : e.Formed pairs) (hpair : pairs contract) :
    e.Apart (fun _ => False) contract := by
  cases e with
  | pair c emission => exact h.2
  | other block => exact ⟨h.2, fun hc => h.1 (hc ▸ hpair)⟩

theorem Emission.Formed.unreserved {e : Emission} (h : e.Formed pairs) :
    (e.block text).Unreserved := by
  cases e with
  | pair contract emission => exact unreserved_block text contract emission
  | other block => exact h.2

theorem unreserved_blocks (h : ∀ e ∈ emissions, e.Formed pairs) :
    ∀ b ∈ emittedBlocks text emissions, b.Unreserved := by
  intro b hb
  obtain ⟨e, he, rfl⟩ := List.mem_map.1 hb
  exact (h e he).unreserved

theorem unreserved_apart (h : ∀ e ∈ emissions, e.Apart quiet contract) :
    ∀ b ∈ emittedBlocks text emissions, b.Unreserved := by
  intro b hb
  obtain ⟨e, he, rfl⟩ := List.mem_map.1 hb
  exact (h e he).unreserved

theorem emissionsOf_cons_own (e : PairEmission) (rest : List Emission) :
    emissionsOf contract (.pair contract e :: rest) = e :: emissionsOf contract rest := by
  simp [emissionsOf]

theorem emissionsOf_cons_pair {c : String} (h : c ≠ contract) (e : PairEmission)
    (rest : List Emission) :
    emissionsOf contract (.pair c e :: rest) = emissionsOf contract rest := by
  simp [emissionsOf, h]

theorem emissionsOf_cons_other (b : Block) (rest : List Emission) :
    emissionsOf contract (.other b :: rest) = emissionsOf contract rest := by
  simp [emissionsOf]

/-- The emission is the pair's own, or a block that gives the pair nothing. -/
theorem own_or_apart {e : Emission} (h : e.Apart quiet contract) :
    (∃ emission, e = .pair contract emission ∧ emission.Bounded) ∨
      ((e.block text).contract ≠ contract ∨ quiet (e.block text)) ∧
        ∀ rest, emissionsOf contract (e :: rest) = emissionsOf contract rest := by
  cases e with
  | pair c emission =>
    by_cases hc : c = contract
    · subst hc
      exact .inl ⟨emission, rfl, h⟩
    · exact .inr ⟨.inl hc, emissionsOf_cons_pair hc emission⟩
  | other block =>
    refine .inr ⟨?_, emissionsOf_cons_other block⟩
    by_cases hc : block.contract = contract
    · exact .inr (h.2 hc)
    · exact .inl hc

theorem own_or_foreign {e : Emission} (h : e.Formed pairs) (hpair : pairs contract) :
    (∃ emission, e = .pair contract emission ∧ emission.Bounded) ∨
      (e.block text).contract ≠ contract ∧
        ∀ rest, emissionsOf contract (e :: rest) = emissionsOf contract rest := by
  rcases @own_or_apart text contract _ _ (h.apart hpair) with hown | ⟨hforeign | hquiet, hrest⟩
  · exact .inl hown
  · exact .inr ⟨hforeign, hrest⟩
  · exact hquiet.elim

/-- Rows that each block gives on its own and that name its contract: those of a pair are the rows
of what it emitted. -/
theorem filter_apartRows {α : Type} {pairOf : α → String} {g : Block → List α}
    {rows : PairEmission → List α}
    (hown : ∀ b : Block, b.Unreserved → ∀ row ∈ g b, pairOf row = b.contract)
    (hrows : ∀ e : PairEmission, e.Bounded → g (e.block text contract) = rows e)
    (hquiet : ∀ b, quiet b → g b = []) (h : ∀ e ∈ emissions, e.Apart quiet contract) :
    ((emittedBlocks text emissions).flatMap g).filter (fun row => pairOf row = contract) =
      (emissionsOf contract emissions).flatMap rows := by
  induction emissions with
  | nil => rfl
  | cons e rest ih =>
    obtain ⟨he, hrest⟩ := List.forall_mem_cons.1 h
    have hrestRows := ih hrest
    unfold emittedBlocks at hrestRows ⊢
    rw [List.map_cons, List.flatMap_cons, List.filter_append, hrestRows]
    have hnames := hown (e.block text) he.unreserved
    rcases own_or_apart he with ⟨emission, rfl, hbounded⟩ | ⟨hc | hc, hforeign⟩
    · rw [emissionsOf_cons_own, List.flatMap_cons, ← hrows emission hbounded]
      refine congrArg (· ++ _) (List.filter_eq_self.2 fun row hrow => ?_)
      exact decide_eq_true (hnames row hrow)
    · rw [hforeign rest, List.filter_eq_nil_iff.2, List.nil_append]
      intro row hrow
      simpa [hnames row hrow] using hc
    · rw [hforeign rest, hquiet _ hc, List.filter_nil, List.nil_append]

theorem filter_blockRows {α : Type} {pairOf : α → String} {g : Block → List α}
    {rows : PairEmission → List α}
    (hown : ∀ b : Block, b.Unreserved → ∀ row ∈ g b, pairOf row = b.contract)
    (hrows : ∀ e : PairEmission, e.Bounded → g (e.block text contract) = rows e)
    (h : ∀ e ∈ emissions, e.Formed pairs) (hpair : pairs contract) :
    ((emittedBlocks text emissions).flatMap g).filter (fun row => pairOf row = contract) =
      (emissionsOf contract emissions).flatMap rows :=
  filter_apartRows hown hrows (fun _ hfalse => hfalse.elim) fun e he => (h e he).apart hpair

theorem isLifecycle_wasm (attrs : List Attribute) : Event.isLifecycle ⟨"wasm", attrs⟩ = true := rfl

theorem filter_lifecycle (l : List Block) :
    (l.map fun b => (⟨"wasm", b.attributes⟩ : Event)).filter Event.isLifecycle =
      l.map fun b => ⟨"wasm", b.attributes⟩ := by
  rw [List.filter_eq_self]
  intro event hevent
  obtain ⟨b, hb, rfl⟩ := List.mem_map.1 hevent
  rfl

theorem filter_wasm (l : List Block) :
    (l.map fun b => (⟨"wasm", b.attributes⟩ : Event)).filter Event.isWasm =
      l.map fun b => ⟨"wasm", b.attributes⟩ := by
  rw [List.filter_eq_self]
  intro event hevent
  obtain ⟨b, hb, rfl⟩ := List.mem_map.1 hevent
  rfl

/-- A parser of one event at a time that stays within blocks reads the same rows from both
deliveries. -/
theorem rows_of_deliveries {α : Type} {parse : List Attribute → List α} {g : Block → List α}
    (hparse : ∀ l : List Block, (∀ b ∈ l, b.Unreserved) →
      parse (l.flatMap Block.attributes) = l.flatMap g)
    (hblocks : ∀ b ∈ emittedBlocks text emissions, b.Unreserved) {tx : TxResponse}
    (hdelivery : Separate text emissions tx ∨ Flattened text emissions tx) :
    ((tx.allEvents.filter Event.isLifecycle).flatMap fun event => parse event.attributes) =
      (emittedBlocks text emissions).flatMap g := by
  rcases hdelivery with hseparate | hflat
  · have hone : ∀ b ∈ emittedBlocks text emissions, parse b.attributes = g b := by
      intro b hb
      have hb' := hparse [b] (by simpa using hblocks b hb)
      simpa using hb'
    unfold Separate at hseparate
    rw [hseparate, filter_lifecycle, List.flatMap_map]
    exact List.flatMap_congr hone
  · unfold Flattened at hflat
    rw [hflat, List.filter_cons_of_pos (isLifecycle_wasm _), List.filter_nil,
      List.flatMap_singleton]
    exact hparse _ hblocks

end Streams

section Families

variable (text : Addr → String) {pairs : String → Prop} {emissions : List Emission}
  {contract : String} {tx : TxResponse}

theorem parkedRow_contract {act : WasmAction} {row : ParsedLimitOrderExpiredParked}
    (h : parkedRow act = some row) : row.pairAddress = act.contract := by
  unfold parkedRow at h
  split at h
  · cases h
  · simp only [bind, Option.bind_eq_some_iff, pure] at h
    obtain ⟨_, _, _, _, hrow⟩ := h
    rw [← Option.some.inj hrow]

theorem actionRows_contract {α : Type} {row : WasmAction → Option α} {pairOf : α → String}
    (hrow : ∀ act r, row act = some r → pairOf r = act.contract) (b : Block) :
    ∀ r ∈ b.actionRows row, pairOf r = b.contract := by
  intro r hr
  obtain ⟨act, hact, hr⟩ := List.mem_filterMap.1 hr
  obtain ⟨action, _, rfl⟩ := List.mem_map.1 hact
  exact hrow _ r hr

theorem parks_blocks (l : List Block) (h : ∀ b ∈ l, b.Unreserved) :
    parseLimitOrderExpiredParkedFromWasmAttrs (l.flatMap Block.attributes) =
      l.flatMap (Block.actionRows parkedRow) := by
  unfold parseLimitOrderExpiredParkedFromWasmAttrs
  rw [wasmActions_blocks h, filterMap_blockActions unplaced_parkedRow]

theorem parseLimitOrderExpiredParked_eq (h : ∀ e ∈ emissions, e.Formed pairs)
    (hpair : pairs contract)
    (hdelivery : Separate text emissions tx ∨ Flattened text emissions tx) :
    (parseLimitOrderExpiredParked tx).filter (fun row => row.pairAddress = contract) =
      (emissionsOf contract emissions).flatMap (PairEmission.parkedRows contract) := by
  unfold parseLimitOrderExpiredParked
  rw [rows_of_deliveries parks_blocks (unreserved_blocks h) hdelivery]
  exact @filter_blockRows text pairs emissions contract _
    ParsedLimitOrderExpiredParked.pairAddress _ _
    (fun b _ => actionRows_contract (fun _ _ => parkedRow_contract) b)
    (fun e he => parkedRows_block text he) h hpair

theorem placementSegment_contract {c : String} {seg : Segment} {row : ParsedLimitOrderPlacement}
    (h : parseLimitOrderPlacementSegment c seg = some row) : row.pairAddress = c := by
  simp only [parseLimitOrderPlacementSegment, bind, Option.bind_eq_some_iff, pure] at h
  obtain ⟨_, _, _, _, _, _, hrow⟩ := h
  rw [← Option.some.inj hrow]

theorem fillSegment_contract {c : String} {seg : Segment} {row : ParsedLimitOrderFill}
    (h : parseLimitOrderFillSegment c seg = some row) : row.pairAddress = c := by
  unfold parseLimitOrderFillSegment at h
  obtain ⟨side, _, h⟩ := Option.bind_eq_some_iff.1 h
  split at h
  · cases h
  · simp only [bind, Option.bind_eq_some_iff, pure] at h
    obtain ⟨_, _, _, _, _, _, _, _, _, _, _, _, _, _, hrow⟩ := h
    rw [← Option.some.inj hrow]

/-- Rows that a scan reads from what a contract emitted name it. -/
theorem blockScan_contract {α : Type} {action : String} {single : String → Segment → Option α}
    {columnar : String → List Attribute → Option (List α)} {pairOf : α → String}
    (hsingle : ∀ c seg row, single c seg = some row → pairOf row = c)
    (hcolumnar : ∀ c attrs rows, columnar c attrs = some rows → ∀ row ∈ rows, pairOf row = c)
    (b : Block) (hb : b.Unreserved) :
    ∀ row ∈ b.scanRows action single columnar, pairOf row = b.contract :=
  scanRows_forall (hsingle b.contract) (hcolumnar b.contract) rfl hb

theorem placementColumns_contract (c : String) (attrs : List Attribute)
    (rows : List ParsedLimitOrderPlacement)
    (h : parseLimitOrderPlacementsColumnar c attrs = some rows) :
    ∀ row ∈ rows, row.pairAddress = c := by
  unfold parseLimitOrderPlacementsColumnar at h
  split at h
  · cases h
  · intro row hrow
    rw [← Option.some.inj h] at hrow
    obtain ⟨seg, _, hseg⟩ := List.mem_filterMap.1 hrow
    exact placementSegment_contract hseg

theorem fillColumns_contract (c : String) (attrs : List Attribute)
    (rows : List ParsedLimitOrderFill)
    (h : parseLimitOrderFillsColumnar c attrs = some rows) :
    ∀ row ∈ rows, row.pairAddress = c := by
  unfold parseLimitOrderFillsColumnar at h
  split at h
  · cases h
  · split at h
    · cases h
    · intro row hrow
      rw [← Option.some.inj h] at hrow
      obtain ⟨seg, _, hseg⟩ := List.mem_filterMap.1 hrow
      exact fillSegment_contract hseg

theorem placements_blocks (l : List Block) (h : ∀ b ∈ l, b.Unreserved) :
    parseLimitOrderPlacementsFromWasmAttrs (l.flatMap Block.attributes) =
      l.flatMap (Block.scanRows "place_limit_order" parseLimitOrderPlacementSegment
        parseLimitOrderPlacementsColumnar) :=
  scanRows_blocks h

theorem parseLimitOrderPlacements_eq (h : ∀ e ∈ emissions, e.Formed pairs)
    (hpair : pairs contract)
    (hdelivery : Separate text emissions tx ∨ Flattened text emissions tx) :
    (parseLimitOrderPlacements tx).filter (fun row => row.pairAddress = contract) =
      (emissionsOf contract emissions).flatMap (PairEmission.placementRows text contract) := by
  unfold parseLimitOrderPlacements
  rw [rows_of_deliveries placements_blocks (unreserved_blocks h) hdelivery]
  exact @filter_blockRows text pairs emissions contract _ ParsedLimitOrderPlacement.pairAddress _ _
    (blockScan_contract (fun _ _ _ => placementSegment_contract) placementColumns_contract)
    (fun e he => placementRows_block text he) h hpair

end Families

section Fills

variable (text : Addr → String) {pairs : String → Prop} {emissions : List Emission}
  {contract : String} {tx : TxResponse}

/-- The fills of an event's attributes, before those without a stamp get an ordinal. -/
def fillRowsOf (attrs : List Attribute) : List ParsedLimitOrderFill :=
  (parseLimitOrderFillsFromWasmAttrs attrs).map Prod.snd

/-- Stamped fills keep their stamp whatever swaps surround them. -/
theorem filter_fillsFrom {seen : String → ℕ} {events : List Event}
    (h : ∀ fill ∈ (events.flatMap fun event => fillRowsOf event.attributes).filter
      (fun fill => fill.pairAddress = contract), fill.swapIndexFromChain = some fill.swapIndex) :
    (fillsFrom seen events).filter (fun fill => fill.pairAddress = contract) =
      (events.flatMap fun event => fillRowsOf event.attributes).filter
        fun fill => fill.pairAddress = contract := by
  induction events generalizing seen with
  | nil => rfl
  | cons event events ih =>
    simp only [List.flatMap_cons, List.filter_append, List.forall_mem_append] at h
    rw [fillsFrom, List.flatMap_cons, List.filter_append, List.filter_append, ih h.2]
    refine congrArg (· ++ _) ?_
    unfold fillRowsOf
    rw [List.filter_map, List.filter_map]
    refine List.map_congr_left fun fill hfill => ?_
    have hstamp : fill.2.swapIndexFromChain = some fill.2.swapIndex := by
      refine h.1 _ (List.mem_filter.2 ⟨List.mem_map_of_mem (List.mem_filter.1 hfill).1, ?_⟩)
      exact (List.mem_filter.1 hfill).2
    unfold inferSwapIndex
    dsimp only
    rw [hstamp, Option.getD_some, ← hstamp]

theorem fills_blocks (l : List Block) (h : ∀ b ∈ l, b.Unreserved) :
    fillRowsOf (l.flatMap Block.attributes) =
      l.flatMap (Block.scanRows "limit_order_fill" parseLimitOrderFillSegment
        parseLimitOrderFillsColumnar) :=
  scanRows_blocks h

theorem fillRows_stamped {e : PairEmission} (h : e.Bounded) :
    ∀ fill ∈ e.fillRows text contract, fill.swapIndexFromChain = some fill.swapIndex := by
  intro fill hfill
  cases e with
  | book event =>
    obtain ⟨event, stamp⟩ := event
    cases event with
    | limitOrderFill orderId side maker price token0Amount token1Amount commissionAmount =>
      obtain ⟨_, _, _, _, _, index, rfl, _⟩ := h
      rw [List.mem_singleton.1 hfill]
      rfl
    | limitOrderExpiredParked orderId maker side remaining reason => cases hfill
  | _ => cases hfill

theorem mem_emissionsOf {e : PairEmission} :
    e ∈ emissionsOf contract emissions ↔ .pair contract e ∈ emissions := by
  unfold emissionsOf
  rw [List.mem_filterMap]
  constructor
  · rintro ⟨emission, hmem, hval⟩
    cases emission with
    | pair c e' =>
      simp only [Option.ite_none_right_eq_some, Option.some.injEq] at hval
      obtain ⟨rfl, rfl⟩ := hval
      exact hmem
    | other b => cases hval
  · intro hmem
    exact ⟨_, hmem, if_pos rfl⟩

/-- The fills of a pair in both deliveries. -/
theorem parseLimitOrderFills_apart {quiet : Block → Prop}
    (hquiet : ∀ b, quiet b → b.scanRows "limit_order_fill" parseLimitOrderFillSegment
      parseLimitOrderFillsColumnar = [])
    (h : ∀ e ∈ emissions, e.Apart quiet contract)
    (hdelivery : Separate text emissions tx ∨ Flattened text emissions tx) :
    (parseLimitOrderFills tx).filter (fun row => row.pairAddress = contract) =
      (emissionsOf contract emissions).flatMap (PairEmission.fillRows text contract) := by
  have hrows : ((tx.allEvents.filter Event.isLifecycle).flatMap fun event =>
      fillRowsOf event.attributes).filter
      (fun row => row.pairAddress = contract) =
      (emissionsOf contract emissions).flatMap (PairEmission.fillRows text contract) := by
    have hblocks : ((tx.allEvents.filter Event.isLifecycle).flatMap fun event =>
        fillRowsOf event.attributes) = _ :=
      rows_of_deliveries fills_blocks (unreserved_apart h) hdelivery
    rw [hblocks]
    exact @filter_apartRows text emissions contract _ _ ParsedLimitOrderFill.pairAddress _ _
      (blockScan_contract (fun _ _ _ => fillSegment_contract) fillColumns_contract)
      (fun e he => fillRows_block text he) hquiet h
  unfold parseLimitOrderFills
  rw [filter_fillsFrom, hrows]
  rw [hrows]
  intro fill hfill
  obtain ⟨e, he, hfill⟩ := List.mem_flatMap.1 hfill
  exact fillRows_stamped text (h _ (mem_emissionsOf.1 he)) fill hfill

theorem parseLimitOrderFills_eq (h : ∀ e ∈ emissions, e.Formed pairs)
    (hpair : pairs contract)
    (hdelivery : Separate text emissions tx ∨ Flattened text emissions tx) :
    (parseLimitOrderFills tx).filter (fun row => row.pairAddress = contract) =
      (emissionsOf contract emissions).flatMap (PairEmission.fillRows text contract) :=
  parseLimitOrderFills_apart text (fun _ hfalse => hfalse.elim)
    (fun e he => (h e he).apart hpair) hdelivery

end Fills

section Swaps

variable (text : Addr → String) {pairs : String → Prop} {emissions : List Emission}
  {contract : String} {tx : TxResponse} {count : String → ℕ} {acts : List WasmAction}

/-- An action wherever it stands. -/
def WasmAction.unplaced (act : WasmAction) : WasmAction := { act with position := 0 }

/-- The swaps of each pair after some actions. -/
def swapCounts (count : String → ℕ) : List WasmAction → String → ℕ
  | [] => count
  | act :: rest =>
    swapCounts (if act.swapSender.isSome then bump count act.contract else count) rest

theorem swapsFrom_append (rest : List WasmAction) :
    swapsFrom count (acts ++ rest) =
      swapsFrom count acts ++ swapsFrom (swapCounts count acts) rest := by
  induction acts generalizing count with
  | nil => rfl
  | cons act acts ih =>
    rw [List.cons_append, swapsFrom, swapsFrom, swapCounts]
    cases act.swapSender with
    | none => exact ih
    | some sender =>
      simp only [Option.isSome_some, if_true]
      rw [ih, List.append_assoc]

theorem swapsFrom_unplaced : swapsFrom count (acts.map WasmAction.unplaced) =
    swapsFrom count acts := by
  induction acts generalizing count with
  | nil => rfl
  | cons act acts ih =>
    have hsender : act.unplaced.swapSender = act.swapSender := rfl
    rw [List.map_cons, swapsFrom, swapsFrom, hsender]
    cases act.swapSender with
    | none => exact ih
    | some sender =>
      simp only [ih]
      rfl

theorem parseSwapAmounts_contract {seg : Segment} {c sender : String} {index : ℕ}
    {row : ParsedSwap} (h : parseSwapAmounts seg c sender index = some row) :
    row.pairAddress = c := by
  simp only [parseSwapAmounts, bind, Option.bind_eq_some_iff, pure] at h
  obtain ⟨_, _, _, _, _, _, _, _, _, _, _, _, _, _, _, _, _, _, _, _, hrow⟩ := h
  rw [← Option.some.inj hrow]

/-- What other contracts do neither counts nor gives a row for a pair. -/
theorem swapsFrom_foreign (h : ∀ act ∈ acts, act.contract ≠ contract) :
    (swapsFrom count acts).filter (fun row => row.pairAddress = contract) = [] ∧
      swapCounts count acts contract = count contract := by
  induction acts generalizing count with
  | nil => exact ⟨rfl, rfl⟩
  | cons act acts ih =>
    obtain ⟨hact, hacts⟩ := List.forall_mem_cons.1 h
    rw [swapsFrom, swapCounts]
    cases act.swapSender with
    | none => exact ih hacts
    | some sender =>
      obtain ⟨hrows, hcount⟩ := @ih (bump count act.contract) hacts
      simp only [Option.isSome_some, if_true]
      rw [List.filter_append, hrows, List.append_nil, hcount]
      constructor
      · rw [List.filter_eq_nil_iff]
        intro row hrow
        have hc := parseSwapAmounts_contract (Option.mem_toList.1 hrow)
        simpa [hc] using hact
      · exact if_neg (Ne.symm hact)

/-- What a block did, wherever it stands. -/
def Block.unplacedActions (b : Block) : List WasmAction := (b.actionsFrom 0).map WasmAction.unplaced

theorem unplaced_actionsFrom (b : Block) (position : ℕ) :
    (b.actionsFrom position).map WasmAction.unplaced = b.unplacedActions := by
  have hmap : ∀ n, ((bodyActions n b.body).map (BodyAction.by b.contract)).map
      WasmAction.unplaced = ((bodyActions n b.body).map Prod.snd).map fun t =>
        ⟨0, t.1, b.contract, t.2⟩ := by
    intro n
    rw [List.map_map, List.map_map]
    rfl
  unfold Block.unplacedActions Block.actionsFrom
  rw [hmap, hmap, bodyActions_snd, bodyActions_snd (0 + 1)]

theorem unplaced_blockActions (position : ℕ) (l : List Block) :
    (blockActions position l).map WasmAction.unplaced = l.flatMap Block.unplacedActions := by
  induction l generalizing position with
  | nil => rfl
  | cons b l ih =>
    rw [blockActions, List.map_append, ih, unplaced_actionsFrom, List.flatMap_cons]

theorem unplacedActions_pair (e : PairEmission) : (e.block text contract).unplacedActions =
    (e.actions text).map fun t => ⟨0, t.name, contract, t.fields⟩ := by
  have hmap : ((bodyActions 1 (e.attributes text contract)).map (BodyAction.by contract)).map
      WasmAction.unplaced = ((bodyActions 1 (e.attributes text contract)).map Prod.snd).map fun t =>
        ⟨0, t.1, contract, t.2⟩ := by
    rw [List.map_map, List.map_map]
    rfl
  unfold Block.unplacedActions Block.actionsFrom PairEmission.block
  rw [hmap, PairEmission.attributes, bodyActions_plain (plain_lead contract e),
    bodyActions_texts (proper_actions text e), List.map_map]
  rfl

/-- Actions other than swaps give no rows and count nothing. -/
theorem swapsFrom_others (h : ∀ act ∈ acts, act.action ≠ "swap") :
    swapsFrom count acts = [] ∧ swapCounts count acts = count := by
  induction acts with
  | nil => exact ⟨rfl, rfl⟩
  | cons act acts ih =>
    obtain ⟨hact, hacts⟩ := List.forall_mem_cons.1 h
    have hsender : act.swapSender = none := if_neg hact
    rw [swapsFrom, swapCounts, hsender]
    exact ih hacts

theorem actions_not_swap {e : PairEmission} {index : ℕ}
    (h : e.swapRow text contract index = none) :
    ∀ t ∈ e.actions text, t.name ≠ "swap" := by
  cases e with
  | swap report bookLeg => cases h
  | book event =>
    obtain ⟨event, stamp⟩ := event
    cases event <;> simp [PairEmission.actions, bookActionText]
  | place report => simp [PairEmission.actions, rungActionText]
  | cancel orderId owner => simp [PairEmission.actions, cancelActionText]
  | cancelBatch orderIds owner =>
    simp [PairEmission.actions, cancelActionText, batchActionText]
  | claim orderId owner => simp [PairEmission.actions, claimActionText]
  | claimBatch orderIds owner =>
    simp [PairEmission.actions, claimActionText, batchActionText]
  | clean report => simp [PairEmission.actions]

/-- A pair's swap gives its row under the next ordinal. -/
theorem swapsFrom_own {e : PairEmission} (he : e.Bounded) :
    swapsFrom count (e.block text contract).unplacedActions =
        (e.swapRow text contract (count contract)).toList ∧
      swapCounts count (e.block text contract).unplacedActions contract =
        count contract + (e.swapRow text contract (count contract)).toList.length := by
  rw [unplacedActions_pair]
  cases hrow : e.swapRow text contract (count contract) with
  | none =>
    have hothers : ∀ act ∈ (e.actions text).map
        (fun t => (⟨0, t.name, contract, t.fields⟩ : WasmAction)), act.action ≠ "swap" := by
      intro act hact
      obtain ⟨t, ht, rfl⟩ := List.mem_map.1 hact
      exact actions_not_swap text hrow t ht
    obtain ⟨hrows, hcount⟩ := @swapsFrom_others count _ hothers
    rw [hrows, hcount]
    exact ⟨rfl, rfl⟩
  | some row =>
    cases e with
    | swap report bookLeg =>
      have hkey : ("sender" : String) ∉ bookKeys := by decide
      have hfield : Segment.get (swapFields text report bookLeg) "sender" =
          some (text report.sender) := by
        cases bookLeg with
        | false => simp [swapFields, get_cons]
        | true =>
          rw [get_swapFields text hkey]
          simp [swapFields, get_cons]
      have hsender : WasmAction.swapSender
          ⟨0, "swap", contract, swapFields text report bookLeg⟩ = some (text report.sender) := by
        rw [WasmAction.swapSender, if_pos rfl]
        exact hfield
      rw [PairEmission.actions, List.map_cons, List.map_nil, swapsFrom, swapCounts, hsender]
      dsimp only
      rw [parseSwapAmounts_swapFields text he, hrow]
      simp [swapsFrom, swapCounts, bump]
    | _ => cases hrow

theorem swapRowsFrom_cons (e : PairEmission) (n : ℕ) (rest : List PairEmission) :
    swapRowsFrom text contract n (e :: rest) = (e.swapRow text contract n).toList ++
      swapRowsFrom text contract (n + (e.swapRow text contract n).toList.length) rest := by
  rw [swapRowsFrom]
  cases e.swapRow text contract n <;> rfl

theorem filter_swapsFrom {quiet : Block → Prop}
    (hquiet : ∀ b, quiet b → ∀ act ∈ b.unplacedActions, act.action ≠ "swap")
    (h : ∀ e ∈ emissions, e.Apart quiet contract) :
    (swapsFrom count ((emittedBlocks text emissions).flatMap Block.unplacedActions)).filter
        (fun row => row.pairAddress = contract) =
      swapRowsFrom text contract (count contract) (emissionsOf contract emissions) := by
  induction emissions generalizing count with
  | nil => rfl
  | cons e rest ih =>
    obtain ⟨he, hrest⟩ := List.forall_mem_cons.1 h
    have hrows := fun count => @ih count hrest
    unfold emittedBlocks at hrows ⊢
    rw [List.map_cons, List.flatMap_cons, swapsFrom_append, List.filter_append, hrows]
    rcases @own_or_apart text contract _ _ he with ⟨emission, rfl, hbounded⟩ | ⟨hc | hc, hforeign⟩
    · obtain ⟨hown, hcount⟩ := @swapsFrom_own text contract count emission hbounded
      unfold Emission.block
      rw [emissionsOf_cons_own, swapRowsFrom_cons, hcount, hown]
      refine congrArg (· ++ _) (List.filter_eq_self.2 fun row hrow => ?_)
      cases emission with
      | swap report bookLeg =>
        rw [List.mem_singleton.1 hrow]
        exact decide_eq_true rfl
      | _ => cases hrow
    · have hacts : ∀ act ∈ (e.block text).unplacedActions, act.contract ≠ contract := by
        intro act hact
        obtain ⟨placed, hplaced, rfl⟩ := List.mem_map.1 hact
        obtain ⟨action, _, rfl⟩ := List.mem_map.1 hplaced
        exact hc
      obtain ⟨hnone, hcount⟩ := @swapsFrom_foreign contract count _ hacts
      rw [hnone, hcount, hforeign rest, List.nil_append]
    · obtain ⟨hnone, hcount⟩ := @swapsFrom_others count _ (hquiet _ hc)
      rw [hnone, hcount, hforeign rest, List.filter_nil, List.nil_append]

theorem parseSwaps_apart {quiet : Block → Prop}
    (hquiet : ∀ b, quiet b → ∀ act ∈ b.unplacedActions, act.action ≠ "swap")
    (h : ∀ e ∈ emissions, e.Apart quiet contract)
    (hdelivery : Separate text emissions tx ∨ Flattened text emissions tx) :
    (parseSwaps tx).filter (fun row => row.pairAddress = contract) =
      swapRowsFrom text contract 0 (emissionsOf contract emissions) := by
  have hacts : (((tx.allEvents.filter Event.isWasm).flatMap fun event =>
      wasmActions event.attributes).map WasmAction.unplaced) =
        (emittedBlocks text emissions).flatMap Block.unplacedActions := by
    have hblocks := @unreserved_apart text _ _ _ h
    rcases hdelivery with hseparate | hflat
    · have hone : ∀ b ∈ emittedBlocks text emissions,
          (wasmActions b.attributes).map WasmAction.unplaced = b.unplacedActions := by
        intro b hb
        have hb' := @wasmActions_blocks [b] (by simpa using hblocks b hb)
        rw [List.flatMap_singleton] at hb'
        rw [hb', unplaced_blockActions, List.flatMap_singleton]
      unfold Separate at hseparate
      rw [hseparate, filter_wasm, List.flatMap_map, List.map_flatMap]
      exact List.flatMap_congr hone
    · unfold Flattened at hflat
      rw [hflat, List.filter_cons_of_pos rfl, List.filter_nil, List.flatMap_singleton,
        wasmActions_blocks hblocks, unplaced_blockActions]
  unfold parseSwaps
  rw [← swapsFrom_unplaced, hacts]
  exact filter_swapsFrom text hquiet h

theorem parseSwaps_eq (h : ∀ e ∈ emissions, e.Formed pairs) (hpair : pairs contract)
    (hdelivery : Separate text emissions tx ∨ Flattened text emissions tx) :
    (parseSwaps tx).filter (fun row => row.pairAddress = contract) =
      swapRowsFrom text contract 0 (emissionsOf contract emissions) :=
  parseSwaps_apart text (fun _ hfalse => hfalse.elim)
    (fun e he => (h e he).apart hpair) hdelivery

end Swaps

end Cl8yDex.WasmEvents
