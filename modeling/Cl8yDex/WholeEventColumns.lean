import Cl8yDex.LifecycleDecoding

/-!
# Cancellations and claims in columns

Cancellations and claims of a batch are read from the columns of the whole event. An event of one
emission reads as that emission's orders. The event of all emissions does so exactly if its columns
hold nothing but what its first emitter cancelled or claimed.
-/

namespace Cl8yDex.WasmEvents

section Columns

variable {α β : Type}

/-- Lists no longer than others, with the same total length, are each as long. -/
theorem length_eq_of_flatMap {l : List α} {f g : α → List β}
    (hle : ∀ a ∈ l, (g a).length ≤ (f a).length)
    (htotal : (l.flatMap f).length = (l.flatMap g).length) :
    ∀ a ∈ l, (f a).length = (g a).length := by
  have hsum : ∀ l : List α, (∀ a ∈ l, (g a).length ≤ (f a).length) →
      (l.flatMap g).length ≤ (l.flatMap f).length := by
    intro l hl
    induction l with
    | nil => simp
    | cons a l ih =>
      obtain ⟨ha, hl⟩ := List.forall_mem_cons.1 hl
      have hrest := ih hl
      rw [List.flatMap_cons, List.flatMap_cons, List.length_append, List.length_append]
      omega
  induction l with
  | nil => simp
  | cons a l ih =>
    obtain ⟨ha, hl⟩ := List.forall_mem_cons.1 hle
    have hrest := hsum l hl
    rw [List.flatMap_cons, List.flatMap_cons, List.length_append, List.length_append] at htotal
    have hlast : (l.flatMap f).length = (l.flatMap g).length := by omega
    exact List.forall_mem_cons.2 ⟨by omega, ih hl hlast⟩

/-- The numbers under a key. -/
def keyIds (key : String) (attrs : List Attribute) : List ℤ :=
  (wasmAttrValues attrs key).filterMap parseI64

theorem wasmAttrValues_flatMap (key : String) (f : α → List Attribute) (l : List α) :
    wasmAttrValues (l.flatMap f) key = l.flatMap fun a => wasmAttrValues (f a) key := by
  induction l with
  | nil => rfl
  | cons a l ih => rw [List.flatMap_cons, wasmAttrValues_append, ih, List.flatMap_cons]

theorem keyIds_flatMap (key : String) (f : α → List Attribute) (l : List α) :
    keyIds key (l.flatMap f) = l.flatMap fun a => keyIds key (f a) := by
  unfold keyIds
  rw [wasmAttrValues_flatMap, List.filterMap_flatMap]

theorem Lacks.values {attrs : List Attribute} {key : String} (h : Lacks attrs key) :
    wasmAttrValues attrs key = [] := by
  unfold wasmAttrValues
  rw [List.filter_eq_nil_iff.2, List.map_nil]
  intro a ha
  simpa using h a ha

theorem Lacks.keyIds {attrs : List Attribute} {key : String} (h : Lacks attrs key) :
    keyIds key attrs = [] := by
  unfold WasmEvents.keyIds
  rw [h.values, List.filterMap_nil]

/-- The contract that a stream of blocks begins with. -/
def firstContract : List Block → Option String
  | [] => none
  | b :: _ => some b.contract

theorem find_contract (l : List Block) :
    ((l.flatMap Block.attributes).find? Attribute.isContractAddr).map Attribute.value =
      firstContract l := by
  cases l with
  | nil => rfl
  | cons b l =>
    rw [List.flatMap_cons, Block.attributes, List.cons_append, List.find?_cons_of_pos rfl]
    rfl

/-- Whether an event is read in columns, and they are not empty. -/
def InColumns (batch single key : String) (attrs : List Attribute) : Prop :=
  readsColumns batch single attrs = true ∧ keyIds key attrs ≠ []

variable {batch single key : String} {l : List Block}

theorem wholeEventIds_none
    (h : ¬ InColumns batch single key (l.flatMap Block.attributes)) :
    wholeEventIds batch single key (l.flatMap Block.attributes) = none := by
  unfold wholeEventIds
  by_cases hreads : readsColumns batch single (l.flatMap Block.attributes) = true
  · have hids : (wasmAttrValues (l.flatMap Block.attributes) key).filterMap parseI64 = [] := by
      by_contra hids
      exact h ⟨hreads, hids⟩
    rw [if_neg (not_not_intro hreads), hids]
    dsimp only
    rw [find_contract]
    cases firstContract l <;> rfl
  · rw [if_pos hreads]
    rfl

theorem wholeEventIds_some {contract : String} (hfirst : firstContract l = some contract)
    (h : InColumns batch single key (l.flatMap Block.attributes)) :
    wholeEventIds batch single key (l.flatMap Block.attributes) =
      some (contract, keyIds key (l.flatMap Block.attributes)) := by
  have hids : ¬ (wasmAttrValues (l.flatMap Block.attributes) key).filterMap parseI64 = [] := h.2
  unfold wholeEventIds
  rw [if_neg (not_not_intro h.1), find_contract, hfirst]
  simp only [pure, bind, Option.bind_some]
  rw [if_neg hids]
  rfl

end Columns

section Emissions

variable (text : Addr → String) {e : PairEmission} {contract key : String}

/-- Keys that neither name a contract nor begin an action. -/
def FieldKey (key : String) : Prop :=
  key ≠ "_contract_address" ∧ key ≠ "contract_address" ∧ key ≠ "action"

theorem values_block (hkey : FieldKey key) : wasmAttrValues (e.block text contract).attributes key =
    (e.actions text).flatMap fun t => wasmAttrValues t.fields key := by
  obtain ⟨hruntime, hlead, haction⟩ := hkey
  have hnolead : Lacks (⟨"_contract_address", contract⟩ :: e.lead contract) key := by
    cases e <;> simp [Lacks, PairEmission.lead, hruntime.symm, hlead.symm]
  have hattributes : (e.block text contract).attributes =
      (⟨"_contract_address", contract⟩ :: e.lead contract) ++
        (e.actions text).flatMap ActionText.attributes := rfl
  rw [hattributes, wasmAttrValues_append, hnolead.values, List.nil_append, wasmAttrValues_flatMap]
  refine List.flatMap_congr fun t _ => ?_
  unfold ActionText.attributes wasmAttrValues
  rw [List.filter_cons_of_neg (by simpa using haction.symm)]

theorem keyIds_block (hkey : FieldKey key) : keyIds key (e.block text contract).attributes =
    (e.actions text).flatMap fun t => keyIds key t.fields := by
  unfold keyIds
  rw [values_block text hkey, List.filterMap_flatMap]

theorem fieldKey_cancelled : FieldKey "limit_order_cancelled" := by
  unfold FieldKey
  decide

theorem fieldKey_orderId : FieldKey "order_id" := by
  unfold FieldKey
  decide

theorem fieldKey_owner : FieldKey "owner" := by
  unfold FieldKey
  decide

theorem lacks_swapFields {report : SwapReport} {bookLeg : Bool}
    (hown : Lacks (ownFields text report) key) (hbook : key ∉ bookKeys) :
    Lacks (swapFields text report bookLeg) key := by
  intro a ha
  rcases List.mem_append.1 ha with ha | ha
  · exact hown a ha
  · exact lacks_bookFields hbook report bookLeg a ha

theorem keyIds_cancelActionText {owner : Addr} {orderId : OrderId} (h : orderId < 2 ^ 63) :
    keyIds "limit_order_cancelled" (cancelActionText text owner orderId).fields =
      [(orderId : ℤ)] := by
  simp [-Nat.toString_eq_repr, keyIds, wasmAttrValues, cancelActionText, parseI64_toString h]

theorem keyIds_claimActionText {owner : Addr} {orderId : OrderId} (h : orderId < 2 ^ 63) :
    keyIds "order_id" (claimActionText text owner orderId).fields = [(orderId : ℤ)] := by
  simp [-Nat.toString_eq_repr, keyIds, wasmAttrValues, claimActionText, parseI64_toString h]

theorem flatMap_singles {orderIds : List OrderId} {f : OrderId → List ℤ}
    (h : ∀ orderId ∈ orderIds, f orderId = [(orderId : ℤ)]) :
    orderIds.flatMap f = orderIds.map fun orderId : OrderId => (orderId : ℤ) := by
  induction orderIds with
  | nil => rfl
  | cons orderId orderIds ih =>
    obtain ⟨hid, hids⟩ := List.forall_mem_cons.1 h
    rw [List.flatMap_cons, hid, ih hids]
    rfl

/-- The numbers under a cancellation's key are the orders that an emission cancels. -/
theorem cancelIds_block (h : e.Bounded) :
    keyIds "limit_order_cancelled" (e.block text contract).attributes =
      e.cancels.map fun cancelled => (cancelled.1 : ℤ) := by
  rw [keyIds_block text fieldKey_cancelled]
  cases e with
  | cancel orderId owner =>
    rw [PairEmission.actions, List.flatMap_singleton, keyIds_cancelActionText text h]
    rfl
  | cancelBatch orderIds owner =>
    have hbatch : keyIds "limit_order_cancelled"
        (batchActionText "cancel_limit_orders_batch" orderIds.length).fields = [] := by
      simp [keyIds, wasmAttrValues, batchActionText]
    rw [PairEmission.actions, List.flatMap_cons, hbatch, List.nil_append, List.flatMap_map,
      flatMap_singles fun orderId hid => keyIds_cancelActionText text (h orderId hid),
      PairEmission.cancels, List.map_map]
    rfl
  | swap report bookLeg =>
    rw [PairEmission.actions, List.flatMap_singleton]
    exact (lacks_swapFields text (by simp [Lacks, ownFields]) (by decide)).keyIds
  | book event =>
    obtain ⟨event, stamp⟩ := event
    rw [PairEmission.actions, List.flatMap_singleton]
    cases event with
    | limitOrderFill orderId side maker price token0Amount token1Amount commissionAmount =>
      cases stamp <;> simp [keyIds, wasmAttrValues, bookActionText, PairEmission.cancels]
    | limitOrderExpiredParked orderId maker side remaining reason =>
      cases hforced : reason.isForceExpired <;>
        simp [keyIds, wasmAttrValues, bookActionText, PairEmission.cancels, hforced]
  | place report =>
    simp [PairEmission.actions, PairEmission.cancels, keyIds, wasmAttrValues, rungActionText,
      List.flatMap_map]
  | claim orderId owner =>
    simp [PairEmission.actions, PairEmission.cancels, keyIds, wasmAttrValues, claimActionText]
  | claimBatch orderIds owner =>
    simp [PairEmission.actions, PairEmission.cancels, keyIds, wasmAttrValues, claimActionText,
      batchActionText, List.flatMap_map]
  | clean report =>
    cases hcursor : report.resumeCursor <;>
      simp [PairEmission.actions, PairEmission.cancels, keyIds, wasmAttrValues, hcursor]

/-- The owners that an emission of cancellations writes are those of its orders. -/
theorem cancelOwners_block (h : e.cancels ≠ []) :
    wasmAttrValues (e.block text contract).attributes "owner" =
      e.cancels.map fun cancelled => text cancelled.2 := by
  rw [values_block text fieldKey_owner]
  cases e with
  | cancel orderId owner =>
    simp [PairEmission.actions, PairEmission.cancels, wasmAttrValues, cancelActionText]
  | cancelBatch orderIds owner =>
    have hbatch : wasmAttrValues
        (batchActionText "cancel_limit_orders_batch" orderIds.length).fields "owner" = [] := by
      simp [wasmAttrValues, batchActionText]
    have hone : ∀ orderId : OrderId,
        wasmAttrValues (cancelActionText text owner orderId).fields "owner" = [text owner] := by
      intro orderId
      simp [wasmAttrValues, cancelActionText]
    rw [PairEmission.actions, List.flatMap_cons, hbatch, List.nil_append, List.flatMap_map,
      PairEmission.cancels, List.map_map, List.map_eq_flatMap]
    exact List.flatMap_congr fun orderId _ => hone orderId
  | _ => exact absurd rfl h

theorem not_hasAction_block {name : String} (h : ∀ t ∈ e.actions text, t.name ≠ name) :
    ∀ a ∈ (e.block text contract).attributes, a.hasAction name = false := by
  intro a ha
  rcases List.mem_cons.1 ha with rfl | ha
  · simp [Attribute.hasAction]
  rcases List.mem_append.1 ha with ha | ha
  · exact hasAction_of_not_isAction ((plain_lead contract e).isAction a ha) name
  obtain ⟨t, ht, ha⟩ := List.mem_flatMap.1 ha
  rcases List.mem_cons.1 ha with rfl | ha
  · simpa [Attribute.hasAction] using h t ht
  · exact hasAction_of_not_isAction ((proper_actions text e t ht).plain.isAction a ha) name

theorem readsColumns_none {batch single : String} {attrs : List Attribute}
    (hbatch : ∀ a ∈ attrs, a.hasAction batch = false)
    (hsingle : ∀ a ∈ attrs, a.hasAction single = false) :
    readsColumns batch single attrs = false := by
  have hcount : actionCount attrs single = 0 := by
    unfold actionCount
    rw [List.filter_eq_nil_iff.2, List.length_nil]
    intro a ha
    rw [hsingle a ha]
    exact Bool.false_ne_true
  have hany : attrs.any (fun a => a.hasAction batch) = false := by
    rw [List.any_eq_false]
    intro a ha
    rw [hbatch a ha]
    exact Bool.false_ne_true
  unfold readsColumns
  rw [hany, hcount]
  rfl

/-- An emission pays out exactly the orders whose numbers it writes, or it is not read in
columns. -/
theorem claimIds_block (h : e.Bounded) :
    keyIds "order_id" (e.block text contract).attributes =
        e.claims.map (fun orderId : OrderId => (orderId : ℤ)) ∨
      e.claims = [] ∧ readsColumns "claim_expired_limit_orders_batch" "claim_expired_limit_order"
        (e.block text contract).attributes = false := by
  have hcolumns : (∀ t ∈ e.actions text, t.name ≠ "claim_expired_limit_orders_batch") →
      (∀ t ∈ e.actions text, t.name ≠ "claim_expired_limit_order") →
        readsColumns "claim_expired_limit_orders_batch" "claim_expired_limit_order"
          (e.block text contract).attributes = false :=
    fun hbatch hsingle => readsColumns_none (not_hasAction_block text hbatch)
      (not_hasAction_block text hsingle)
  cases e with
  | claim orderId owner =>
    left
    rw [keyIds_block text fieldKey_orderId, PairEmission.actions, List.flatMap_singleton,
      keyIds_claimActionText text h]
    rfl
  | claimBatch orderIds owner =>
    left
    have hbatch : keyIds "order_id"
        (batchActionText "claim_expired_limit_orders_batch" orderIds.length).fields = [] := by
      simp [keyIds, wasmAttrValues, batchActionText]
    rw [keyIds_block text fieldKey_orderId, PairEmission.actions, List.flatMap_cons, hbatch,
      List.nil_append, List.flatMap_map,
      flatMap_singles fun orderId hid => keyIds_claimActionText text (h orderId hid)]
    rfl
  | book event =>
    obtain ⟨event, stamp⟩ := event
    refine .inr ⟨rfl, hcolumns ?_ ?_⟩ <;> cases event <;>
      simp [PairEmission.actions, bookActionText]
  | swap report bookLeg =>
    exact .inr ⟨rfl, hcolumns (by simp [PairEmission.actions]) (by simp [PairEmission.actions])⟩
  | place report =>
    exact .inr ⟨rfl, hcolumns (by simp [PairEmission.actions, rungActionText])
      (by simp [PairEmission.actions, rungActionText])⟩
  | cancel orderId owner =>
    exact .inr ⟨rfl, hcolumns (by simp [PairEmission.actions, cancelActionText])
      (by simp [PairEmission.actions, cancelActionText])⟩
  | cancelBatch orderIds owner =>
    exact .inr ⟨rfl, hcolumns
      (by simp [PairEmission.actions, cancelActionText, batchActionText])
      (by simp [PairEmission.actions, cancelActionText, batchActionText])⟩
  | clean report =>
    exact .inr ⟨rfl, hcolumns (by simp [PairEmission.actions]) (by simp [PairEmission.actions])⟩

end Emissions

section Streams

variable {text : Addr → String} {pairs : String → Prop} {emissions : List Emission}
  {contract : String}

def Emission.emitter : Emission → String
  | pair contract _ => contract
  | other block => block.contract

/-- What a pair's emission stands for; other contracts' stand for nothing. -/
def Emission.own {α : Type} (f : PairEmission → List α) : Emission → List α
  | pair _ emission => f emission
  | other _ => []

/-- The same, of one pair only. -/
def Emission.ownOf {α : Type} (f : PairEmission → List α) (contract : String) (e : Emission) :
    List α :=
  if e.emitter = contract then e.own f else []

theorem Emission.ownOf_pair {α : Type} (f : PairEmission → List α) (emission : PairEmission) :
    (Emission.pair contract emission).ownOf f contract = f emission :=
  if_pos rfl

def streamOf (text : Addr → String) (emissions : List Emission) : List Attribute :=
  (emittedBlocks text emissions).flatMap Block.attributes

def firstEmitter (emissions : List Emission) : Option String :=
  emissions.head?.map Emission.emitter

theorem firstContract_emitted :
    firstContract (emittedBlocks text emissions) = firstEmitter emissions := by
  cases emissions with
  | nil => rfl
  | cons e rest => cases e <;> rfl

theorem flatMap_ownOf {α : Type} {f : PairEmission → List α}
    (h : ∀ e ∈ emissions, e.Formed pairs) (hpair : pairs contract) :
    (emissionsOf contract emissions).flatMap f = emissions.flatMap (Emission.ownOf f contract) := by
  induction emissions with
  | nil => rfl
  | cons e rest ih =>
    obtain ⟨he, hrest⟩ := List.forall_mem_cons.1 h
    rw [List.flatMap_cons, ← ih hrest]
    rcases @own_or_foreign (fun _ => "") _ _ _ he hpair with
      ⟨emission, rfl, hbounded⟩ | ⟨hc, hforeign⟩
    · rw [emissionsOf_cons_own, List.flatMap_cons, Emission.ownOf_pair]
    · have hcontract : e.emitter ≠ contract := by
        cases e <;> exact hc
      rw [hforeign rest, Emission.ownOf, if_neg hcontract, List.nil_append]

/-- A pair's own rows, when each emission stands for some of the numbers it writes: the numbers of
the stream are the pair's if and only if nothing else writes any. -/
theorem columns_own_iff {α : Type} {f : PairEmission → List α} {number : α → ℤ}
    {ids : Emission → List ℤ}
    (hids : ∀ e ∈ emissions, e.own f ≠ [] → ids e = (e.own f).map number) :
    emissions.flatMap ids = (emissions.flatMap (Emission.ownOf f contract)).map number ↔
      (∀ e ∈ emissions, e.own f ≠ [] → e.emitter = contract) ∧
        ∀ e ∈ emissions, e.own f = [] → ids e = [] := by
  have hle : ∀ e ∈ emissions, ((e.ownOf f contract).map number).length ≤ (ids e).length := by
    intro e he
    by_cases hown : e.own f = []
    · simp [Emission.ownOf, hown]
    · rw [hids e he hown, Emission.ownOf]
      split <;> simp
  rw [List.map_flatMap]
  constructor
  · intro heq
    have hlength := length_eq_of_flatMap hle (congrArg List.length heq)
    constructor
    · intro e he hown
      by_contra hc
      have hsame := hlength e he
      rw [hids e he hown, Emission.ownOf, if_neg hc, List.length_map, List.map_nil,
        List.length_nil, List.length_eq_zero_iff] at hsame
      exact hown hsame
    · intro e he hown
      have hsame := hlength e he
      rw [Emission.ownOf, hown, ite_self, List.map_nil, List.length_nil,
        List.length_eq_zero_iff] at hsame
      exact hsame
  · rintro ⟨hfirst, hnone⟩
    refine List.flatMap_congr fun e he => ?_
    by_cases hown : e.own f = []
    · rw [hnone e he hown, Emission.ownOf, hown, ite_self, List.map_nil]
    · rw [hids e he hown, Emission.ownOf, if_pos (hfirst e he hown)]

theorem keyIds_stream (key : String) : keyIds key (streamOf text emissions) =
    emissions.flatMap fun e => keyIds key (e.block text).attributes := by
  unfold streamOf emittedBlocks
  rw [keyIds_flatMap, List.flatMap_map]

/-- Other pairs than the first emitter stand for nothing, if no emission but its own does. -/
theorem foreign_own {α : Type} {f : PairEmission → List α} {first : String}
    (hfirst : ∀ e ∈ emissions, e.own f ≠ [] → e.emitter = first) (hc : contract ≠ first) :
    emissions.flatMap (Emission.ownOf f contract) = [] := by
  rw [List.flatMap_eq_nil_iff]
  intro e he
  unfold Emission.ownOf
  split
  · rename_i hcontract
    by_contra hown
    exact hc (hcontract ▸ hfirst e he hown)
  · rfl

/-- If each other pair stands for nothing, only the first emitter's emissions stand for
something. -/
theorem own_first {α : Type} {f : PairEmission → List α} {first : String}
    (h : ∀ e ∈ emissions, e.Formed pairs)
    (hnone : ∀ c, pairs c → c ≠ first → emissions.flatMap (Emission.ownOf f c) = []) :
    ∀ e ∈ emissions, e.own f ≠ [] → e.emitter = first := by
  intro e he hown
  cases e with
  | pair c emission =>
    by_contra hc
    have hnil := List.flatMap_eq_nil_iff.1 (hnone c (h _ he).1 hc) _ he
    rw [Emission.ownOf_pair] at hnil
    exact hown hnil
  | other block => exact absurd rfl hown

/-- Rows of one contract are what each pair's emissions stand for if and only if no other pair's
stand for anything and, where that contract is a pair, they are its own. -/
theorem rows_of_first_iff {α β : Type} {pairOf : α → String} {rows : List α} {first : String}
    {rowsOf : String → PairEmission → List α} {f : PairEmission → List β}
    (hnames : ∀ row ∈ rows, pairOf row = first) (hrows : ∀ c e, rowsOf c e = [] ↔ f e = [])
    (h : ∀ e ∈ emissions, e.Formed pairs) :
    (∀ c, pairs c → rows.filter (fun row => pairOf row = c) =
        (emissionsOf c emissions).flatMap (rowsOf c)) ↔
      (∀ e ∈ emissions, e.own f ≠ [] → e.emitter = first) ∧
        (pairs first → rows = (emissionsOf first emissions).flatMap (rowsOf first)) := by
  have hself : rows.filter (fun row => pairOf row = first) = rows :=
    List.filter_eq_self.2 fun row hrow => decide_eq_true (hnames row hrow)
  have hforeign : ∀ c, c ≠ first → rows.filter (fun row => pairOf row = c) = [] := by
    intro c hc
    rw [List.filter_eq_nil_iff]
    intro row hrow
    rw [decide_eq_true_iff, hnames row hrow]
    exact Ne.symm hc
  have hnone : ∀ c, (emissionsOf c emissions).flatMap (rowsOf c) = [] ↔
      (emissionsOf c emissions).flatMap f = [] := by
    intro c
    simp only [List.flatMap_eq_nil_iff, hrows]
  constructor
  · intro hexact
    constructor
    · refine own_first h fun c hpair hc => ?_
      rw [← flatMap_ownOf h hpair, ← hnone, ← hexact c hpair]
      exact hforeign c hc
    · intro hpair
      rw [← hexact first hpair, hself]
  · rintro ⟨hown, hfirst⟩ c hpair
    by_cases hc : c = first
    · subst hc
      rw [hself]
      exact hfirst hpair
    · rw [hforeign c hc, eq_comm, hnone, flatMap_ownOf h hpair]
      exact foreign_own hown hc

end Streams

section Cancellations

/-- The owner that a column gives a row. -/
def columnOwner (owners : List String) (i : ℕ) : Option String := owners[i]?.or owners.head?

def cancelColumns (contract : String) (attrs : List Attribute) :
    List ParsedLimitOrderCancellation :=
  (keyIds "limit_order_cancelled" attrs).zipIdx.map fun entry =>
    ⟨contract, entry.1, columnOwner (wasmAttrValues attrs "owner") entry.2⟩

def cancelsInColumns (attrs : List Attribute) : Prop :=
  InColumns "cancel_limit_orders_batch" "cancel_limit_order" "limit_order_cancelled" attrs

variable (text : Addr → String) {pairs : String → Prop} {emissions : List Emission}
  {contract : String} {l : List Block} {tx : TxResponse}

/-- Each order's owner is the one that the column gives its row. -/
def OwnersAligned (owners : List String) (cancelled : List (OrderId × Addr)) : Prop :=
  ∀ i x, cancelled[i]? = some x → columnOwner owners i = some (text x.2)

theorem cancellationRow_contract {act : WasmAction} {row : ParsedLimitOrderCancellation}
    (h : cancellationRow act = some row) : row.pairAddress = act.contract := by
  unfold cancellationRow at h
  split at h
  · cases h
  · simp only [bind, Option.bind_eq_some_iff, pure] at h
    obtain ⟨_, _, hrow⟩ := h
    rw [← Option.some.inj hrow]

theorem cancellations_rows (h : ∀ b ∈ l, b.Unreserved)
    (hcolumns : ¬ cancelsInColumns (l.flatMap Block.attributes)) :
    parseLimitOrderCancellationsFromWasmAttrs (l.flatMap Block.attributes) =
      l.flatMap (Block.actionRows cancellationRow) := by
  unfold parseLimitOrderCancellationsFromWasmAttrs parseLimitOrderCancellationsColumnar
  rw [wholeEventIds_none hcolumns, Option.map_none, Option.getD_none, wasmActions_blocks h,
    filterMap_blockActions unplaced_cancellationRow]

theorem cancellations_columns (hfirst : firstContract l = some contract)
    (hcolumns : cancelsInColumns (l.flatMap Block.attributes)) :
    parseLimitOrderCancellationsFromWasmAttrs (l.flatMap Block.attributes) =
      cancelColumns contract (l.flatMap Block.attributes) := by
  unfold parseLimitOrderCancellationsFromWasmAttrs parseLimitOrderCancellationsColumnar
  rw [wholeEventIds_some hfirst hcolumns, Option.map_some, Option.getD_some]
  rfl

/-- Columns read as given orders if and only if they hold their numbers and their owners. -/
theorem cancelColumns_iff {attrs : List Attribute} {cancelled : List (OrderId × Addr)} :
    cancelColumns contract attrs =
        cancelled.map (fun x => ⟨contract, x.1, some (text x.2)⟩) ↔
      keyIds "limit_order_cancelled" attrs = cancelled.map (fun x => (x.1 : ℤ)) ∧
        OwnersAligned text (wasmAttrValues attrs "owner") cancelled := by
  unfold cancelColumns
  constructor
  · intro heq
    have hnumbers : keyIds "limit_order_cancelled" attrs = cancelled.map fun x => (x.1 : ℤ) := by
      have hmap := congrArg (List.map ParsedLimitOrderCancellation.orderId) heq
      rw [List.map_map, List.map_map] at hmap
      have hleft : (keyIds "limit_order_cancelled" attrs).zipIdx.map Prod.fst = _ := hmap
      rwa [List.zipIdx_map_fst] at hleft
    refine ⟨hnumbers, fun i x hx => ?_⟩
    have hat := congrArg (fun rows => rows[i]?.map ParsedLimitOrderCancellation.owner) heq
    simp only [List.getElem?_map, List.getElem?_zipIdx, hnumbers, hx, Option.map_some,
      Nat.zero_add] at hat
    exact Option.some.inj hat
  · rintro ⟨hnumbers, howners⟩
    refine List.ext_getElem? fun i => ?_
    rw [List.getElem?_map, List.getElem?_map, List.getElem?_zipIdx, hnumbers, List.getElem?_map]
    cases hx : cancelled[i]? with
    | none => rfl
    | some x =>
      have howner := howners i x hx
      simp only [Option.map_some, Nat.zero_add, howner]

/-- A pair's emission on its own reads as the orders that it cancels. -/
theorem cancellations_pair {e : PairEmission} (h : e.Bounded) :
    parseLimitOrderCancellationsFromWasmAttrs (e.block text contract).attributes =
      e.cancellationRows text contract := by
  have hstream : (e.block text contract).attributes =
      [e.block text contract].flatMap Block.attributes := by
    rw [List.flatMap_singleton]
  by_cases hcolumns : cancelsInColumns (e.block text contract).attributes
  · have hids := @cancelIds_block text e contract h
    have hcancels : e.cancels ≠ [] := by
      intro hnil
      rw [hnil] at hids
      exact hcolumns.2 hids
    rw [hstream] at hcolumns ⊢
    rw [@cancellations_columns contract _ rfl hcolumns, ← hstream]
    refine (cancelColumns_iff text).2 ⟨hids, fun i x hx => ?_⟩
    rw [cancelOwners_block text hcancels, columnOwner, List.getElem?_map, hx]
    rfl
  · rw [hstream] at hcolumns ⊢
    rw [cancellations_rows (by simpa using unreserved_block text contract e) hcolumns,
      List.flatMap_singleton]
    exact cancellationRows_block text h

theorem cancellations_contract (b : Block) (hb : b.Unreserved) :
    ∀ row ∈ parseLimitOrderCancellationsFromWasmAttrs b.attributes,
      row.pairAddress = b.contract := by
  have hstream : b.attributes = [b].flatMap Block.attributes := by
    rw [List.flatMap_singleton]
  by_cases hcolumns : cancelsInColumns b.attributes
  · rw [hstream] at hcolumns ⊢
    rw [@cancellations_columns b.contract _ rfl hcolumns]
    intro row hrow
    obtain ⟨entry, _, rfl⟩ := List.mem_map.1 hrow
    rfl
  · rw [hstream] at hcolumns ⊢
    rw [cancellations_rows (by simpa using hb) hcolumns, List.flatMap_singleton]
    exact actionRows_contract (fun _ _ => cancellationRow_contract) b

theorem separate_rows {α : Type} {parse : List Attribute → List α}
    (h : Separate text emissions tx) :
    ((tx.allEvents.filter Event.isLifecycle).flatMap fun event => parse event.attributes) =
      (emittedBlocks text emissions).flatMap fun b => parse b.attributes := by
  unfold Separate at h
  rw [h, filter_lifecycle, List.flatMap_map]

theorem flattened_rows {α : Type} {parse : List Attribute → List α}
    (h : Flattened text emissions tx) :
    ((tx.allEvents.filter Event.isLifecycle).flatMap fun event => parse event.attributes) =
      parse (streamOf text emissions) := by
  unfold Flattened at h
  rw [h, List.filter_cons_of_pos (isLifecycle_wasm _), List.filter_nil, List.flatMap_singleton]
  rfl

theorem parseLimitOrderCancellations_separate (h : ∀ e ∈ emissions, e.Formed pairs)
    (hpair : pairs contract) (hdelivery : Separate text emissions tx) :
    (parseLimitOrderCancellations tx).filter (fun row => row.pairAddress = contract) =
      (emissionsOf contract emissions).flatMap (PairEmission.cancellationRows text contract) := by
  unfold parseLimitOrderCancellations
  rw [separate_rows text hdelivery]
  exact @filter_blockRows text pairs emissions contract _
    ParsedLimitOrderCancellation.pairAddress _ _ cancellations_contract
    (fun e he => cancellations_pair text he) h hpair

/-- Where the whole event is read in columns, only its first emitter cancelled anything; if that is
a pair, no other contract writes the number of an order under the key of cancellations, and the
owners in the event are those of the cancelled orders. -/
def CancelsAligned (pairs : String → Prop) (emissions : List Emission) : Prop :=
  cancelsInColumns (streamOf text emissions) → ∀ first, firstEmitter emissions = some first →
    (∀ e ∈ emissions, e.own PairEmission.cancels ≠ [] → e.emitter = first) ∧
      (pairs first →
        (∀ e ∈ emissions, e.own PairEmission.cancels = [] →
          keyIds "limit_order_cancelled" (e.block text).attributes = []) ∧
        OwnersAligned text (wasmAttrValues (streamOf text emissions) "owner")
          ((emissionsOf first emissions).flatMap PairEmission.cancels))

theorem ids_of_cancels (h : ∀ e ∈ emissions, e.Formed pairs) :
    ∀ e ∈ emissions, e.own PairEmission.cancels ≠ [] →
      keyIds "limit_order_cancelled" (e.block text).attributes =
        (e.own PairEmission.cancels).map fun x => (x.1 : ℤ) := by
  intro e he hown
  cases e with
  | pair c emission => exact cancelIds_block text (h _ he).2
  | other block => exact absurd rfl hown

theorem cancellationRows_flatMap : (emissionsOf contract emissions).flatMap
    (PairEmission.cancellationRows text contract) =
      ((emissionsOf contract emissions).flatMap PairEmission.cancels).map
        fun x => ⟨contract, x.1, some (text x.2)⟩ := by
  rw [List.map_flatMap]
  rfl

/-- The cancellations of a flattened transaction are those of each pair exactly when its columns
are aligned. -/
theorem parseLimitOrderCancellations_flattened (h : ∀ e ∈ emissions, e.Formed pairs)
    (hdelivery : Flattened text emissions tx) :
    (∀ contract, pairs contract →
      (parseLimitOrderCancellations tx).filter (fun row => row.pairAddress = contract) =
        (emissionsOf contract emissions).flatMap (PairEmission.cancellationRows text contract)) ↔
      CancelsAligned text pairs emissions := by
  have hblocks := @unreserved_blocks text _ _ h
  unfold parseLimitOrderCancellations CancelsAligned
  rw [flattened_rows text hdelivery]
  by_cases hcolumns : cancelsInColumns (streamOf text emissions)
  swap
  · refine ⟨fun _ hc => absurd hc hcolumns, fun _ contract hpair => ?_⟩
    unfold streamOf at hcolumns ⊢
    rw [cancellations_rows hblocks hcolumns]
    exact @filter_blockRows text pairs emissions contract _
      ParsedLimitOrderCancellation.pairAddress _ _
      (fun b _ => actionRows_contract (fun _ _ => cancellationRow_contract) b)
      (fun e he => cancellationRows_block text he) h hpair
  cases hfirst : firstEmitter emissions with
  | none =>
    cases emissions with
    | nil => exact absurd rfl hcolumns.2
    | cons e rest => cases hfirst
  | some first =>
    have hrows : parseLimitOrderCancellationsFromWasmAttrs (streamOf text emissions) =
        cancelColumns first (streamOf text emissions) :=
      cancellations_columns (firstContract_emitted.trans hfirst) hcolumns
    have hnames : ∀ row ∈ cancelColumns first (streamOf text emissions),
        row.pairAddress = first := by
      intro row hrow
      obtain ⟨entry, _, rfl⟩ := List.mem_map.1 hrow
      rfl
    have hnumbers := @columns_own_iff emissions first _ PairEmission.cancels
      (fun x => (x.1 : ℤ)) _ (ids_of_cancels text h)
    have hfirstRows := @rows_of_first_iff pairs emissions _ _
      ParsedLimitOrderCancellation.pairAddress _ first (PairEmission.cancellationRows text)
      PairEmission.cancels hnames (fun _ _ => List.map_eq_nil_iff) h
    rw [hrows, hfirstRows]
    have hown : pairs first → (cancelColumns first (streamOf text emissions) =
        (emissionsOf first emissions).flatMap (PairEmission.cancellationRows text first) ↔
          ((∀ e ∈ emissions, e.own PairEmission.cancels ≠ [] → e.emitter = first) ∧
            ∀ e ∈ emissions, e.own PairEmission.cancels = [] →
              keyIds "limit_order_cancelled" (e.block text).attributes = []) ∧
          OwnersAligned text (wasmAttrValues (streamOf text emissions) "owner")
            ((emissionsOf first emissions).flatMap PairEmission.cancels)) := by
      intro hpair
      rw [cancellationRows_flatMap, cancelColumns_iff text, keyIds_stream,
        ← hnumbers, flatMap_ownOf h hpair]
    constructor
    · rintro ⟨hfirstOnly, hpairs⟩ _ first' hfirst'
      obtain rfl := Option.some.inj hfirst'
      refine ⟨hfirstOnly, fun hpair => ?_⟩
      obtain ⟨⟨_, hnone⟩, howners⟩ := (hown hpair).1 (hpairs hpair)
      exact ⟨hnone, howners⟩
    · intro haligned
      obtain ⟨hfirstOnly, hpairs⟩ := haligned hcolumns first rfl
      refine ⟨hfirstOnly, fun hpair => (hown hpair).2 ?_⟩
      exact ⟨⟨hfirstOnly, (hpairs hpair).1⟩, (hpairs hpair).2⟩

end Cancellations

section Claims

def claimColumns (contract : String) (attrs : List Attribute) :
    List ParsedClaimExpiredLimitOrder :=
  (keyIds "order_id" attrs).map fun orderId => ⟨contract, orderId⟩

def claimsInColumns (attrs : List Attribute) : Prop :=
  InColumns "claim_expired_limit_orders_batch" "claim_expired_limit_order" "order_id" attrs

variable (text : Addr → String) {pairs : String → Prop} {emissions : List Emission}
  {contract : String} {l : List Block} {tx : TxResponse}

theorem claimRow_contract {act : WasmAction} {row : ParsedClaimExpiredLimitOrder}
    (h : claimRow act = some row) : row.pairAddress = act.contract := by
  unfold claimRow at h
  split at h
  · cases h
  · simp only [bind, Option.bind_eq_some_iff, pure] at h
    obtain ⟨_, _, hrow⟩ := h
    rw [← Option.some.inj hrow]

theorem claims_rows (h : ∀ b ∈ l, b.Unreserved)
    (hcolumns : ¬ claimsInColumns (l.flatMap Block.attributes)) :
    parseClaimExpiredLimitOrdersFromWasmAttrs (l.flatMap Block.attributes) =
      l.flatMap (Block.actionRows claimRow) := by
  unfold parseClaimExpiredLimitOrdersFromWasmAttrs parseClaimExpiredLimitOrdersColumnar
  rw [wholeEventIds_none hcolumns, Option.map_none, Option.getD_none, wasmActions_blocks h,
    filterMap_blockActions unplaced_claimRow]

theorem claims_columns (hfirst : firstContract l = some contract)
    (hcolumns : claimsInColumns (l.flatMap Block.attributes)) :
    parseClaimExpiredLimitOrdersFromWasmAttrs (l.flatMap Block.attributes) =
      claimColumns contract (l.flatMap Block.attributes) := by
  unfold parseClaimExpiredLimitOrdersFromWasmAttrs parseClaimExpiredLimitOrdersColumnar
  rw [wholeEventIds_some hfirst hcolumns, Option.map_some, Option.getD_some]
  rfl

theorem claimColumns_iff {attrs : List Attribute} {claimed : List OrderId} :
    claimColumns contract attrs = claimed.map (fun orderId : OrderId => ⟨contract, orderId⟩) ↔
      keyIds "order_id" attrs = claimed.map fun orderId : OrderId => (orderId : ℤ) := by
  unfold claimColumns
  constructor
  · intro heq
    have hmap := congrArg (List.map ParsedClaimExpiredLimitOrder.orderId) heq
    rw [List.map_map, List.map_map] at hmap
    have hleft : (keyIds "order_id" attrs).map id = _ := hmap
    rwa [List.map_id] at hleft
  · intro hnumbers
    rw [hnumbers, List.map_map]
    rfl

theorem claims_pair {e : PairEmission} (h : e.Bounded) :
    parseClaimExpiredLimitOrdersFromWasmAttrs (e.block text contract).attributes =
      e.claimRows contract := by
  have hstream : (e.block text contract).attributes =
      [e.block text contract].flatMap Block.attributes := by
    rw [List.flatMap_singleton]
  by_cases hcolumns : claimsInColumns (e.block text contract).attributes
  · rcases @claimIds_block text e contract h with hids | ⟨_, hreads⟩
    · rw [hstream] at hcolumns ⊢
      rw [@claims_columns contract _ rfl hcolumns, ← hstream]
      exact claimColumns_iff.2 hids
    · exact absurd hcolumns.1 (by rw [hreads]; exact Bool.false_ne_true)
  · rw [hstream] at hcolumns ⊢
    rw [claims_rows (by simpa using unreserved_block text contract e) hcolumns,
      List.flatMap_singleton]
    exact claimRows_block text h

theorem claims_contract (b : Block) (hb : b.Unreserved) :
    ∀ row ∈ parseClaimExpiredLimitOrdersFromWasmAttrs b.attributes,
      row.pairAddress = b.contract := by
  have hstream : b.attributes = [b].flatMap Block.attributes := by
    rw [List.flatMap_singleton]
  by_cases hcolumns : claimsInColumns b.attributes
  · rw [hstream] at hcolumns ⊢
    rw [@claims_columns b.contract _ rfl hcolumns]
    intro row hrow
    obtain ⟨orderId, _, rfl⟩ := List.mem_map.1 hrow
    rfl
  · rw [hstream] at hcolumns ⊢
    rw [claims_rows (by simpa using hb) hcolumns, List.flatMap_singleton]
    exact actionRows_contract (fun _ _ => claimRow_contract) b

theorem parseClaimExpiredLimitOrders_separate (h : ∀ e ∈ emissions, e.Formed pairs)
    (hpair : pairs contract) (hdelivery : Separate text emissions tx) :
    (parseClaimExpiredLimitOrders tx).filter (fun row => row.pairAddress = contract) =
      (emissionsOf contract emissions).flatMap (PairEmission.claimRows contract) := by
  unfold parseClaimExpiredLimitOrders
  rw [separate_rows text hdelivery]
  exact @filter_blockRows text pairs emissions contract _
    ParsedClaimExpiredLimitOrder.pairAddress _ _ claims_contract
    (fun e he => claims_pair text he) h hpair

/-- Where the whole event is read in columns, only its first emitter paid out anything; if that is
a pair, nothing else writes the number of an order: no fill, park or placement of any pair, and no
other contract. -/
def ClaimsAligned (pairs : String → Prop) (emissions : List Emission) : Prop :=
  claimsInColumns (streamOf text emissions) → ∀ first, firstEmitter emissions = some first →
    (∀ e ∈ emissions, e.own PairEmission.claims ≠ [] → e.emitter = first) ∧
      (pairs first → ∀ e ∈ emissions, e.own PairEmission.claims = [] →
        keyIds "order_id" (e.block text).attributes = [])

theorem ids_of_claims (h : ∀ e ∈ emissions, e.Formed pairs) :
    ∀ e ∈ emissions, e.own PairEmission.claims ≠ [] →
      keyIds "order_id" (e.block text).attributes =
        (e.own PairEmission.claims).map fun orderId : OrderId => (orderId : ℤ) := by
  intro e he hown
  cases e with
  | pair c emission =>
    rcases @claimIds_block text emission c (h _ he).2 with hids | ⟨hnone, _⟩
    · exact hids
    · exact absurd hnone hown
  | other block => exact absurd rfl hown

theorem claimRows_flatMap : (emissionsOf contract emissions).flatMap
    (PairEmission.claimRows contract) =
      ((emissionsOf contract emissions).flatMap PairEmission.claims).map
        fun orderId : OrderId => ⟨contract, orderId⟩ := by
  rw [List.map_flatMap]
  rfl

/-- The claims of a flattened transaction are those of each pair exactly when its columns are
aligned. -/
theorem parseClaimExpiredLimitOrders_flattened (h : ∀ e ∈ emissions, e.Formed pairs)
    (hdelivery : Flattened text emissions tx) :
    (∀ contract, pairs contract →
      (parseClaimExpiredLimitOrders tx).filter (fun row => row.pairAddress = contract) =
        (emissionsOf contract emissions).flatMap (PairEmission.claimRows contract)) ↔
      ClaimsAligned text pairs emissions := by
  have hblocks := @unreserved_blocks text _ _ h
  unfold parseClaimExpiredLimitOrders ClaimsAligned
  rw [flattened_rows text hdelivery]
  by_cases hcolumns : claimsInColumns (streamOf text emissions)
  swap
  · refine ⟨fun _ hc => absurd hc hcolumns, fun _ contract hpair => ?_⟩
    unfold streamOf at hcolumns ⊢
    rw [claims_rows hblocks hcolumns]
    exact @filter_blockRows text pairs emissions contract _
      ParsedClaimExpiredLimitOrder.pairAddress _ _
      (fun b _ => actionRows_contract (fun _ _ => claimRow_contract) b)
      (fun e he => claimRows_block text he) h hpair
  cases hfirst : firstEmitter emissions with
  | none =>
    cases emissions with
    | nil => exact absurd rfl hcolumns.2
    | cons e rest => cases hfirst
  | some first =>
    have hrows : parseClaimExpiredLimitOrdersFromWasmAttrs (streamOf text emissions) =
        claimColumns first (streamOf text emissions) :=
      claims_columns (firstContract_emitted.trans hfirst) hcolumns
    have hnames : ∀ row ∈ claimColumns first (streamOf text emissions),
        row.pairAddress = first := by
      intro row hrow
      obtain ⟨orderId, _, rfl⟩ := List.mem_map.1 hrow
      rfl
    have hnumbers := @columns_own_iff emissions first _ PairEmission.claims
      (fun orderId : OrderId => (orderId : ℤ)) _ (ids_of_claims text h)
    have hfirstRows := @rows_of_first_iff pairs emissions _ _
      ParsedClaimExpiredLimitOrder.pairAddress _ first PairEmission.claimRows
      PairEmission.claims hnames (fun _ _ => List.map_eq_nil_iff) h
    rw [hrows, hfirstRows]
    have hown : pairs first → (claimColumns first (streamOf text emissions) =
        (emissionsOf first emissions).flatMap (PairEmission.claimRows first) ↔
          (∀ e ∈ emissions, e.own PairEmission.claims ≠ [] → e.emitter = first) ∧
            ∀ e ∈ emissions, e.own PairEmission.claims = [] →
              keyIds "order_id" (e.block text).attributes = []) := by
      intro hpair
      rw [claimRows_flatMap, claimColumns_iff, keyIds_stream, ← hnumbers, flatMap_ownOf h hpair]
    constructor
    · rintro ⟨hfirstOnly, hpairs⟩ _ first' hfirst'
      obtain rfl := Option.some.inj hfirst'
      exact ⟨hfirstOnly, fun hpair => ((hown hpair).1 (hpairs hpair)).2⟩
    · intro haligned
      obtain ⟨hfirstOnly, hpairs⟩ := haligned hcolumns first rfl
      exact ⟨hfirstOnly, fun hpair => (hown hpair).2 ⟨hfirstOnly, hpairs hpair⟩⟩

end Claims

section Decoding

variable (text : Addr → String)

/-- The rows of a pair are exactly those of what it emitted, for all six parsers. -/
structure Decodes (emissions : List Emission) (tx : TxResponse) (contract : String) : Prop where
  swaps : (parseSwaps tx).filter (fun row => row.pairAddress = contract) =
    swapRowsFrom text contract 0 (emissionsOf contract emissions)
  fills : (parseLimitOrderFills tx).filter (fun row => row.pairAddress = contract) =
    (emissionsOf contract emissions).flatMap (PairEmission.fillRows text contract)
  placements : (parseLimitOrderPlacements tx).filter (fun row => row.pairAddress = contract) =
    (emissionsOf contract emissions).flatMap (PairEmission.placementRows text contract)
  cancellations :
    (parseLimitOrderCancellations tx).filter (fun row => row.pairAddress = contract) =
      (emissionsOf contract emissions).flatMap (PairEmission.cancellationRows text contract)
  parks : (parseLimitOrderExpiredParked tx).filter (fun row => row.pairAddress = contract) =
    (emissionsOf contract emissions).flatMap (PairEmission.parkedRows contract)
  claims : (parseClaimExpiredLimitOrders tx).filter (fun row => row.pairAddress = contract) =
    (emissionsOf contract emissions).flatMap (PairEmission.claimRows contract)

variable {text} {pairs : String → Prop} {emissions : List Emission} {tx flat : TxResponse}

/-- Both deliveries decode to what each pair emitted if and only if the columns of the flattened
one are aligned. -/
theorem lifecycle_decodes_iff (h : ∀ e ∈ emissions, e.Formed pairs)
    (hseparate : Separate text emissions tx) (hflat : Flattened text emissions flat) :
    (∀ contract, pairs contract →
      Decodes text emissions tx contract ∧ Decodes text emissions flat contract) ↔
      CancelsAligned text pairs emissions ∧ ClaimsAligned text pairs emissions := by
  constructor
  · intro hexact
    exact ⟨(parseLimitOrderCancellations_flattened text h hflat).1 fun contract hpair =>
        (hexact contract hpair).2.cancellations,
      (parseClaimExpiredLimitOrders_flattened text h hflat).1 fun contract hpair =>
        (hexact contract hpair).2.claims⟩
  · rintro ⟨hcancels, hclaims⟩ contract hpair
    constructor
    · exact {
        swaps := parseSwaps_eq text h hpair (.inl hseparate)
        fills := parseLimitOrderFills_eq text h hpair (.inl hseparate)
        placements := parseLimitOrderPlacements_eq text h hpair (.inl hseparate)
        cancellations := parseLimitOrderCancellations_separate text h hpair hseparate
        parks := parseLimitOrderExpiredParked_eq text h hpair (.inl hseparate)
        claims := parseClaimExpiredLimitOrders_separate text h hpair hseparate }
    · exact {
        swaps := parseSwaps_eq text h hpair (.inr hflat)
        fills := parseLimitOrderFills_eq text h hpair (.inr hflat)
        placements := parseLimitOrderPlacements_eq text h hpair (.inr hflat)
        cancellations :=
          (parseLimitOrderCancellations_flattened text h hflat).2 hcancels contract hpair
        parks := parseLimitOrderExpiredParked_eq text h hpair (.inr hflat)
        claims := (parseClaimExpiredLimitOrders_flattened text h hflat).2 hclaims contract hpair }

/-- A batch of cancellations on one pair, and a claim on another. -/
def alignedEmissions : List Emission :=
  [.pair "left" (.cancelBatch [7, 8] 1), .pair "right" (.claim 9 2)]

def ownerText (owner : Addr) : String := if owner = 1 then "first" else "second"

def isSamplePair (contract : String) : Prop := contract = "left" ∨ contract = "right"

def separateTx (emissions : List Emission) : TxResponse where
  logs := none
  events := some ((emittedBlocks ownerText emissions).map fun b => ⟨"wasm", b.attributes⟩)

def flatTx (emissions : List Emission) : TxResponse where
  logs := none
  events := some [⟨"wasm", streamOf ownerText emissions⟩]

theorem separateTx_separate (emissions : List Emission) :
    Separate ownerText emissions (separateTx emissions) := rfl

theorem flatTx_flattened (emissions : List Emission) :
    Flattened ownerText emissions (flatTx emissions) := rfl

theorem alignedEmissions_formed : ∀ e ∈ alignedEmissions, e.Formed isSamplePair := by
  simp [alignedEmissions, Emission.Formed, isSamplePair, PairEmission.Bounded]

theorem lifecycle_decodes_sample :
    Decodes ownerText alignedEmissions (separateTx alignedEmissions) "right" ∧
      Decodes ownerText alignedEmissions (flatTx alignedEmissions) "right" := by
  have hcancels : CancelsAligned ownerText isSamplePair alignedEmissions := by
    intro _ first hfirst
    obtain rfl : "left" = first := Option.some.inj hfirst
    refine ⟨by simp [alignedEmissions, Emission.own, PairEmission.cancels, Emission.emitter],
      fun _ => ⟨?_, ?_⟩⟩
    · simp [alignedEmissions, Emission.own, PairEmission.cancels, Emission.block,
        PairEmission.block, PairEmission.attributes, PairEmission.lead, PairEmission.actions,
        Block.attributes, keyIds, wasmAttrValues, ActionText.attributes, claimActionText]
    · intro i x hx
      rcases i with _ | _ | i
      · obtain rfl : ((7, 1) : OrderId × Addr) = x := Option.some.inj hx
        decide +kernel
      · obtain rfl : ((8, 1) : OrderId × Addr) = x := Option.some.inj hx
        decide +kernel
      · cases hx
  have hclaims : ClaimsAligned ownerText isSamplePair alignedEmissions := by
    intro hcolumns
    have hreads : readsColumns "claim_expired_limit_orders_batch" "claim_expired_limit_order"
        (streamOf ownerText alignedEmissions) = false := by
      decide +kernel
    exact absurd hcolumns.1 (by rw [hreads]; exact Bool.false_ne_true)
  exact (lifecycle_decodes_iff alignedEmissions_formed (separateTx_separate _)
    (flatTx_flattened _)).2 ⟨hcancels, hclaims⟩ "right" (.inr rfl)

/-- Two pairs that cancel one order each. -/
def cancelsOfTwo : List Emission := [.pair "left" (.cancel 7 1), .pair "right" (.cancel 9 2)]

/-- The flattened event gives the second pair's cancellation to the first pair. -/
theorem lifecycle_not_decoded : ¬ ∀ (text : Addr → String) (pairs : String → Prop)
    (emissions : List Emission) (tx flat : TxResponse), (∀ e ∈ emissions, e.Formed pairs) →
      Separate text emissions tx → Flattened text emissions flat → ∀ contract, pairs contract →
        Decodes text emissions tx contract ∧ Decodes text emissions flat contract := by
  intro hclaim
  have hformed : ∀ e ∈ cancelsOfTwo, e.Formed isSamplePair := by
    simp [cancelsOfTwo, Emission.Formed, isSamplePair, PairEmission.Bounded]
  have hexact := hclaim ownerText isSamplePair cancelsOfTwo (separateTx cancelsOfTwo)
    (flatTx cancelsOfTwo) hformed (separateTx_separate _) (flatTx_flattened _)
  have haligned := (parseLimitOrderCancellations_flattened ownerText hformed
    (flatTx_flattened _)).1 fun contract hpair => (hexact contract hpair).2.cancellations
  have hcolumns : cancelsInColumns (streamOf ownerText cancelsOfTwo) := by
    refine ⟨by decide +kernel, ?_⟩
    rw [keyIds_stream, cancelsOfTwo, List.flatMap_cons]
    intro hnil
    have hhead := (List.append_eq_nil_iff.1 hnil).1
    have hbounded : (PairEmission.cancel 7 1).Bounded := show 7 < 2 ^ 63 by decide
    rw [Emission.block, cancelIds_block ownerText hbounded] at hhead
    cases hhead
  have hsecond := (haligned hcolumns "left" rfl).1 (.pair "right" (.cancel 9 2))
    (by simp [cancelsOfTwo]) (by simp [Emission.own, PairEmission.cancels])
  have hnames : ("right" : String) ≠ "left" := by decide
  exact hnames hsecond

end Decoding

end Cl8yDex.WasmEvents
