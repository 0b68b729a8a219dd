import Mathlib.Data.List.Basic

/-!
# Attributes of a transaction's events

The attributes of an event in wire order, with the actions among them. The fields of an action
are the attributes after it up to the next action or the next emitter, and its emitter is the
last one before it.
-/

namespace Cl8yDex.WasmEvents

structure Attribute where
  key : String
  value : String
  deriving DecidableEq

structure Event where
  eventType : String
  attributes : List Attribute

/-- The logs of a transaction, one list of events for each message, or its events. -/
structure TxResponse where
  logs : Option (List (List Event))
  events : Option (List Event)

def TxResponse.allEvents (tx : TxResponse) : List Event :=
  match tx.logs, tx.events with
  | some logs, _ => logs.flatten
  | none, some events => events
  | none, none => []

def Event.isWasm (event : Event) : Bool := event.eventType = "wasm"

/-- `is_wasm_lifecycle_event_type`. -/
def Event.isLifecycle (event : Event) : Bool :=
  event.eventType = "wasm" || event.eventType = "wasm-wasm"

namespace Attribute

/-- The key that only the runtime writes. -/
def isContractAddr (a : Attribute) : Bool := a.key = "_contract_address"

def isAction (a : Attribute) : Bool := a.key = "action"

def hasAction (action : String) (a : Attribute) : Bool := a.key = "action" && a.value = action

/-- Where the fields of an action end. -/
def isBoundary (a : Attribute) : Bool := a.isAction || a.isContractAddr

end Attribute

/-- The fields of an action. -/
abbrev Segment := List Attribute

/-- The value of a field: the last one under its key. -/
def Segment.get (segment : Segment) (key : String) : Option String :=
  (segment.reverse.find? fun a => a.key = key).map Attribute.value

/-- The last emitter of the attributes before a position. -/
def wasmContractAddrBefore (before : List Attribute) : Option String :=
  (before.reverse.find? Attribute.isContractAddr).map Attribute.value

/-- The fields after an action. -/
def wasmKvMapAfterAction (rest : List Attribute) : Segment := rest.takeWhile fun a => !a.isBoundary

structure WasmAction where
  position : ℕ
  action : String
  contract : String
  segment : Segment

/-- The actions among the attributes that follow these. The emitter that `wasm_actions` carries
along is the one that `wasm_contract_addr_before` looks for. -/
def wasmActionsFrom (before : List Attribute) : List Attribute → List WasmAction
  | [] => []
  | a :: rest =>
    let later := wasmActionsFrom (before ++ [a]) rest
    if a.isAction then
      match wasmContractAddrBefore before with
      | some contract => ⟨before.length, a.value, contract, wasmKvMapAfterAction rest⟩ :: later
      | none => later
    else later

def wasmActions (attrs : List Attribute) : List WasmAction := wasmActionsFrom [] attrs

/-- The values under a key. -/
def wasmAttrValues (attrs : List Attribute) (key : String) : List String :=
  (attrs.filter fun a => a.key = key).map Attribute.value

/-- What one contract emitted: the runtime's attribute and its own. -/
structure Block where
  contract : String
  body : List Attribute

namespace Block

def attributes (b : Block) : List Attribute := ⟨"_contract_address", b.contract⟩ :: b.body

/-- Contracts never use the reserved key. -/
def Unreserved (b : Block) : Prop := ∀ a ∈ b.body, a.isContractAddr = false

end Block

/-- Attributes that begin with an emitter, or none. -/
def Fresh (attrs : List Attribute) : Prop := ∀ a ∈ attrs.head?, a.isContractAddr = true

section Boundaries

variable {before attrs tail : List Attribute} {b : Block}

theorem fresh_nil : Fresh [] := by
  intro a ha
  cases ha

theorem fresh_blocks (blocks : List Block) : Fresh (blocks.flatMap Block.attributes) := by
  cases blocks with
  | nil => exact fresh_nil
  | cons b blocks =>
    intro a ha
    cases ha
    rfl

theorem not_isAction_contract (value : String) :
    ¬ Attribute.isAction ⟨"_contract_address", value⟩ = true := by
  simp [Attribute.isAction]

theorem wasmContractAddrBefore_append (hattrs : ∀ a ∈ attrs, a.isContractAddr = false) :
    wasmContractAddrBefore (before ++ attrs) = wasmContractAddrBefore before := by
  have hnone : attrs.reverse.find? Attribute.isContractAddr = none := by
    rw [List.find?_eq_none]
    intro a ha
    simp [hattrs a (List.mem_reverse.1 ha)]
  unfold wasmContractAddrBefore
  rw [List.reverse_append, List.find?_append, hnone, Option.none_or]

/-- Within what a contract emitted, it is the emitter. -/
theorem wasmContractAddrBefore_block (hattrs : ∀ a ∈ attrs, a.isContractAddr = false) :
    wasmContractAddrBefore (before ++ ⟨"_contract_address", b.contract⟩ :: attrs) =
      some b.contract := by
  have happend : before ++ ⟨"_contract_address", b.contract⟩ :: attrs =
      (before ++ [⟨"_contract_address", b.contract⟩]) ++ attrs := by
    simp
  rw [happend, wasmContractAddrBefore_append hattrs]
  unfold wasmContractAddrBefore
  rw [List.reverse_append, List.reverse_singleton, List.singleton_append,
    List.find?_cons_of_pos rfl]
  rfl

/-- What follows an emitter adds nothing to the fields before it. -/
theorem takeWhile_append_fresh (p : Attribute → Bool)
    (hp : ∀ a : Attribute, a.isContractAddr = true → p a = false) (htail : Fresh tail) :
    (attrs ++ tail).takeWhile p = attrs.takeWhile p := by
  induction attrs with
  | nil =>
    cases tail with
    | nil => rfl
    | cons a tail => simp [hp a (htail a rfl)]
  | cons a attrs ih =>
    rw [List.cons_append, List.takeWhile_cons, List.takeWhile_cons, ih]

theorem dropWhile_append_fresh (p : Attribute → Bool)
    (hp : ∀ a : Attribute, a.isContractAddr = true → p a = false) (htail : Fresh tail) :
    (attrs ++ tail).dropWhile p = attrs.dropWhile p ++ tail := by
  induction attrs with
  | nil =>
    cases tail with
    | nil => rfl
    | cons a tail => simp [hp a (htail a rfl)]
  | cons a attrs ih =>
    rw [List.cons_append, List.dropWhile_cons, List.dropWhile_cons, ih]
    split <;> rfl

theorem not_boundary_of_contract (a : Attribute) (h : a.isContractAddr = true) :
    (!a.isBoundary) = false := by
  simp [Attribute.isBoundary, h]

theorem wasmKvMapAfterAction_append (htail : Fresh tail) :
    wasmKvMapAfterAction (attrs ++ tail) = wasmKvMapAfterAction attrs :=
  takeWhile_append_fresh _ not_boundary_of_contract htail

theorem wasmAttrValues_append (key : String) :
    wasmAttrValues (before ++ attrs) key =
      wasmAttrValues before key ++ wasmAttrValues attrs key := by
  unfold wasmAttrValues
  rw [List.filter_append, List.map_append]

end Boundaries

section Actions

/-- An action without its emitter: its position, its name and its fields. -/
abbrev BodyAction := ℕ × String × Segment

/-- The actions of one contract's attributes, counted from a position. -/
def bodyActions (position : ℕ) : List Attribute → List BodyAction
  | [] => []
  | a :: rest =>
    if a.isAction then (position, a.value, wasmKvMapAfterAction rest) ::
      bodyActions (position + 1) rest
    else bodyActions (position + 1) rest

def BodyAction.by (contract : String) (action : BodyAction) : WasmAction :=
  ⟨action.1, action.2.1, contract, action.2.2⟩

def Block.actionsFrom (position : ℕ) (b : Block) : List WasmAction :=
  (bodyActions (position + 1) b.body).map (BodyAction.by b.contract)

/-- The actions of blocks one after another. -/
def blockActions (position : ℕ) : List Block → List WasmAction
  | [] => []
  | b :: blocks => b.actionsFrom position ++ blockActions (position + b.attributes.length) blocks

variable {before tail : List Attribute} {contract : String}

theorem wasmActionsFrom_action {a : Attribute} {rest : List Attribute} (ha : a.isAction = true)
    (hbefore : wasmContractAddrBefore before = some contract) :
    wasmActionsFrom before (a :: rest) =
      ⟨before.length, a.value, contract, wasmKvMapAfterAction rest⟩ ::
        wasmActionsFrom (before ++ [a]) rest := by
  rw [wasmActionsFrom, if_pos ha, hbefore]

theorem wasmActionsFrom_other {a : Attribute} {rest : List Attribute}
    (ha : ¬ a.isAction = true) :
    wasmActionsFrom before (a :: rest) = wasmActionsFrom (before ++ [a]) rest := by
  rw [wasmActionsFrom, if_neg ha]

theorem wasmActionsFrom_body {done body : List Attribute} (htail : Fresh tail)
    (hdone : ∀ a ∈ done, a.isContractAddr = false)
    (hbody : ∀ a ∈ body, a.isContractAddr = false) :
    wasmActionsFrom (before ++ ⟨"_contract_address", contract⟩ :: done) (body ++ tail) =
      (bodyActions (before.length + 1 + done.length) body).map (BodyAction.by contract) ++
        wasmActionsFrom (before ++ ⟨"_contract_address", contract⟩ :: (done ++ body)) tail := by
  induction body generalizing done with
  | nil => simp [bodyActions]
  | cons a body ih =>
    obtain ⟨ha, hrest⟩ := List.forall_mem_cons.1 hbody
    have hdone' : ∀ d ∈ done ++ [a], d.isContractAddr = false := by
      intro d hd
      rcases List.mem_append.1 hd with hold | hnew
      · exact hdone d hold
      · rw [List.mem_singleton.1 hnew]
        exact ha
    have hlater : wasmActionsFrom (before ++ ⟨"_contract_address", contract⟩ :: (done ++ [a]))
        (body ++ tail) =
        (bodyActions (before.length + 1 + done.length + 1) body).map (BodyAction.by contract) ++
          wasmActionsFrom (before ++ ⟨"_contract_address", contract⟩ :: (done ++ a :: body))
            tail := by
      simpa [Nat.add_assoc] using ih hdone' hrest
    have hbefore : wasmContractAddrBefore (before ++ ⟨"_contract_address", contract⟩ :: done) =
        some contract :=
      wasmContractAddrBefore_block (b := ⟨contract, []⟩) hdone
    have hposition : (before ++ ⟨"_contract_address", contract⟩ :: done).length =
        before.length + 1 + done.length := by
      rw [List.length_append, List.length_cons]
      omega
    rw [List.cons_append, bodyActions]
    by_cases haction : a.isAction = true
    · rw [if_pos haction, wasmActionsFrom_action haction hbefore,
        wasmKvMapAfterAction_append htail, hposition, List.append_assoc, List.cons_append, hlater]
      rfl
    · rw [if_neg haction, wasmActionsFrom_other haction, List.append_assoc, List.cons_append,
        hlater]

/-- The actions of a stream of blocks, each with its own contract and its own fields. -/
theorem wasmActionsFrom_blocks {blocks : List Block} (h : ∀ b ∈ blocks, b.Unreserved) :
    wasmActionsFrom before (blocks.flatMap Block.attributes) =
      blockActions before.length blocks := by
  induction blocks generalizing before with
  | nil => rfl
  | cons b blocks ih =>
    obtain ⟨hb, hblocks⟩ := List.forall_mem_cons.1 h
    have hbody := @wasmActionsFrom_body before _ b.contract [] _
      (fresh_blocks blocks) (fun _ hd => absurd hd List.not_mem_nil) hb
    rw [List.flatMap_cons, Block.attributes, List.cons_append, blockActions, Block.actionsFrom,
      wasmActionsFrom_other (not_isAction_contract b.contract), hbody, List.nil_append, ih hblocks]
    simp [Block.attributes]

theorem wasmActions_blocks {blocks : List Block} (h : ∀ b ∈ blocks, b.Unreserved) :
    wasmActions (blocks.flatMap Block.attributes) = blockActions 0 blocks :=
  wasmActionsFrom_blocks h

end Actions

end Cl8yDex.WasmEvents
