import Cl8yDex.LifecycleParsers

/-!
# Scans of blocks one after another

What a contract emitted is read the same alone and among the emissions of others: an action keeps
its contract and its fields, and a batch ends where the contract's attributes end.
-/

namespace Cl8yDex.WasmEvents

section Batches

variable {α : Type} {action : String} {single : String → Segment → Option α}
  {columnar : String → List Attribute → Option (List α)} {before before' body tail : List Attribute}

theorem not_hasAction_of_contract (a : Attribute) (h : a.isContractAddr = true) :
    a.hasAction action = false := by
  simp only [Attribute.isContractAddr, decide_eq_true_eq] at h
  simp [Attribute.hasAction, h]

theorem batchScan_nil : batchScan action single columnar before [] = [] := by
  rw [batchScan]

theorem batchScan_other {a : Attribute} {rest : List Attribute} (ha : a.hasAction action = false) :
    batchScan action single columnar before (a :: rest) =
      batchScan action single columnar (before ++ [a]) rest := by
  rw [batchScan, if_neg]
  rw [ha]
  exact Bool.false_ne_true

theorem batchScan_unowned {a : Attribute} {rest : List Attribute}
    (hbefore : wasmContractAddrBefore before = none) :
    batchScan action single columnar before (a :: rest) =
      batchScan action single columnar (before ++ [a]) rest := by
  rw [batchScan, hbefore]
  split <;> rfl

theorem batchScan_single {contract : String} {a : Attribute} {rest : List Attribute}
    (ha : a.hasAction action = true) (hbefore : wasmContractAddrBefore before = some contract)
    (hheaders : rest.takeWhile (fun h => h.hasAction action) = []) :
    batchScan action single columnar before (a :: rest) =
      ((single contract (wasmKvMapAfterAction rest)).toList.map fun row => (before.length, row)) ++
        batchScan action single columnar (before ++ [a]) rest := by
  rw [batchScan, if_pos ha, hbefore]
  exact if_pos hheaders

theorem batchScan_columnar {contract : String} {a : Attribute} {rest : List Attribute}
    (ha : a.hasAction action = true) (hbefore : wasmContractAddrBefore before = some contract)
    (hheaders : rest.takeWhile (fun h => h.hasAction action) ≠ []) :
    batchScan action single columnar before (a :: rest) =
      (((columnar contract (a :: rest.takeWhile (fun h => h.hasAction action) ++
          wasmKvMapAfterAction (rest.dropWhile fun h => h.hasAction action))).getD []).map
        fun row => (before.length, row)) ++
        batchScan action single columnar (before ++
          (a :: rest.takeWhile (fun h => h.hasAction action) ++
            wasmKvMapAfterAction (rest.dropWhile fun h => h.hasAction action)))
          ((rest.dropWhile fun h => h.hasAction action).dropWhile fun a => !a.isBoundary) := by
  rw [batchScan, if_pos ha, hbefore]
  exact if_neg hheaders

/-- The rows of a scan, without the positions of their actions. -/
def scanRows (action : String) (single : String → Segment → Option α)
    (columnar : String → List Attribute → Option (List α)) (before attrs : List Attribute) :
    List α :=
  (batchScan action single columnar before attrs).map Prod.snd

theorem wasmContractAddrBefore_snoc {a : Attribute} (ha : a.isContractAddr = false) :
    wasmContractAddrBefore (before ++ [a]) = wasmContractAddrBefore before := by
  refine wasmContractAddrBefore_append fun b hb => ?_
  rw [List.mem_singleton.1 hb]
  exact ha

/-- A batch and what is left after it make up the attributes. -/
theorem batch_parts (action : String) (a : Attribute) (rest : List Attribute) :
    a :: rest.takeWhile (fun h => h.hasAction action) ++
      wasmKvMapAfterAction (rest.dropWhile fun h => h.hasAction action) ++
      (rest.dropWhile fun h => h.hasAction action).dropWhile (fun a => !a.isBoundary) =
        a :: rest := by
  rw [List.append_assoc, wasmKvMapAfterAction, List.takeWhile_append_dropWhile,
    List.cons_append, List.takeWhile_append_dropWhile]

/-- What a contract emitted is scanned as if it stood alone. -/
theorem scanRows_append (hbody : ∀ a ∈ body, a.isContractAddr = false) (htail : Fresh tail)
    (hsame : wasmContractAddrBefore before = wasmContractAddrBefore before') :
    scanRows action single columnar before (body ++ tail) =
      scanRows action single columnar before' body ++
        scanRows action single columnar (before ++ body) tail := by
  unfold scanRows
  induction hn : body.length using Nat.strong_induction_on generalizing before before' body with
  | _ n ih =>
  cases body with
  | nil => simp [batchScan_nil]
  | cons a rest =>
    obtain ⟨ha, hrest⟩ := List.forall_mem_cons.1 hbody
    have hsame' : wasmContractAddrBefore (before ++ [a]) =
        wasmContractAddrBefore (before' ++ [a]) := by
      rw [wasmContractAddrBefore_snoc ha, wasmContractAddrBefore_snoc ha, hsame]
    have hstep : ((batchScan action single columnar (before ++ [a]) (rest ++ tail)).map Prod.snd) =
        ((batchScan action single columnar (before' ++ [a]) rest).map Prod.snd) ++
          ((batchScan action single columnar (before ++ a :: rest) tail).map Prod.snd) := by
      have h := ih rest.length (by rw [← hn]; exact Nat.lt_succ_self _) hrest hsame' rfl
      rwa [List.append_assoc] at h
    rw [List.cons_append]
    cases haction : a.hasAction action with
    | false => rw [batchScan_other haction, batchScan_other haction, hstep]
    | true =>
      cases hbefore : wasmContractAddrBefore before with
      | none =>
        rw [batchScan_unowned hbefore, batchScan_unowned (hsame.symm.trans hbefore), hstep]
      | some contract =>
        have hbefore' := hsame.symm.trans hbefore
        have htake : (rest ++ tail).takeWhile (fun h => h.hasAction action) =
            rest.takeWhile fun h => h.hasAction action :=
          takeWhile_append_fresh _ not_hasAction_of_contract htail
        have hdrop : (rest ++ tail).dropWhile (fun h => h.hasAction action) =
            (rest.dropWhile fun h => h.hasAction action) ++ tail :=
          dropWhile_append_fresh _ not_hasAction_of_contract htail
        by_cases hheaders : rest.takeWhile (fun h => h.hasAction action) = []
        · rw [batchScan_single haction hbefore (htake.trans hheaders),
            batchScan_single haction hbefore' hheaders, List.map_append, List.map_append,
            wasmKvMapAfterAction_append htail, hstep, ← List.append_assoc]
          simp
        · rw [batchScan_columnar haction hbefore (by rw [htake]; exact hheaders),
            batchScan_columnar haction hbefore' hheaders, htake, hdrop,
            wasmKvMapAfterAction_append htail,
            dropWhile_append_fresh _ not_boundary_of_contract htail]
          have hparts := batch_parts action a rest
          generalize hbatch : a :: rest.takeWhile (fun h => h.hasAction action) ++
            wasmKvMapAfterAction (rest.dropWhile fun h => h.hasAction action) = batch at hparts ⊢
          generalize (rest.dropWhile fun h => h.hasAction action).dropWhile
            (fun a => !a.isBoundary) = left at hparts ⊢
          have hmem : ∀ b ∈ batch ++ left, b.isContractAddr = false := by
            rw [hparts]
            exact hbody
          have hbatchMem : ∀ b ∈ batch, b.isContractAddr = false :=
            fun b hb => hmem b (List.mem_append_left _ hb)
          have hshort : left.length < n := by
            have hlength := congrArg List.length hparts
            have hpos : 0 < batch.length := by
              rw [← hbatch]
              simp
            rw [List.length_append] at hlength
            omega
          have hsameBatch : wasmContractAddrBefore (before ++ batch) =
              wasmContractAddrBefore (before' ++ batch) := by
            rw [wasmContractAddrBefore_append hbatchMem, wasmContractAddrBefore_append hbatchMem,
              hsame]
          have hleft := ih left.length hshort
            (fun b hb => hmem b (List.mem_append_right _ hb)) hsameBatch rfl
          rw [List.map_append, List.map_append, hleft, List.append_assoc, hparts,
            ← List.append_assoc]
          simp

/-- What a block's own attributes are read as. -/
def Block.scanRows (action : String) (single : String → Segment → Option α)
    (columnar : String → List Attribute → Option (List α)) (b : Block) : List α :=
  WasmEvents.scanRows action single columnar [⟨"_contract_address", b.contract⟩] b.body

theorem scanRows_blocks {blocks : List Block} (h : ∀ b ∈ blocks, b.Unreserved) :
    scanRows action single columnar before (blocks.flatMap Block.attributes) =
      blocks.flatMap (Block.scanRows action single columnar) := by
  induction blocks generalizing before with
  | nil => simp [scanRows, batchScan_nil]
  | cons b blocks ih =>
    obtain ⟨hb, hblocks⟩ := List.forall_mem_cons.1 h
    have hsame : wasmContractAddrBefore (before ++ [⟨"_contract_address", b.contract⟩]) =
        wasmContractAddrBefore [⟨"_contract_address", b.contract⟩] := by
      exact wasmContractAddrBefore_block (b := b) fun _ hd => absurd hd List.not_mem_nil
    rw [List.flatMap_cons, List.flatMap_cons, Block.attributes, List.cons_append, scanRows,
      batchScan_other (not_hasAction_of_contract _ rfl)]
    refine (scanRows_append hb (fresh_blocks blocks) hsame).trans ?_
    rw [ih hblocks]
    rfl

/-- What holds of every row that is read from a contract's attributes. -/
theorem scanRows_forall {Q : α → Prop} {contract : String}
    (hsingle : ∀ seg row, single contract seg = some row → Q row)
    (hcolumnar : ∀ attrs rows, columnar contract attrs = some rows → ∀ row ∈ rows, Q row)
    (hbefore : wasmContractAddrBefore before = some contract)
    (hbody : ∀ a ∈ body, a.isContractAddr = false) :
    ∀ row ∈ scanRows action single columnar before body, Q row := by
  unfold scanRows
  induction hn : body.length using Nat.strong_induction_on generalizing before body with
  | _ n ih =>
  cases body with
  | nil =>
    intro row hrow
    rw [batchScan_nil] at hrow
    cases hrow
  | cons a rest =>
    obtain ⟨ha, hrest⟩ := List.forall_mem_cons.1 hbody
    have hlater := ih rest.length (by rw [← hn]; exact Nat.lt_succ_self _)
      ((wasmContractAddrBefore_snoc ha).trans hbefore) hrest rfl
    cases haction : a.hasAction action with
    | false =>
      rw [batchScan_other haction]
      exact hlater
    | true =>
      by_cases hheaders : rest.takeWhile (fun h => h.hasAction action) = []
      · rw [batchScan_single haction hbefore hheaders, List.map_append]
        intro row hrow
        rcases List.mem_append.1 hrow with hrow | hrow
        · simp only [List.map_map, List.mem_map, Option.mem_toList] at hrow
          obtain ⟨row', hrow', rfl⟩ := hrow
          exact hsingle _ _ hrow'
        · exact hlater row hrow
      · rw [batchScan_columnar haction hbefore hheaders, List.map_append]
        have hparts := batch_parts action a rest
        generalize hbatch : a :: rest.takeWhile (fun h => h.hasAction action) ++
          wasmKvMapAfterAction (rest.dropWhile fun h => h.hasAction action) = batch at hparts ⊢
        generalize (rest.dropWhile fun h => h.hasAction action).dropWhile
          (fun a => !a.isBoundary) = left at hparts ⊢
        have hmem : ∀ b ∈ batch ++ left, b.isContractAddr = false := by
          rw [hparts]
          exact hbody
        have hshort : left.length < n := by
          have hlength := congrArg List.length hparts
          have hpos : 0 < batch.length := by
            rw [← hbatch]
            simp
          rw [List.length_append] at hlength
          omega
        intro row hrow
        rcases List.mem_append.1 hrow with hrow | hrow
        · simp only [List.map_map, List.mem_map] at hrow
          obtain ⟨row', hrow', rfl⟩ := hrow
          cases hrows : columnar contract batch with
          | none =>
            rw [hrows] at hrow'
            cases hrow'
          | some rows =>
            rw [hrows] at hrow'
            exact hcolumnar _ _ hrows _ hrow'
        · exact ih left.length hshort
            ((wasmContractAddrBefore_append
              fun b hb => hmem b (List.mem_append_left _ hb)).trans hbefore)
            (fun b hb => hmem b (List.mem_append_right _ hb)) rfl row hrow

end Batches

theorem wasmContractAddrBefore_first {contract : String} {attrs : List Attribute}
    (h : ∀ a ∈ attrs, a.isContractAddr = false) :
    wasmContractAddrBefore (⟨"_contract_address", contract⟩ :: attrs) = some contract := by
  have hblock := @wasmContractAddrBefore_block [] attrs ⟨contract, []⟩ h
  rwa [List.nil_append] at hblock

section Texts

/-- Fields that neither begin an action nor name an emitter. -/
def Plain (seg : Segment) : Prop := ∀ a ∈ seg, a.isBoundary = false

instance (seg : Segment) : Decidable (Plain seg) :=
  inferInstanceAs (Decidable (∀ a ∈ seg, a.isBoundary = false))

/-- An action with its fields. -/
structure ActionText where
  name : String
  fields : Segment

def ActionText.attributes (a : ActionText) : List Attribute := ⟨"action", a.name⟩ :: a.fields

/-- An action whose fields are there and are plain. -/
structure ActionText.Proper (t : ActionText) : Prop where
  plain : Plain t.fields
  filled : t.fields ≠ []

variable {seg : Segment} {before attrs : List Attribute} {texts : List ActionText}

theorem Plain.isContractAddr (h : Plain seg) : ∀ a ∈ seg, a.isContractAddr = false := by
  intro a ha
  have hb := h a ha
  rw [Attribute.isBoundary, Bool.or_eq_false_iff] at hb
  exact hb.2

theorem Plain.isAction (h : Plain seg) : ∀ a ∈ seg, a.isAction = false := by
  intro a ha
  have hb := h a ha
  rw [Attribute.isBoundary, Bool.or_eq_false_iff] at hb
  exact hb.1

theorem hasAction_of_not_isAction {a : Attribute} (h : a.isAction = false) (action : String) :
    a.hasAction action = false := by
  have hkey : decide (a.key = "action") = false := h
  rw [Attribute.hasAction, hkey, Bool.false_and]

/-- What follows the fields of an action is another action, or nothing. -/
def Headed (attrs : List Attribute) : Prop := ∀ a ∈ attrs.head?, a.isBoundary = true

theorem headed_texts (texts : List ActionText) : Headed (texts.flatMap ActionText.attributes) := by
  cases texts with
  | nil =>
    intro a ha
    cases ha
  | cons t texts =>
    intro a ha
    cases ha
    rfl

theorem wasmKvMapAfterAction_plain (h : Plain seg) (hrest : Headed attrs) :
    wasmKvMapAfterAction (seg ++ attrs) = seg := by
  unfold wasmKvMapAfterAction
  induction seg with
  | nil =>
    cases attrs with
    | nil => rfl
    | cons a attrs => simp [hrest a rfl]
  | cons a seg ih =>
    obtain ⟨ha, hseg⟩ := List.forall_mem_cons.1 h
    rw [List.cons_append, List.takeWhile_cons, ha, ih hseg]
    rfl

theorem bodyActions_plain (h : Plain seg) (position : ℕ) :
    (bodyActions position (seg ++ attrs)).map Prod.snd = (bodyActions 0 attrs).map Prod.snd := by
  induction seg generalizing position with
  | nil =>
    induction attrs generalizing position with
    | nil => rfl
    | cons a attrs ih =>
      have h0 := ih (position + 1)
      have h1 := ih (0 + 1)
      rw [List.nil_append] at h0 h1 ⊢
      unfold bodyActions
      split
      · rw [List.map_cons, List.map_cons, h0, h1]
      · rw [h0, h1]
  | cons a seg ih =>
    obtain ⟨ha, hseg⟩ := List.forall_mem_cons.1 h
    have hnot : ¬ a.isAction = true := by
      rw [h.isAction a (List.mem_cons_self ..)]
      exact Bool.false_ne_true
    rw [List.cons_append, bodyActions, if_neg hnot, ih hseg]

/-- The actions of texts one after another are these texts. -/
theorem bodyActions_texts (h : ∀ t ∈ texts, t.Proper) :
    (bodyActions 0 (texts.flatMap ActionText.attributes)).map Prod.snd =
      texts.map fun t => (t.name, t.fields) := by
  induction texts with
  | nil => rfl
  | cons t texts ih =>
    obtain ⟨ht, htexts⟩ := List.forall_mem_cons.1 h
    rw [List.flatMap_cons, ActionText.attributes, List.cons_append, bodyActions,
      if_pos (show Attribute.isAction ⟨"action", t.name⟩ = true from rfl), List.map_cons,
      wasmKvMapAfterAction_plain ht.plain (headed_texts texts), bodyActions_plain ht.plain,
      ih htexts]
    rfl

variable {α : Type} {action contract : String} {single : String → Segment → Option α}
  {columnar : String → List Attribute → Option (List α)}

theorem scanRows_plain (h : Plain seg) : scanRows action single columnar before (seg ++ attrs) =
    scanRows action single columnar (before ++ seg) attrs := by
  unfold scanRows
  induction seg generalizing before with
  | nil => simp
  | cons a seg ih =>
    obtain ⟨ha, hseg⟩ := List.forall_mem_cons.1 h
    rw [List.cons_append,
      batchScan_other (hasAction_of_not_isAction (h.isAction a (List.mem_cons_self ..)) action),
      ih hseg, List.append_assoc]
    rfl

/-- Actions that each bring their fields are read one by one. -/
theorem scanRows_texts (h : ∀ t ∈ texts, t.Proper)
    (hbefore : wasmContractAddrBefore before = some contract) :
    scanRows action single columnar before (texts.flatMap ActionText.attributes) =
      texts.flatMap fun t => if t.name = action then (single contract t.fields).toList else [] := by
  induction texts generalizing before with
  | nil => simp [scanRows, batchScan_nil]
  | cons t texts ih =>
    obtain ⟨ht, htexts⟩ := List.forall_mem_cons.1 h
    have hbefore' : wasmContractAddrBefore (before ++ [⟨"action", t.name⟩] ++ t.fields) =
        some contract := by
      rw [wasmContractAddrBefore_append ht.plain.isContractAddr, wasmContractAddrBefore_snoc rfl]
      exact hbefore
    have hlater := ih htexts hbefore'
    have hfields := @scanRows_plain t.fields (before ++ [⟨"action", t.name⟩])
      (texts.flatMap ActionText.attributes) α action single columnar ht.plain
    rw [List.flatMap_cons, List.flatMap_cons, ActionText.attributes, List.cons_append]
    by_cases hname : t.name = action
    · have hhas : Attribute.hasAction action ⟨"action", t.name⟩ = true := by
        simp [Attribute.hasAction, hname]
      have hheaders : (t.fields ++ texts.flatMap ActionText.attributes).takeWhile
          (fun h => h.hasAction action) = [] := by
        obtain ⟨a, seg, hseg⟩ := List.exists_cons_of_ne_nil ht.filled
        have ha : a.hasAction action = false :=
          hasAction_of_not_isAction (ht.plain.isAction a (by rw [hseg]; simp)) action
        rw [hseg, List.cons_append, List.takeWhile_cons, ha]
        rfl
      rw [scanRows, batchScan_single hhas hbefore hheaders, List.map_append, if_pos hname,
        wasmKvMapAfterAction_plain ht.plain (headed_texts texts)]
      refine congrArg₂ _ (by simp) (hfields.trans hlater)
    · have hnot : Attribute.hasAction action ⟨"action", t.name⟩ = false := by
        simp [Attribute.hasAction, hname]
      rw [scanRows, batchScan_other hnot, if_neg hname, List.nil_append]
      exact hfields.trans hlater

end Texts

end Cl8yDex.WasmEvents
