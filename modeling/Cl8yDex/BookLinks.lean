import Cl8yDex.PriceTimeFacts

/-!
# Pointer surgery on the stored book

The two edits of a side, `linkOrder` and `bypassOrder`, are the library's `link` and `bypass` on
the pointer part of the order map. They succeed on a linked side, move its head as the list
says and leave the terms of every other order alone.
-/

namespace Cl8yDex

open DoublyLinked Outcome

namespace Book

def terms (b : Book) : OrderId → Option OrderTerms :=
  fun x => (b.orders x).map LimitOrder.toOrderTerms

def links (b : Book) : OrderId → Option (Link OrderId) :=
  fun x => (b.orders x).map LimitOrder.toLink

/-- `b'` has the given orders and heads and is `b` elsewhere. -/
structure Edited (b b' : Book) (terms : OrderId → Option OrderTerms)
    (links : OrderId → Option (Link OrderId)) (head : LimitOrderSide → Option OrderId) :
    Prop where
  terms : b'.terms = terms
  links : b'.links = links
  head : b'.head = head
  claims : b'.expiredLimitClaims = b.expiredLimitClaims
  nextId : b'.orderNextId = b.orderNextId
  escrow : b'.pendingEscrow = b.pendingEscrow

variable {b b' b'' : Book} {x y : OrderId} {o : LimitOrder} {s : LimitOrderSide}

theorem terms_eq_some {t : OrderTerms} :
    b.terms x = some t ↔ ∃ o, b.orders x = some o ∧ o.toOrderTerms = t := by
  simp [terms, Option.map_eq_some_iff]

theorem links_eq_some {lk : Link OrderId} :
    b.links x = some lk ↔ ∃ o, b.orders x = some o ∧ o.toLink = lk := by
  simp [links, Option.map_eq_some_iff]

theorem terms_of_orders (h : b.orders x = some o) : b.terms x = some o.toOrderTerms := by
  simp [terms, h]

theorem links_of_orders (h : b.orders x = some o) : b.links x = some o.toLink := by
  simp [links, h]

theorem terms_save : (b.save x o).terms = Function.update b.terms x (some o.toOrderTerms) := by
  funext y
  by_cases hyx : y = x
  · subst hyx
    simp [terms, save]
  · simp [terms, save, hyx]

theorem links_save : (b.save x o).links = Function.update b.links x (some o.toLink) := by
  funext y
  by_cases hyx : y = x
  · subst hyx
    simp [links, save]
  · simp [links, save, hyx]

theorem terms_remove : (b.remove x).terms = Function.update b.terms x none := by
  funext y
  by_cases hyx : y = x
  · subst hyx
    simp [terms, remove]
  · simp [terms, remove, hyx]

theorem links_remove : (b.remove x).links = Function.update b.links x none := by
  funext y
  by_cases hyx : y = x
  · subst hyx
    simp [links, remove]
  · simp [links, remove, hyx]

/-- Rewriting only the pointers of a stored order. -/
theorem edited_save_links (h : b.orders x = some o) (lk : Link OrderId) :
    Edited b (b.save x { o with toLink := lk }) b.terms
      (Function.update b.links x (some lk)) b.head where
  terms := by
    rw [terms_save]
    exact Function.update_eq_self_iff.2 (terms_of_orders h).symm
  links := links_save
  head := rfl
  claims := rfl
  nextId := rfl
  escrow := rfl

theorem updateNeighbor_next (b : Book) (id v : Option OrderId) (what : String)
    (h : ∀ x, id = some x → ∃ o, b.orders x = some o) :
    ∃ b', b.updateNeighbor id what (fun x => { x with next := v }) = .ok b' ∧
      Edited b b' b.terms (setNext b.links id v) b.head := by
  cases id with
  | none => exact ⟨b, rfl, rfl, rfl, rfl, rfl, rfl, rfl⟩
  | some x =>
      obtain ⟨o, ho⟩ := h x rfl
      refine ⟨b.save x { o with next := v }, ?_, ?_⟩
      · simp [updateNeighbor, updateOrder, ho, orThrow]
      · have he := edited_save_links ho { o.toLink with next := v }
        simpa [setNext, links_of_orders ho] using he

theorem updateNeighbor_prev (b : Book) (id v : Option OrderId) (what : String)
    (h : ∀ x, id = some x → ∃ o, b.orders x = some o) :
    ∃ b', b.updateNeighbor id what (fun x => { x with prev := v }) = .ok b' ∧
      Edited b b' b.terms (setPrev b.links id v) b.head := by
  cases id with
  | none => exact ⟨b, rfl, rfl, rfl, rfl, rfl, rfl, rfl⟩
  | some x =>
      obtain ⟨o, ho⟩ := h x rfl
      refine ⟨b.save x { o with prev := v }, ?_, ?_⟩
      · simp [updateNeighbor, updateOrder, ho, orThrow]
      · have he := edited_save_links ho { o.toLink with prev := v }
        simpa [setPrev, links_of_orders ho] using he

theorem orders_of_terms (h : b'.terms = b.terms) (hx : ∃ o, b.orders x = some o) :
    ∃ o, b'.orders x = some o := by
  obtain ⟨o, ho⟩ := hx
  have ht : b'.terms x = some o.toOrderTerms := by rw [h, terms_of_orders ho]
  obtain ⟨o', ho', -⟩ := terms_eq_some.1 ht
  exact ⟨o', ho'⟩

theorem orders_of_seg {l : List OrderId} {p n : Option OrderId} (h : Seg b.links p l n)
    (hx : x ∈ l) : ∃ o, b.orders x = some o := by
  obtain ⟨lk, hlk⟩ := h.exists_node hx
  obtain ⟨o, ho, -⟩ := links_eq_some.1 hlk
  exact ⟨o, ho⟩

/-- Taking the node `x` out of a linked side succeeds and is the library's `bypass`. -/
theorem bypassOrder_spec {l r : List OrderId} (ho : b.orders x = some o)
    (hhead : b.head o.side = (l ++ x :: r).head?) (hseg : Seg b.links none (l ++ x :: r) none)
    (hn : (l ++ x :: r).Nodup) :
    ∃ b', b.bypassOrder x o = .ok b' ∧
      Edited b b' b.terms (bypass b.links l.getLast? r.head?)
        (Function.update b.head o.side (l ++ r).head?) := by
  have hlk : o.toLink = ⟨l.getLast?, r.head?⟩ :=
    Option.some.inj ((links_of_orders ho).symm.trans hseg.node)
  have hprev : o.prev = l.getLast? := congrArg Link.prev hlk
  have hnext : o.next = r.head? := congrArg Link.next hlk
  have hmem : ∀ y, o.prev = some y ∨ o.next = some y → ∃ o', b.orders y = some o' := by
    intro y hy
    refine orders_of_seg hseg ?_
    rcases hy with hy | hy
    · exact List.mem_append_left _ (List.mem_of_getLast? (hprev ▸ hy))
    · exact List.mem_append_right _ (List.mem_cons_of_mem _ (List.mem_of_head? (hnext ▸ hy)))
  set b₀ := if b.head o.side = some x then b.saveHead o.side o.next else b with hb₀
  have h₀ : Edited b b₀ b.terms b.links (Function.update b.head o.side (l ++ r).head?) := by
    cases l with
    | nil =>
        have hx : b.head o.side = some x := by simpa using hhead
        rw [hb₀, if_pos hx]
        exact ⟨rfl, rfl, by rw [List.nil_append, ← hnext]; rfl, rfl, rfl, rfl⟩
    | cons z l =>
        have hz : b.head o.side = some z := by simpa using hhead
        have hzx : z ≠ x := by
          rintro rfl
          simp at hn
        rw [hb₀, if_neg (by rw [hz]; exact fun h => hzx (Option.some.inj h))]
        refine ⟨rfl, rfl, ?_, rfl, rfl, rfl⟩
        exact (Function.update_eq_self_iff.2 (by simpa using hz.symm)).symm
  obtain ⟨b₁, hb₁, h₁⟩ := updateNeighbor_next b₀ o.prev o.next "prev"
    fun y hy => orders_of_terms h₀.terms (hmem y (.inl hy))
  obtain ⟨b₂, hb₂, h₂⟩ := updateNeighbor_prev b₁ o.next o.prev "next"
    fun y hy => orders_of_terms (h₁.terms.trans h₀.terms) (hmem y (.inr hy))
  refine ⟨b₂, ?_, ?_, ?_, ?_, ?_, ?_, ?_⟩
  · rw [bypassOrder]
    simp only [← hb₀, hb₁, ok_bind, hb₂]
  · rw [h₂.terms, h₁.terms, h₀.terms]
  · rw [h₂.links, h₁.links, h₀.links, hprev, hnext]
    rfl
  · rw [h₂.head, h₁.head, h₀.head]
  · rw [h₂.claims, h₁.claims, h₀.claims]
  · rw [h₂.nextId, h₁.nextId, h₀.nextId]
  · rw [h₂.escrow, h₁.escrow, h₀.escrow]

/-- Storing `x` at a seam of a linked side succeeds and is the library's `link`. -/
theorem linkOrder_spec {t : OrderTerms} {l r : List OrderId}
    (hhead : b.head t.side = (l ++ r).head?) (hseg : Seg b.links none (l ++ r) none)
    (hx : x ∉ l ++ r) :
    ∃ b', b.linkOrder x t l.getLast? r.head? = .ok b' ∧
      Edited b b' (Function.update b.terms x (some t)) (link b.links x l.getLast? r.head?)
        (Function.update b.head t.side (l ++ x :: r).head?) := by
  set b₀ := b.save x ⟨t, ⟨l.getLast?, r.head?⟩⟩ with hb₀
  have hmem : ∀ y ∈ l ++ r, ∃ o, b₀.orders y = some o := by
    intro y hy
    have hyx : y ≠ x := ne_of_mem_of_not_mem hy hx
    obtain ⟨o, ho⟩ := orders_of_seg hseg hy
    exact ⟨o, by simpa [hb₀, save, hyx] using ho⟩
  have h₁ : ∃ b₁, b₀.linkPrev x t.side l.getLast? = .ok b₁ ∧
      Edited b₀ b₁ b₀.terms (setNext b₀.links l.getLast? (some x))
        (Function.update b.head t.side (l ++ x :: r).head?) := by
    cases hl : l.getLast? with
    | none =>
        obtain rfl : l = [] := List.getLast?_eq_none_iff.1 hl
        exact ⟨_, rfl, rfl, rfl, rfl, rfl, rfl, rfl⟩
    | some p =>
        obtain ⟨b₁, hb₁, h₁⟩ := updateNeighbor_next b₀ (some p) (some x) "prev neighbor"
          fun y hy => by
            cases hy
            exact hmem p (List.mem_append_left r (List.mem_of_getLast? hl))
        refine ⟨b₁, hb₁, h₁.terms, h₁.links, ?_, h₁.claims, h₁.nextId, h₁.escrow⟩
        rw [h₁.head]
        cases l with
        | nil => simp at hl
        | cons z l =>
            change b.head = _
            exact (Function.update_eq_self_iff.2 (by simpa using hhead.symm)).symm
  obtain ⟨b₁, hb₁, h₁⟩ := h₁
  obtain ⟨b₂, hb₂, h₂⟩ := updateNeighbor_prev b₁ r.head? (some x) "next neighbor"
    fun y hy => orders_of_terms h₁.terms (hmem y (List.mem_append_right l (List.mem_of_head? hy)))
  refine ⟨b₂, ?_, ?_, ?_, ?_, ?_, ?_, ?_⟩
  · exact bind_eq_ok.2 ⟨b₁, hb₁, hb₂⟩
  · rw [h₂.terms, h₁.terms, hb₀, terms_save]
  · rw [h₂.links, h₁.links, hb₀, links_save]
    rfl
  · rw [h₂.head, h₁.head]
  · rw [h₂.claims, h₁.claims]
    rfl
  · rw [h₂.nextId, h₁.nextId]
    rfl
  · rw [h₂.escrow, h₁.escrow]
    rfl

end Book

end Cl8yDex
