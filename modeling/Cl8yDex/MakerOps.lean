import Cl8yDex.Effects

/-!
# What cancel and claim do

Each operation is a short run of refunds of its user's own orders, after which the counters are
settled. They are exact beforehand, so none of them can be found too small.
-/

namespace Cl8yDex

open Outcome

section Errors

variable {e : ContractError}

/-- A guard that does not look at the escrow counters. -/
theorem ensure_noUnderflow {P : Prop} [Decidable P] (h : ¬e.Underflow) :
    Meets (ensure P e) (fun _ => P) (fun e => ¬e.Underflow) := meets_ensure fun _ => h

theorem orThrow_noUnderflow {α : Type} {x : Option α} (h : ¬e.Underflow) :
    Meets (orThrow x e) (fun a => x = some a) (fun e => ¬e.Underflow) := meets_orThrow fun _ => h

/-- Errors of a foreign kind that are reported as one of the pair's. -/
theorem mapError_noUnderflow {ε α : Type} (x : Except ε α) {f : ε → ContractError}
    (h : ∀ e, ¬(f e).Underflow) : Meets (x.mapError f) (fun a => x = .ok a)
      (fun e => ¬e.Underflow) := by
  cases x with
  | ok a => exact rfl
  | error e => exact h e

end Errors

section Escrow

variable {b : Book} {A : AbsBook} {s : LimitOrderSide} {n : ℕ}

theorem escrowSub_eq (h : Represents b A) (hle : n ≤ A.escrow s) (path : EscrowPath) :
    b.escrowSub s n path = .ok (b.saveEscrow s (A.escrow s - n)) := by
  simp only [Book.escrowSub, checkedSub, h.escrow, if_pos hle, orThrow, ok_bind]
  rfl

/-- Taking a covered amount from a counter succeeds, with one act or none. -/
theorem escrowSubPending_run (h : Represents b A) (hle : n ≤ A.escrow s) (path : EscrowPath) :
    ∃ b' acts A', b.escrowSubPending s n path = .ok b' ∧ Run A acts A' ∧ Represents b' A' ∧
      (∀ a ∈ acts, a = .escrowSub s n) ∧
      ∀ s', totalOf (Act.unbooked s') acts = if s = s' then n else 0 := by
  unfold Book.escrowSubPending
  by_cases hn : n = 0
  · rw [if_pos hn]
    exact ⟨b, [], A, rfl, .nil A, h, by simp, fun s' => by simp [hn]⟩
  · rw [if_neg hn]
    exact ⟨_, [.escrowSub s n], _, escrowSub_eq h hle path, .single (.escrowSub A s n hle),
      h.saveEscrow _, by simp, fun s' => by simp [Act.unbooked]⟩

end Escrow

section Flows

variable {A A' : AbsBook} {p p' : PairStorage} {user : Addr} {acts : List Act}
  {msgs : List CosmosMsg}

/-- An operation that leaves the pool alone accounts for its transfers through the escrow. -/
theorem Effect.conserves (he : Effect A p user acts A' p' msgs) (h : Represents p.book A)
    (hreserves : p'.reserves = p.reserves) {incoming : LimitOrderSide → ℕ}
    (hflow : ∀ s, incoming s + totalOf (CosmosMsg.pulled (p.pairInfo.escrowToken s)) msgs +
      totalOf (Act.releasedOn s) acts =
        totalOf (CosmosMsg.sent (p.pairInfo.escrowToken s)) msgs +
          totalOf (Act.receivedOn s) acts) : Conserves p p' incoming msgs := by
  intro s
  have h1 := he.run.escrow (s := s)
  have h2 := he.settled s
  have h3 := hflow s
  simp only [PairStorage.owed, hreserves, h.escrow, he.rep.escrow]
  omega

/-- The totals of acts that only pay back or touch a counter. -/
theorem totals_of_refunds {s : LimitOrderSide} (h : ∀ a ∈ acts, a.Refunds) :
    totalOf (Act.releasedOn s) acts = totalOf (Act.refunded s) acts ∧
      totalOf (Act.receivedOn s) acts = 0 ∧ totalOf (Act.booked s) acts = 0 ∧
      totalOf (Act.unbooked s) acts = 0 := by
  have hcase : ∀ a ∈ acts, a.releasedOn s = a.refunded s ∧ a.receivedOn s = 0 ∧ a.booked s = 0 ∧
      a.unbooked s = 0 := by
    intro a ha
    have hr := h a ha
    cases a with
    | cancel s' x n => exact ⟨rfl, rfl, rfl, rfl⟩
    | claim s' x n => exact ⟨rfl, rfl, rfl, rfl⟩
    | _ => exact absurd hr id
  exact ⟨totalOf_congr fun a ha => (hcase a ha).1, totalOf_eq_zero fun a ha => (hcase a ha).2.1,
    totalOf_eq_zero fun a ha => (hcase a ha).2.2.1, totalOf_eq_zero fun a ha => (hcase a ha).2.2.2⟩

end Flows

/-- The refunds taken out so far, all of orders that `user` owns. -/
structure Refunding (A : AbsBook) (user : Addr) (acts : List Act) (A' : AbsBook) : Prop where
  run : Run A acts A'
  refunds : ∀ a ∈ acts, a.Refunds
  authorised : ∀ a ∈ acts, a.AuthorisedBy A user
  rows : ∀ x t, A'.rows x = some t → A.rows x = some t
  claims : ∀ x r, A'.claims x = some r → A.claims x = some r

namespace Refunding

variable {A A' : AbsBook} {user : Addr} {acts : List Act} {x : OrderId}

theorem refl (A : AbsBook) (user : Addr) : Refunding A user [] A :=
  ⟨.nil A, by simp, by simp, fun _ _ h => h, fun _ _ h => h⟩

theorem cancel (h : Refunding A user acts A') {t : OrderTerms} (ht : A'.rows x = some t)
    (ho : t.owner = user) :
    Refunding A user (acts ++ [.cancel t.side x t.remaining]) (A'.withdraw t.side x) where
  run := h.run.append (.single (.cancel A' x t ht))
  refunds a ha := by
    rcases List.mem_append.1 ha with ha | ha
    · exact h.refunds a ha
    · rw [List.mem_singleton.1 ha]
      exact trivial
  authorised a ha := by
    rcases List.mem_append.1 ha with ha | ha
    · exact h.authorised a ha
    · rw [List.mem_singleton.1 ha]
      exact ⟨t, h.rows x t ht, ho, rfl, rfl⟩
  rows y u hu := h.rows y u (AbsBook.rows_of_withdraw hu).2
  claims := h.claims

theorem claim (h : Refunding A user acts A') {r : ExpiredLimitRefund} (hr : A'.claims x = some r)
    (ho : r.owner = user) :
    Refunding A user (acts ++ [.claim r.side x r.remaining]) (A'.putClaim x none) where
  run := h.run.append (.single (.claim A' x r hr))
  refunds a ha := by
    rcases List.mem_append.1 ha with ha | ha
    · exact h.refunds a ha
    · rw [List.mem_singleton.1 ha]
      exact trivial
  authorised a ha := by
    rcases List.mem_append.1 ha with ha | ha
    · exact h.authorised a ha
    · rw [List.mem_singleton.1 ha]
      exact ⟨r, h.claims x r hr, ho, rfl, rfl⟩
  rows := h.rows
  claims y u hu := by
    by_cases hy : y = x
    · subst hy
      simp [AbsBook.putClaim] at hu
    · exact h.claims y u (by simpa [AbsBook.putClaim, hy] using hu)

/-- What was taken out is covered by the exact counters of the start. -/
theorem covered (h : Refunding A user acts A') (hwf : A.WellFormed) (hbal : A.Balanced)
    (s : LimitOrderSide) : totalOf (Act.refunded s) acts ≤ A'.escrow s := by
  obtain ⟨h1, h2, h3, h4⟩ := totals_of_refunds (s := s) h.refunds
  have h5 := h.run.held (s := s) hwf
  have h6 := h.run.escrow (s := s)
  have h7 := hbal s
  omega

/-- Settling the counters after the refunds completes the operation. -/
theorem effect {p p' : PairStorage} {msgs : List CosmosMsg} (h : Refunding A user acts A')
    {tail : List Act} {A'' : AbsBook} (hrun : Run A' tail A'') (hrep : Represents p'.book A'')
    (htail : ∀ a ∈ tail, ∃ s n, a = .escrowSub s n)
    (htotal : ∀ s, totalOf (Act.unbooked s) tail = totalOf (Act.refunded s) acts)
    (hmsgs : ∀ token u, totalOf (CosmosMsg.sentTo token u) msgs = if u = user then
      (if token = p.pairInfo.token0 then totalOf (Act.refunded .ask) acts else 0) +
        (if token = p.pairInfo.token1 then totalOf (Act.refunded .bid) acts else 0) else 0)
    (hinfo : p'.pairInfo = p.pairInfo) : Effect A p user (acts ++ tail) A'' p' msgs := by
  have hzero : ∀ s, totalOf (Act.releasedOn s) tail = 0 ∧ totalOf (Act.receivedOn s) tail = 0 ∧
      totalOf (Act.booked s) tail = 0 ∧ totalOf (Act.refunded s) tail = 0 := by
    intro s
    refine ⟨totalOf_eq_zero fun a ha => ?_, totalOf_eq_zero fun a ha => ?_,
      totalOf_eq_zero fun a ha => ?_, totalOf_eq_zero fun a ha => ?_⟩ <;>
    · obtain ⟨s', n, rfl⟩ := htail a ha
      rfl
  refine ⟨h.run.append hrun, hrep, fun s => ?_, .draining fun a ha => ?_, fun a ha => ?_,
    fun hb s => ?_, fun _ token u => ?_, hinfo⟩
  · obtain ⟨h1, h2, h3, h4⟩ := totals_of_refunds (s := s) h.refunds
    obtain ⟨h5, h6, h7, -⟩ := hzero s
    have h8 := htotal s
    simp only [totalOf_append]
    omega
  · rcases List.mem_append.1 ha with ha | ha
    · have hr := h.refunds a ha
      cases a with
      | cancel s x n => exact trivial
      | claim s x n => exact trivial
      | _ => exact absurd hr id
    · obtain ⟨s, n, rfl⟩ := htail a ha
      exact trivial
  · rcases List.mem_append.1 ha with ha | ha
    · exact h.authorised a ha
    · obtain ⟨s, n, rfl⟩ := htail a ha
      exact trivial
  · have h1 := (h.run.append hrun).escrow (s := s)
    obtain ⟨-, -, h3, -⟩ := totals_of_refunds (s := s) h.refunds
    obtain ⟨-, -, h7, -⟩ := hzero s
    have h8 := hb s
    simp only [totalOf_append] at h1
    omega
  · rw [hmsgs, totalOf_append, totalOf_append, (hzero .ask).2.2.2, (hzero .bid).2.2.2,
      Nat.add_zero, Nat.add_zero]

/-- The transfers of an operation that pays back each side's refunds. -/
theorem flow (h : Refunding A user acts A') {tail : List Act}
    (htail : ∀ a ∈ tail, ∃ s n, a = .escrowSub s n) (s : LimitOrderSide) :
    totalOf (Act.releasedOn s) (acts ++ tail) = totalOf (Act.refunded s) acts ∧
      totalOf (Act.receivedOn s) (acts ++ tail) = 0 := by
  obtain ⟨h1, h2, -, -⟩ := totals_of_refunds (s := s) h.refunds
  have h3 : totalOf (Act.releasedOn s) tail = 0 := totalOf_eq_zero fun a ha => by
    obtain ⟨s', n, rfl⟩ := htail a ha
    rfl
  have h4 : totalOf (Act.receivedOn s) tail = 0 := totalOf_eq_zero fun a ha => by
    obtain ⟨s', n, rfl⟩ := htail a ha
    rfl
  rw [totalOf_append, totalOf_append]
  omega

end Refunding

section Single

variable {p : PairStorage} {A : AbsBook}

/-- One refund followed by its counter. -/
theorem effect_of_refund (p' : PairStorage) (msgs : List CosmosMsg) {user : Addr} {a : Act}
    {A' : AbsBook}
    (h : Refunding A user [a] A') (hwf : A.WellFormed) (hbal : A.Balanced) {s : LimitOrderSide}
    {n : ℕ} (ha : ∀ s', a.refunded s' = if s = s' then n else 0) {b' : Book}
    (hrep : Represents b' A') (hbook : p'.book = b'.saveEscrow s (A'.escrow s - n))
    (hinfo : p'.pairInfo = p.pairInfo)
    (hmsgs : ∀ token u, totalOf (CosmosMsg.sentTo token u) msgs =
      if p.pairInfo.escrowToken s = token ∧ user = u then n else 0) :
    n ≤ A'.escrow s ∧ ∃ acts A'', Effect A p user acts A'' p' msgs ∧
      ∀ s', totalOf (Act.releasedOn s') acts = (if s = s' then n else 0) ∧
        totalOf (Act.receivedOn s') acts = 0 := by
  have hle : n ≤ A'.escrow s := by
    have hc := h.covered hwf hbal s
    simpa [ha] using hc
  have htail : ∀ a' ∈ [Act.escrowSub s n], ∃ s n, a' = .escrowSub s n := by simp
  refine ⟨hle, [a] ++ [.escrowSub s n], _, h.effect (.single (.escrowSub A' s n hle)) ?_ htail ?_ ?_
    hinfo, fun s' => ?_⟩
  · rw [hbook]
    exact hrep.saveEscrow _
  · intro s'
    simp [Act.unbooked, ha]
  · intro token u
    rw [hmsgs]
    simp only [totalOf_cons, totalOf_nil, ha, Nat.add_zero, PairInfo.escrowToken]
    by_cases hu : u = user
    · subst hu
      cases s
      · simp [@eq_comm _ token p.pairInfo.token1]
      · simp [@eq_comm _ token p.pairInfo.token0]
    · simp [hu, Ne.symm hu]
  · obtain ⟨h1, h2⟩ := h.flow htail s'
    rw [h1, h2]
    simp [ha]

theorem executeCancelLimitOrder_spec (h : Represents p.book A) (hbal : A.Balanced) (sender : Addr)
    (orderId : OrderId) : Meets (executeCancelLimitOrder p sender orderId)
      (fun out => Operation A p sender (fun _ => 0) out ∧ out.1 = { p with book := out.1.book })
      (fun e => ¬e.Underflow) := by
  unfold executeCancelLimitOrder Book.load
  refine (orThrow_noUnderflow (by rintro ⟨_, _, ⟨⟩⟩)).bind fun o ho => ?_
  refine (ensure_noUnderflow (by rintro ⟨_, _, ⟨⟩⟩)).bind fun _ hown => ?_
  obtain ⟨b', hb', hrep⟩ := h.unlink ho
  have href := (Refunding.refl A sender).cancel (h.row ho) hown
  obtain ⟨hle, acts, A', heff, hflow⟩ := effect_of_refund (p := p) { p with book := _ }
    [.transfer (p.pairInfo.escrowToken o.side) o.owner o.remaining] href h.wf hbal
    (fun _ => rfl) hrep rfl rfl fun token u => by simp [CosmosMsg.sentTo, hown]
  simp only [hb', ok_bind, escrowSub_eq hrep hle]
  refine ⟨⟨acts, A', heff, fun hd => heff.conserves h rfl fun s => ?_⟩, rfl⟩
  obtain ⟨h1, h2⟩ := hflow s
  rw [h1, h2]
  simp [CosmosMsg.pulled, CosmosMsg.sent, PairInfo.escrowToken_inj hd]

theorem executeClaimExpiredLimitOrder_spec (h : Represents p.book A) (hbal : A.Balanced)
    (sender : Addr) (orderId : OrderId) : Meets (executeClaimExpiredLimitOrder p sender orderId)
      (fun out => Operation A p sender (fun _ => 0) out ∧ out.1 = { p with book := out.1.book })
      (fun e => ¬e.Underflow) := by
  unfold executeClaimExpiredLimitOrder loadClaim
  refine (orThrow_noUnderflow (by rintro ⟨_, _, ⟨⟩⟩)).bind fun r hr => ?_
  refine (ensure_noUnderflow (by rintro ⟨_, _, ⟨⟩⟩)).bind fun _ hown => ?_
  rw [h.claims] at hr
  have href := (Refunding.refl A sender).claim hr hown
  have hrep := h.saveClaim none (h.wf.step (.claim A orderId r hr))
  obtain ⟨hle, acts, A', heff, hflow⟩ := effect_of_refund (p := p) { p with book := _ }
    (maybeTransfer (p.pairInfo.escrowToken r.side) r.owner r.remaining) href h.wf hbal
    (fun _ => rfl) hrep rfl rfl fun token u => by simp [hown]
  simp only [escrowSub_eq h hle, ok_bind]
  refine ⟨⟨acts, A', heff, fun hd => heff.conserves h rfl fun s => ?_⟩, rfl⟩
  obtain ⟨h1, h2⟩ := hflow s
  rw [h1, h2]
  simp [PairInfo.escrowToken_inj hd]

end Single

section Batch

variable {p : PairStorage} {A : AbsBook} {user : Addr}

/-- The running refunds are the totals of what was taken out. -/
def Owes (A : AbsBook) (user : Addr) (st : RefundState) : Prop :=
  ∃ acts A', Refunding A user acts A' ∧ Represents st.book A' ∧
    ∀ s, st.refund s = totalOf (Act.refunded s) acts

theorem owe_spec {st : RefundState} {acts acts' : List Act} {A' : AbsBook} {b' : Book}
    {s : LimitOrderSide} {n : ℕ} (hst : ∀ s', st.refund s' = totalOf (Act.refunded s') acts)
    (h : Refunding A user (acts ++ acts') A') (hrep : Represents b' A')
    (hacts : ∀ s', totalOf (Act.refunded s') acts' = if s = s' then n else 0) :
    Meets (st.owe b' s n) (Owes A user) (fun e => ¬e.Underflow) := by
  unfold RefundState.owe
  refine ((meets_add (st.refund s) n).mono (fun _ h => h) ?_).bind ?_
  · rintro e ⟨rfl, -⟩ ⟨_, _, ⟨⟩⟩
  rintro total ⟨rfl, -⟩
  refine ⟨_, A', h, hrep, fun s' => ?_⟩
  rw [totalOf_append, hacts, ← hst]
  by_cases hs : s = s'
  · subst hs
    simp
  · simp [hs, Ne.symm hs]

theorem cancelOne_spec (st : RefundState) (orderId : OrderId) (h : Owes A user st) :
    Meets (cancelOne user st orderId) (Owes A user) (fun e => ¬e.Underflow) := by
  obtain ⟨acts, A', href, hrep, hst⟩ := h
  unfold cancelOne Book.load
  refine (orThrow_noUnderflow (by rintro ⟨_, _, ⟨⟩⟩)).bind fun o ho => ?_
  refine (ensure_noUnderflow (by rintro ⟨_, _, ⟨⟩⟩)).bind fun _ hown => ?_
  obtain ⟨b', hb', hrep'⟩ := hrep.unlink ho
  simp only [hb', ok_bind]
  exact owe_spec hst (href.cancel (hrep.row ho) hown) hrep' fun s' => by simp [Act.refunded]

theorem claimOne_spec (st : RefundState) (orderId : OrderId) (h : Owes A user st) :
    Meets (claimOne user st orderId) (Owes A user) (fun e => ¬e.Underflow) := by
  obtain ⟨acts, A', href, hrep, hst⟩ := h
  unfold claimOne loadClaim
  refine (orThrow_noUnderflow (by rintro ⟨_, _, ⟨⟩⟩)).bind fun r hr => ?_
  refine (ensure_noUnderflow (by rintro ⟨_, _, ⟨⟩⟩)).bind fun _ hown => ?_
  rw [hrep.claims] at hr
  exact owe_spec hst (href.claim hr hown)
    (hrep.saveClaim none (hrep.wf.step (.claim A' orderId r hr)))
    fun s' => by simp [Act.refunded]

theorem validateBatchOrderIds_noUnderflow (orderIds : List OrderId) :
    Meets (validateBatchOrderIds p orderIds) (fun _ => True) (fun e => ¬e.Underflow) := by
  unfold validateBatchOrderIds noRepeatedId
  refine (ensure_noUnderflow (by rintro ⟨_, _, ⟨⟩⟩)).bind fun _ _ => ?_
  refine (ensure_noUnderflow (by rintro ⟨_, _, ⟨⟩⟩)).bind fun _ _ => ?_
  cases firstRepeated [] orderIds with
  | none => exact trivial
  | some x => rintro ⟨_, _, ⟨⟩⟩

/-- Settle both counters after the last order was taken out. -/
theorem settle_spec {st : RefundState} (hwf : A.WellFormed) (hbal : A.Balanced)
    (h : Owes A user st) (path : EscrowPath) :
    ∃ b₁ b₂ acts tail A'', st.book.escrowSubPending .ask (st.refund .ask) path = .ok b₁ ∧
      b₁.escrowSubPending .bid (st.refund .bid) path = .ok b₂ ∧
      (∃ A', Refunding A user acts A' ∧ Run A' tail A'') ∧ Represents b₂ A'' ∧
      (∀ a ∈ tail, ∃ s n, a = .escrowSub s n) ∧
      (∀ s, totalOf (Act.unbooked s) tail = totalOf (Act.refunded s) acts) ∧
      ∀ s, st.refund s = totalOf (Act.refunded s) acts := by
  obtain ⟨acts, A', href, hrep, hst⟩ := h
  obtain ⟨b₁, acts₁, A₁, hb₁, hrun₁, hrep₁, hacts₁, htotal₁⟩ := escrowSubPending_run (s := .ask)
    (n := st.refund .ask) hrep (by rw [hst]; exact href.covered hwf hbal .ask) path
  have hle : st.refund .bid ≤ A₁.escrow .bid := by
    have h1 := hrun₁.escrow (s := .bid)
    have h2 := htotal₁ .bid
    have h3 := href.covered hwf hbal .bid
    rw [hst]
    rw [if_neg (by decide)] at h2
    omega
  obtain ⟨b₂, acts₂, A₂, hb₂, hrun₂, hrep₂, hacts₂, htotal₂⟩ := escrowSubPending_run hrep₁ hle path
  refine ⟨b₁, b₂, acts, acts₁ ++ acts₂, A₂, hb₁, hb₂, ⟨A', href, hrun₁.append hrun₂⟩, hrep₂, ?_, ?_,
    hst⟩
  · intro a ha
    rcases List.mem_append.1 ha with ha | ha
    · exact ⟨_, _, hacts₁ a ha⟩
    · exact ⟨_, _, hacts₂ a ha⟩
  · intro s
    rw [totalOf_append, htotal₁, htotal₂, ← hst]
    cases s <;> simp

theorem executeBatchRefund_spec (h : Represents p.book A) (hbal : A.Balanced) (sender : Addr)
    (orderIds : List OrderId)
    {takeOut : Addr → RefundState → OrderId → Except ContractError RefundState}
    (htake : ∀ st x, Owes A sender st →
      Meets (takeOut sender st x) (Owes A sender) (fun e => ¬e.Underflow))
    (path : EscrowPath) (attributes : Attributes) :
    Meets (executeBatchRefund p sender orderIds takeOut path attributes)
      (fun out => Operation A p sender (fun _ => 0) out ∧ out.1 = { p with book := out.1.book })
      (fun e => ¬e.Underflow) := by
  have hstart : Owes A sender ⟨p.book, fun _ => 0⟩ := ⟨[], A, .refl A sender, h, fun _ => rfl⟩
  unfold executeBatchRefund
  refine (validateBatchOrderIds_noUnderflow orderIds).bind fun _ _ => ?_
  refine (Meets.foldlM htake hstart).bind fun st hst => ?_
  obtain ⟨b₁, b₂, acts, tail, A'', hb₁, hb₂, ⟨A', href, hrun⟩, hrep, htail, htotal, hrefund⟩ :=
    settle_spec h.wf hbal hst path
  simp only [hb₁, hb₂, ok_bind]
  have heff : Effect A p sender (acts ++ tail) A'' { p with book := b₂ }
      (maybeTransfer p.pairInfo.token0 sender (st.refund .ask) ++
        maybeTransfer p.pairInfo.token1 sender (st.refund .bid)) := by
    refine href.effect hrun hrep htail htotal (fun token u => ?_) rfl
    simp only [totalOf_append, sentTo_maybeTransfer, hrefund]
    by_cases hu : u = sender
    · subst hu
      simp [@eq_comm _ token]
    · simp [hu, Ne.symm hu]
  refine ⟨⟨_, A'', heff, fun hd => heff.conserves h rfl fun s => ?_⟩, rfl⟩
  obtain ⟨h1, h2⟩ := href.flow htail s
  simp only [totalOf_append, pulled_maybeTransfer, sent_maybeTransfer, hrefund]
  rw [← totalOf_append, ← totalOf_append, h1, h2]
  cases s <;> simp [PairInfo.escrowToken, hd.assets, Ne.symm hd.assets]

theorem executeCancelLimitOrders_spec (h : Represents p.book A) (hbal : A.Balanced)
    (sender : Addr) (orderIds : List OrderId) :
    Meets (executeCancelLimitOrders p sender orderIds)
      (fun out => Operation A p sender (fun _ => 0) out ∧ out.1 = { p with book := out.1.book })
      (fun e => ¬e.Underflow) :=
  executeBatchRefund_spec h hbal sender orderIds cancelOne_spec _ _

theorem executeClaimExpiredLimitOrders_spec (h : Represents p.book A) (hbal : A.Balanced)
    (sender : Addr) (orderIds : List OrderId) :
    Meets (executeClaimExpiredLimitOrders p sender orderIds)
      (fun out => Operation A p sender (fun _ => 0) out ∧ out.1 = { p with book := out.1.book })
      (fun e => ¬e.Underflow) :=
  executeBatchRefund_spec h hbal sender orderIds claimOne_spec _ _

end Batch

end Cl8yDex

/-!
## What reprice and clean do

A reprice is one act on its owner's order, or none when the price stays. A clean only parks orders,
so it moves neither tokens nor counters.
-/

namespace Cl8yDex

open Outcome

variable {p : PairStorage} {A A' : AbsBook} {user : Addr}

/-- An operation that moves no amount. -/
theorem operation_of_still {p' : PairStorage} {acts : List Act} {r : Response}
    (h : Represents p.book A) (hrun : Run A acts A') (hrep : Represents p'.book A')
    (hkind : Kind A acts) (hauth : ∀ a ∈ acts, a.AuthorisedBy A user)
    (hstill : ∀ a ∈ acts, ∀ s, a.booked s = 0 ∧ a.unbooked s = 0 ∧ a.receivedOn s = 0 ∧
      a.releasedOn s = 0) (hnone : ∀ a ∈ acts, ¬a.Refunds) (hinfo : p'.pairInfo = p.pairInfo)
    (hreserves : p'.reserves = p.reserves) (hmsgs : r.messages = []) :
    Operation A p user (fun _ => 0) (p', r) := by
  have hzero : ∀ s, totalOf (Act.booked s) acts = 0 ∧ totalOf (Act.unbooked s) acts = 0 ∧
      totalOf (Act.receivedOn s) acts = 0 ∧ totalOf (Act.releasedOn s) acts = 0 := fun s =>
    ⟨totalOf_eq_zero fun a ha => (hstill a ha s).1, totalOf_eq_zero fun a ha => (hstill a ha s).2.1,
      totalOf_eq_zero fun a ha => (hstill a ha s).2.2.1,
      totalOf_eq_zero fun a ha => (hstill a ha s).2.2.2⟩
  have heff : Effect A p user acts A' p' r.messages := by
    refine ⟨hrun, hrep, fun s => ?_, hkind, hauth, fun hb s => ?_, ?_, hinfo⟩
    · obtain ⟨h1, h2, h3, h4⟩ := hzero s
      omega
    · have h1 := hrun.escrow (s := s)
      obtain ⟨h2, h3, -, -⟩ := hzero s
      have h4 := hb s
      omega
    · rintro ⟨a, ha, hr⟩
      exact absurd hr (hnone a ha)
  refine ⟨acts, A', heff, fun _ => heff.conserves h hreserves fun s => ?_⟩
  obtain ⟨-, -, h3, h4⟩ := hzero s
  rw [h3, h4, hmsgs]
  rfl

theorem queryPairAssetDecimals_noUnderflow (q : Querier) (info : PairInfo) :
    Meets (queryPairAssetDecimals q info) (fun _ => True) (fun e => ¬e.Underflow) := by
  unfold queryPairAssetDecimals
  refine (orThrow_noUnderflow (by rintro ⟨_, _, ⟨⟩⟩)).bind fun _ _ => ?_
  exact (orThrow_noUnderflow (by rintro ⟨_, _, ⟨⟩⟩)).bind fun _ _ => trivial

theorem executeUpdateLimitOrderPrice_spec (h : Represents p.book A) (q : Querier) (env : Env)
    (sender : Addr) (orderId : OrderId) (price : Decimal) (hintAfterOrderId : Option OrderId)
    (maxAdjustSteps : ℕ) :
    Meets (executeUpdateLimitOrderPrice p q env sender orderId price hintAfterOrderId
        maxAdjustSteps)
      (fun out => Operation A p sender (fun _ => 0) out ∧ out.1 = { p with book := out.1.book })
      (fun e => ¬e.Underflow) := by
  unfold executeUpdateLimitOrderPrice Book.load
  refine (queryPairAssetDecimals_noUnderflow q p.pairInfo).bind fun decimals _ => ?_
  refine (mapError_noUnderflow _ (by rintro _ ⟨_, _, ⟨⟩⟩)).bind fun _ _ => ?_
  refine (orThrow_noUnderflow (by rintro ⟨_, _, ⟨⟩⟩)).bind fun o ho => ?_
  refine (ensure_noUnderflow (by rintro ⟨_, _, ⟨⟩⟩)).bind fun _ hown => ?_
  refine (ensure_noUnderflow (by rintro ⟨_, _, ⟨⟩⟩)).bind fun _ _ => ?_
  refine (mapError_noUnderflow _ (by rintro _ ⟨_, _, ⟨⟩⟩)).bind fun _ _ => ?_
  have hrow := h.row ho
  by_cases hp : o.price = price
  · have hsame : relinkLimitOrderPrice p.book orderId price hintAfterOrderId maxAdjustSteps =
        .ok p.book := by
      simp only [relinkLimitOrderPrice, load_eq ho, ok_bind, if_pos hp]
      rfl
    rw [hsame, ok_bind]
    exact ⟨⟨[], A, .idle h rfl rfl, fun _ s => by simp [PairStorage.owed, Response.plain]⟩, rfl⟩
  · have hrelink := relinkLimitOrderPrice_spec h ho hp hintAfterOrderId maxAdjustSteps
    refine (hrelink.mono (fun _ hb => hb) ?_).bind fun b' hrep => ?_
    · rintro e ⟨m, rfl⟩ ⟨_, _, ⟨⟩⟩
    refine ⟨operation_of_still h (.single (.reprice A orderId o.toOrderTerms price hrow hp)) hrep
      (.repricing orderId price) ?_ ?_ ?_ rfl rfl rfl, rfl⟩
    · intro a ha
      rw [List.mem_singleton.1 ha]
      exact ⟨_, hrow, hown⟩
    · intro a ha s
      rw [List.mem_singleton.1 ha]
      exact ⟨rfl, rfl, rfl, rfl⟩
    · intro a ha
      rw [List.mem_singleton.1 ha]
      exact id

/-- Every act parks an order. -/
def Parks (acts : List Act) : Prop := ∀ a ∈ acts, ∃ x reason expiresAt, a = .park x reason expiresAt

def Cleaned (A : AbsBook) (b : Book) : Prop :=
  ∃ acts A', Run A acts A' ∧ Represents b A' ∧ Parks acts

theorem cleanStep_spec {st : CleanState} {orderId : OrderId} {order : LimitOrder}
    (h : Cleaned A st.book) (ho : st.book.orders orderId = some order) (now minRemaining : ℕ) :
    Meets (cleanStep now minRemaining st orderId order) (fun st' => Cleaned A st'.book)
      (fun e => ¬e.Underflow) := by
  obtain ⟨acts, A', hrun, hrep, hparks⟩ := h
  unfold cleanStep CleanState.park
  cases cleanReason now minRemaining order.toOrderTerms with
  | none => exact ⟨acts, A', hrun, hrep, hparks⟩
  | some reason =>
      obtain ⟨b', A'', hb', hstep, hrep', -⟩ := parkLimitOrderForClean_spec hrep ho reason _ rfl
      simp only [hb', ok_bind]
      refine ⟨acts ++ [.park orderId reason _], A'', hrun.append (.single hstep), hrep', ?_⟩
      intro a ha
      rcases List.mem_append.1 ha with ha | ha
      · exact hparks a ha
      · exact ⟨_, _, _, List.mem_singleton.1 ha⟩

theorem cleanWalk_spec (now minRemaining cap : ℕ) (steps : ℕ) (cur : Option OrderId)
    {st : CleanState} (h : Cleaned A st.book) :
    Meets (cleanWalk now minRemaining cap steps cur st) (fun out => Cleaned A out.1.book)
      (fun e => ¬e.Underflow) := by
  induction steps generalizing cur st with
  | zero =>
      cases cur with
      | none => exact h
      | some oid =>
          unfold cleanWalk
          split_ifs <;> exact h
  | succ steps ih =>
      cases cur with
      | none => exact h
      | some oid =>
          unfold cleanWalk Book.load
          by_cases hcap : cap ≤ st.cleanedCount
          · rw [if_pos hcap]
            exact h
          · rw [if_neg hcap]
            refine (orThrow_noUnderflow (by rintro ⟨_, _, ⟨⟩⟩)).bind fun order ho => ?_
            exact (cleanStep_spec h ho now minRemaining).bind fun st' hst' => ih order.next hst'

theorem cleanLimitBook_spec {b : Book} (h : Represents b A) (config : LimitCleanConfig) (now : ℕ)
    (side : LimitOrderSide) (maxOrders maxSteps : ℕ) (startHint : Option OrderId) :
    Meets (cleanLimitBook b config now side maxOrders maxSteps startHint)
      (fun out => Cleaned A out.1.book) (fun e => ¬e.Underflow) := by
  unfold cleanLimitBook
  refine (ensure_noUnderflow (by rintro ⟨_, _, ⟨⟩⟩)).bind fun _ _ => ?_
  refine (ensure_noUnderflow (by rintro ⟨_, _, ⟨⟩⟩)).bind fun _ _ => ?_
  exact cleanWalk_spec _ _ _ _ _ ⟨[], A, .nil A, h, by simp [Parks]⟩

theorem executeCleanLimitBook_spec (h : Represents p.book A) (env : Env) (side : LimitOrderSide)
    (maxOrders : ℕ) (startHint : Option OrderId) (maxSteps : Option ℕ) (user : Addr) :
    Meets (executeCleanLimitBook p env side maxOrders startHint maxSteps)
      (fun out => Operation A p user (fun _ => 0) out ∧ out.1 = { p with book := out.1.book })
      (fun e => ¬e.Underflow) := by
  unfold executeCleanLimitBook
  refine (cleanLimitBook_spec h _ _ _ _ _ _).bind fun out hout => ?_
  obtain ⟨acts, A', hrun, hrep, hparks⟩ := hout
  refine ⟨operation_of_still h hrun hrep (.draining fun a ha => ?_) (fun a ha => ?_)
    (fun a ha s => ?_) (fun a ha => ?_) rfl rfl rfl, rfl⟩ <;>
  · obtain ⟨x, reason, expiresAt, rfl⟩ := hparks a ha
    first | exact trivial | exact ⟨rfl, rfl, rfl, rfl⟩ | exact id

end Cl8yDex
