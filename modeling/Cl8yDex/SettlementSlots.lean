import Cl8yDex.SinkShares

/-!
# Settlement slots

What an accepted settlement does to the replay record, when a slot is accepted, and what a rotation
leaves of the record.
-/

namespace Cl8yDex.CommunityTax

open Outcome

section Record

variable {record : Option SettlementConsumption} {router : Addr} {ctx : RouteTaxContextResponse}
  {state r : SettlementConsumption} {routeId slot : ℕ}

/-- Either a newer route takes the record over, or the one that holds it uses one more slot. -/
theorem consumeFrom_eq_ok (h : consumeFrom state router routeId slot = .ok r) :
    state.router = router ∧ r.router = router ∧ r.routeId = routeId ∧
      (state.routeId < routeId ∧ r.slots = [slot] ∨
        state.routeId = routeId ∧ state.slots ≠ [] ∧ slot ∉ state.slots ∧
          r.slots = state.slots ++ [slot]) := by
  obtain ⟨_, hfresh, h⟩ := bind_eq_ok.1 h
  obtain ⟨hrouter, hle, hused⟩ := ensure_eq_ok.1 hfresh
  by_cases hlt : state.routeId < routeId
  · rw [if_pos hlt] at h
    cases h
    exact ⟨hrouter, hrouter, rfl, .inl ⟨hlt, rfl⟩⟩
  · rw [if_neg hlt] at h
    obtain ⟨_, hne, h⟩ := bind_eq_ok.1 h
    have heq : state.routeId = routeId := by omega
    cases h
    refine ⟨hrouter, hrouter, heq, .inr ⟨heq, ensure_eq_ok.1 hne, fun hmem => ?_, rfl⟩⟩
    exact hused ⟨heq.symm, hmem⟩

theorem consumeFrom_newer (hrouter : state.router = router) (hnewer : state.routeId < routeId) :
    consumeFrom state router routeId slot = .ok ⟨router, routeId, [slot]⟩ := by
  unfold consumeFrom
  rw [ensure_pos ⟨hrouter, hnewer.le, by omega⟩, ok_bind, if_pos hnewer, hrouter]
  rfl

theorem consumeFrom_again {slots : List ℕ} (hne : slots ≠ []) (hunused : slot ∉ slots) :
    consumeFrom ⟨router, routeId, slots⟩ router routeId slot =
      .ok ⟨router, routeId, slots ++ [slot]⟩ := by
  unfold consumeFrom
  rw [ensure_pos ⟨rfl, le_rfl, fun hc => hunused hc.2⟩, ok_bind, if_neg (lt_irrefl _),
    ensure_pos hne]
  rfl

theorem consume_eq (hid : ctx.routeId ≠ 0) (hlen : ctx.transfers.length ≤ maxSettlementSlots)
    (hslot : slot < maxSettlementSlots) : consume record router ctx slot =
      consumeFrom (recordOr record router) router ctx.routeId slot := by
  unfold consume
  rw [ensure_pos ⟨hid, hlen, hslot⟩, ok_bind]

theorem consume_used {slots : List ℕ} (hused : slot ∈ slots) :
    consume (some ⟨router, ctx.routeId, slots⟩) router ctx slot = .error .routeTaxContext := by
  unfold consume ensure
  split_ifs with hfit
  · unfold consumeFrom ensure
    rw [ok_bind, if_neg fun hc => hc.2.2 ⟨rfl, hused⟩]
    rfl
  · rfl

/-- The record after a sequence of settlements of one route. -/
def consumeAll (record : Option SettlementConsumption) (router : Addr)
    (ctx : RouteTaxContextResponse) (slots : List ℕ) :
    Except ContractError (Option SettlementConsumption) :=
  slots.foldlM (fun record slot => some <$> consume record router ctx slot) record

theorem consumeAll_begun {done slots : List ℕ} (hid : ctx.routeId ≠ 0)
    (hlen : ctx.transfers.length ≤ maxSettlementSlots)
    (hslots : ∀ slot ∈ slots, slot < maxSettlementSlots) (hne : done ≠ [])
    (hnodup : (done ++ slots).Nodup) :
    consumeAll (some ⟨router, ctx.routeId, done⟩) router ctx slots =
      .ok (some ⟨router, ctx.routeId, done ++ slots⟩) := by
  induction slots generalizing done with
  | nil =>
      rw [List.append_nil]
      rfl
  | cons slot slots ih =>
      have hunused : slot ∉ done := by
        intro hmem
        exact List.disjoint_of_nodup_append hnodup hmem (List.mem_cons_self ..)
      have hdone : done ++ [slot] ≠ [] :=
        List.append_ne_nil_of_right_ne_nil _ (List.cons_ne_nil _ _)
      have hrest := ih (fun t ht => hslots t (List.mem_cons_of_mem _ ht)) hdone
        (by simpa using hnodup)
      unfold consumeAll at hrest ⊢
      rw [List.foldlM_cons, consume_eq hid hlen (hslots slot (List.mem_cons_self ..)), recordOr,
        Option.getD_some, consumeFrom_again hne hunused]
      simpa using hrest

/-- The slots of a route that is newer than the record can be used in any order. -/
theorem consumeAll_newer {slot : ℕ} {slots : List ℕ} (hid : ctx.routeId ≠ 0)
    (hlen : ctx.transfers.length ≤ maxSettlementSlots)
    (hslots : ∀ t ∈ slot :: slots, t < maxSettlementSlots) (hnodup : (slot :: slots).Nodup)
    (hrouter : (recordOr record router).router = router)
    (hnewer : (recordOr record router).routeId < ctx.routeId) :
    consumeAll record router ctx (slot :: slots) =
      .ok (some ⟨router, ctx.routeId, slot :: slots⟩) := by
  unfold consumeAll
  rw [List.foldlM_cons, consume_eq hid hlen (hslots slot (List.mem_cons_self ..)),
    consumeFrom_newer hrouter hnewer]
  exact consumeAll_begun hid hlen (fun t ht => hslots t (List.mem_cons_of_mem _ ht))
    (List.cons_ne_nil slot []) hnodup

end Record

section Calls

variable {s s' : Storage} {host : Host} {env : Env} {sender recipient : Addr}
  {ctx : RouteTaxContextResponse} {slot amount : ℕ} {record : SettlementConsumption}

/-- What a settlement needs besides its slot. -/
structure Payable (s : Storage) (host : Host) (env : Env) (sender : Addr) (slot : ℕ)
    (recipient : Addr) (amount : ℕ) (ctx : RouteTaxContextResponse) : Prop where
  official : isOfficialRouter s.config sender
  valid : host.addrValidate recipient = .ok recipient
  context : routeContext host s.config = .ok ctx
  published : ⟨slot, env.contract, recipient, amount⟩ ∈ ctx.transfers
  fits : s.balances recipient + amount ≤ u128Max
  guards : applyLaunchGuards s env sender recipient none .honest amount
    (s.balances recipient + amount) (restoresOwnedInput env ctx recipient amount) = .ok ()
  covered : amount ≤ s.balances sender

theorem routeContext_eq_ok {config : Config} (h : routeContext host config = .ok ctx) :
    ∃ router, config.router = some router ∧ host.routeTaxContext router = some ctx ∧
      ctx.routeId ≠ 0 := by
  obtain ⟨router, hrouter, h⟩ := bind_eq_ok.1 h
  obtain ⟨answer, hanswer, h⟩ := bind_eq_ok.1 h
  obtain ⟨_, hversion, h⟩ := bind_eq_ok.1 h
  rw [orThrow_eq_ok] at hrouter hanswer
  cases h
  exact ⟨router, hrouter, hanswer, (ensure_eq_ok.1 hversion).2⟩

theorem isOfficialRouter_iff {config : Config} :
    isOfficialRouter config sender ↔ config.router = some sender := by
  unfold isOfficialRouter
  simp

theorem moveBalance_isOk {balances : Addr → ℕ} (hcovered : amount ≤ balances sender)
    (hfits : balances recipient + amount ≤ u128Max) :
    ∃ debited credited, subBalance balances sender amount = .ok debited ∧
      addBalance debited recipient amount = .ok credited := by
  have hle : Function.update balances sender (balances sender - amount) recipient ≤
      balances recipient := by
    by_cases hr : recipient = sender
    · rw [hr, Function.update_self]
      omega
    · rw [Function.update_of_ne hr]
  exact ⟨_, _, subBalance_of_le hcovered, addBalance_of_le (by omega)⟩

/-- A settlement goes through exactly when it is payable and its slot is accepted. -/
theorem executeRouteTransfer_iff :
    (∃ s', executeRouteTransfer s host env sender slot recipient amount = .ok s' ∧
      s'.settlementConsumption = some record) ↔
    ∃ ctx, Payable s host env sender slot recipient amount ctx ∧
      consume s.settlementConsumption sender ctx slot = .ok record := by
  constructor
  · intro ⟨s', h, hrecord⟩
    obtain ⟨_, hofficial, h⟩ := bind_eq_ok.1 h
    obtain ⟨dst, hdst, h⟩ := bind_eq_ok.1 h
    rw [addrValidate_eq_ok hdst] at h hdst
    obtain ⟨ctx, hctx, h⟩ := bind_eq_ok.1 h
    obtain ⟨_, hpublished, h⟩ := bind_eq_ok.1 h
    obtain ⟨toBal, hfits, h⟩ := bind_eq_ok.1 h
    obtain ⟨_, hguards, h⟩ := bind_eq_ok.1 h
    obtain ⟨r, hr, h⟩ := bind_eq_ok.1 h
    obtain ⟨debited, hdebited, h⟩ := bind_eq_ok.1 h
    obtain ⟨credited, -, h⟩ := bind_eq_ok.1 h
    rw [orThrow_eq_ok, checkedAdd_eq_some] at hfits
    rw [hfits.2] at hguards
    cases h
    cases hrecord
    exact ⟨ctx, ⟨ensure_eq_ok.1 hofficial, hdst, hctx, ensure_eq_ok.1 hpublished, hfits.1,
      hguards, (subBalance_eq_ok hdebited).1⟩, hr⟩
  · intro ⟨ctx, hp, hr⟩
    obtain ⟨debited, credited, hdebited, hcredited⟩ := moveBalance_isOk hp.covered hp.fits
    refine ⟨{ s with balances := credited, settlementConsumption := some record }, ?_, rfl⟩
    have hsum : checkedAdd (s.balances recipient) amount =
        some (s.balances recipient + amount) := if_pos hp.fits
    unfold executeRouteTransfer
    rw [ensure_pos hp.official, ok_bind, hp.valid, ok_bind, hp.context, ok_bind,
      ensure_pos hp.published, ok_bind, hsum]
    simp only [orThrow, ok_bind, hp.guards, hr, hdebited, hcredited]
    rfl

theorem executeRouteTransfer_record
    (h : executeRouteTransfer s host env sender slot recipient amount = .ok s') :
    s'.config = s.config ∧ s.config.router = some sender ∧ ∃ ctx record,
      host.routeTaxContext sender = some ctx ∧ s'.settlementConsumption = some record ∧
      consume s.settlementConsumption sender ctx slot = .ok record := by
  obtain ⟨_, hofficial, h⟩ := bind_eq_ok.1 h
  obtain ⟨dst, -, h⟩ := bind_eq_ok.1 h
  obtain ⟨ctx, hctx, h⟩ := bind_eq_ok.1 h
  obtain ⟨_, -, h⟩ := bind_eq_ok.1 h
  obtain ⟨toBal, -, h⟩ := bind_eq_ok.1 h
  obtain ⟨_, -, h⟩ := bind_eq_ok.1 h
  obtain ⟨record, hrecord, h⟩ := bind_eq_ok.1 h
  obtain ⟨debited, -, h⟩ := bind_eq_ok.1 h
  obtain ⟨credited, -, h⟩ := bind_eq_ok.1 h
  have hsender := isOfficialRouter_iff.1 (ensure_eq_ok.1 hofficial)
  obtain ⟨router, hrouter, hanswer, -⟩ := routeContext_eq_ok hctx
  rw [hsender] at hrouter
  cases hrouter
  cases h
  exact ⟨rfl, hsender, ctx, record, hanswer, rfl, hrecord⟩

theorem candidateFloor_eq_ok {authority : Option Addr} {candidate : Addr} {codeId : Option ℕ}
    {checksum : Option (List ℕ)} {floor : ℕ}
    (h : candidateFloor s host authority candidate codeId checksum = .ok floor) :
    (∃ c, host.routerConfig candidate = some c ∧ c.lastRouteId ≤ floor) ∧
      ∀ r, s.settlementConsumption = some r → r.router = candidate → r.routeId ≤ floor := by
  obtain ⟨id, -, h⟩ := bind_eq_ok.1 h
  obtain ⟨sum, -, h⟩ := bind_eq_ok.1 h
  obtain ⟨live, -, h⟩ := bind_eq_ok.1 h
  obtain ⟨code, -, h⟩ := bind_eq_ok.1 h
  obtain ⟨_, -, h⟩ := bind_eq_ok.1 h
  obtain ⟨capability, hcapability, h⟩ := bind_eq_ok.1 h
  obtain ⟨_, -, h⟩ := bind_eq_ok.1 h
  rw [orThrow_eq_ok] at hcapability
  cases hr : s.settlementConsumption with
  | none =>
      rw [hr] at h
      cases h
      exact ⟨⟨capability, hcapability, le_rfl⟩, fun r hr => by cases hr⟩
  | some r =>
      rw [hr] at h
      by_cases hrouter : r.router = candidate
      · simp only [if_pos hrouter] at h
        cases h
        refine ⟨⟨capability, hcapability, by omega⟩, fun r' hr' _ => ?_⟩
        cases hr'
        omega
      · simp only [if_neg hrouter] at h
        cases h
        refine ⟨⟨capability, hcapability, le_rfl⟩, fun r' hr' hc => ?_⟩
        cases hr'
        exact absurd hc hrouter

/-- A rotation leaves no record, or an empty one at a floor that covers what came before. -/
theorem rotate_record {router : Option Addr} {codeId : Option ℕ} {checksum : Option (List ℕ)}
    (h : rotate s host env sender router codeId checksum = .ok s') :
    s'.settlementConsumption = none ∧ s'.config.router = none ∨
      ∃ candidate floor c, s'.settlementConsumption = some ⟨candidate, floor, []⟩ ∧
        s'.config.router = some candidate ∧ host.routerConfig candidate = some c ∧
        c.lastRouteId ≤ floor ∧
        ∀ r, s.settlementConsumption = some r → r.router = candidate → r.routeId ≤ floor := by
  obtain ⟨contract, -, h⟩ := bind_eq_ok.1 h
  obtain ⟨authority, -, h⟩ := bind_eq_ok.1 h
  obtain ⟨candidate, -, h⟩ := bind_eq_ok.1 h
  obtain ⟨record, hrecord, h⟩ := bind_eq_ok.1 h
  cases h
  cases candidate with
  | none =>
      obtain ⟨_, -, hrecord⟩ := bind_eq_ok.1 hrecord
      cases hrecord
      exact .inl ⟨rfl, rfl⟩
  | some candidate =>
      obtain ⟨floor, hfloor, hrecord⟩ := bind_eq_ok.1 hrecord
      cases hrecord
      obtain ⟨⟨c, hc, hle⟩, hprev⟩ := candidateFloor_eq_ok hfloor
      exact .inr ⟨candidate, floor, c, rfl, rfl, hc, hle, hprev⟩

end Calls

end Cl8yDex.CommunityTax
