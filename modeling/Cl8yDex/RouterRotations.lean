import Cl8yDex.SettlementSlots

/-!
# Single use across rotations

A network of routers around one token. Each router issues growing route ids, reports an id no
smaller than any it has issued, and shows a context only for its live route. Over every sequence of
settlements and rotations the single replay record, with the floors of the rotations, is enough to
keep every slot from being used twice.
-/

namespace Cl8yDex.CommunityTax

open Outcome

/-- The token, and what each router has issued and has live. -/
structure Network where
  token : Storage
  issued : Addr → ℕ
  live : Addr → Option ℕ

/-- A context is shown for the live route only, and the reported id is no smaller than any issued
one. -/
structure Network.Answers (net : Network) (host : Host) : Prop where
  live : ∀ r ctx, host.routeTaxContext r = some ctx → net.live r = some ctx.routeId
  reported : ∀ r c, host.routerConfig r = some c → net.issued r ≤ c.lastRouteId

inductive Event
  | consumed (router : Addr) (routeId slot : ℕ)
  | rotated (router : Addr) (baseline : ℕ)
  deriving DecidableEq

/-- What a rotation leaves in the log. -/
def rotation (record : Option SettlementConsumption) : List Event :=
  record.toList.map fun r => .rotated r.router r.routeId

inductive NetStep : Network → List Event → Network → Prop
  | issue (net : Network) (r : Addr) (id : ℕ) (h : net.issued r < id) :
      NetStep net [] ⟨net.token, Function.update net.issued r id,
        Function.update net.live r (some id)⟩
  | finish (net : Network) (r : Addr) :
      NetStep net [] ⟨net.token, net.issued, Function.update net.live r none⟩
  | settle {net : Network} {host : Host} {env : Env} {sender recipient : Addr}
      {slot amount : ℕ} {ctx : RouteTaxContextResponse} {token : Storage}
      (hanswers : net.Answers host) (hctx : host.routeTaxContext sender = some ctx)
      (h : executeRouteTransfer net.token host env sender slot recipient amount = .ok token) :
      NetStep net [.consumed sender ctx.routeId slot] { net with token := token }
  | rotate {net : Network} {host : Host} {env : Env} {sender : Addr} {router : Option Addr}
      {codeId : Option ℕ} {checksum : Option (List ℕ)} {token : Storage}
      (hanswers : net.Answers host)
      (h : rotate net.token host env sender router codeId checksum = .ok token) :
      NetStep net (rotation token.settlementConsumption) { net with token := token }
  | other {net : Network} {token : Storage}
      (hrouter : token.config.router = net.token.config.router)
      (hrecord : token.settlementConsumption = net.token.settlementConsumption) :
      NetStep net [] { net with token := token }

/-- A run from a token that has settled nothing yet. The log has its newest event first. -/
inductive NetRun : Network → List Event → Prop
  | start {net : Network} (hrecord : net.token.settlementConsumption = none)
      (hlive : ∀ r id, net.live r = some id → id ≤ net.issued r) : NetRun net []
  | step {net net' : Network} {log es : List Event} (h : NetRun net log)
      (hstep : NetStep net es net') : NetRun net' (es ++ log)

/-- The baseline of the latest rotation to a router. -/
def latestBaseline (router : Addr) : List Event → ℕ
  | [] => 0
  | .rotated r baseline :: log => if r = router then baseline else latestBaseline router log
  | .consumed _ _ _ :: log => latestBaseline router log

/-- A settlement, against all that happened before it. -/
structure Follows (log : List Event) (router : Addr) (routeId slot : ℕ) : Prop where
  newest : ∀ id t, .consumed router id t ∈ log → id ≤ routeId
  unused : .consumed router routeId slot ∉ log
  above : latestBaseline router log < routeId

def Ordered : List Event → Prop
  | [] => True
  | .consumed router routeId slot :: log => Follows log router routeId slot ∧ Ordered log
  | .rotated _ _ :: log => Ordered log

/-- How the record, the floors and the routers' counters bound the log. -/
structure Guarded (net : Network) (log : List Event) : Prop where
  live_le : ∀ r id, net.live r = some id → id ≤ net.issued r
  consumed_le : ∀ r id t, .consumed r id t ∈ log → id ≤ net.issued r
  fresh : net.token.settlementConsumption = none → net.token.config.router = none ∨ log = []
  recorded : ∀ r, net.token.settlementConsumption = some r →
    net.token.config.router = some r.router ∧
    (∀ id t, .consumed r.router id t ∈ log → id ≤ r.routeId) ∧
    (r.slots ≠ [] → ∀ t, .consumed r.router r.routeId t ∈ log → t ∈ r.slots) ∧
    latestBaseline r.router log ≤ r.routeId ∧
    (r.slots ≠ [] → latestBaseline r.router log < r.routeId)
  ordered : Ordered log

section Invariant

variable {net net' : Network} {log es : List Event}

theorem Guarded.start (hrecord : net.token.settlementConsumption = none)
    (hlive : ∀ r id, net.live r = some id → id ≤ net.issued r) : Guarded net [] where
  live_le := hlive
  consumed_le _ _ _ h := by cases h
  fresh _ := .inr rfl
  recorded r hr := by
    rw [hrecord] at hr
    cases hr
  ordered := trivial

theorem Guarded.issue (h : Guarded net log) {r : Addr} {id : ℕ} (hid : net.issued r < id) :
    Guarded ⟨net.token, Function.update net.issued r id, Function.update net.live r (some id)⟩
      log where
  live_le q i hi := by
    simp only at hi ⊢
    by_cases hq : q = r
    · rw [hq, Function.update_self] at hi ⊢
      cases hi
      exact le_rfl
    · rw [Function.update_of_ne hq] at hi ⊢
      exact h.live_le q i hi
  consumed_le q i t hmem := by
    have hle := h.consumed_le q i t hmem
    simp only
    by_cases hq : q = r
    · rw [hq] at hle
      rw [hq, Function.update_self]
      omega
    · rw [Function.update_of_ne hq]
      exact hle
  fresh := h.fresh
  recorded := h.recorded
  ordered := h.ordered

theorem Guarded.finish (h : Guarded net log) (r : Addr) :
    Guarded ⟨net.token, net.issued, Function.update net.live r none⟩ log where
  live_le q i hi := by
    simp only at hi
    by_cases hq : q = r
    · rw [hq, Function.update_self] at hi
      cases hi
    · rw [Function.update_of_ne hq] at hi
      exact h.live_le q i hi
  consumed_le := h.consumed_le
  fresh := h.fresh
  recorded := h.recorded
  ordered := h.ordered

/-- What the stored record says about an id that the next settlement may use. -/
theorem Guarded.accepts (h : Guarded net log) {sender : Addr} {routeId slot : ℕ}
    {r : SettlementConsumption} (hrouter : net.token.config.router = some sender)
    (hid : routeId ≠ 0)
    (hr : consumeFrom (recordOr net.token.settlementConsumption sender) sender routeId slot =
      .ok r) :
    r.router = sender ∧ r.routeId = routeId ∧ slot ∈ r.slots ∧ Follows log sender routeId slot ∧
      ∀ t, .consumed sender routeId t ∈ log → t ∈ r.slots := by
  obtain ⟨hstate, hsender, hroute, hcases⟩ := consumeFrom_eq_ok hr
  cases hrec : net.token.settlementConsumption with
  | none =>
      rw [hrec] at hcases
      have hnil : log = [] := by
        rcases h.fresh hrec with hnone | hnil
        · rw [hrouter] at hnone
          cases hnone
        · exact hnil
      subst hnil
      have hslots : r.slots = [slot] := by
        rcases hcases with ⟨-, hs⟩ | ⟨-, hne, -⟩
        · exact hs
        · exact absurd rfl hne
      rw [hslots]
      refine ⟨hsender, hroute, List.mem_singleton_self slot, ⟨?_, ?_, ?_⟩, ?_⟩
      · intro id t hmem
        cases hmem
      · intro hmem
        cases hmem
      · exact Nat.pos_of_ne_zero hid
      · intro t hmem
        cases hmem
  | some state =>
      rw [hrec] at hcases hstate
      obtain ⟨-, hids, hslots, hbase, hbase'⟩ := h.recorded state hrec
      change state.router = sender at hstate
      rw [hstate] at hids hslots hbase hbase'
      rcases hcases with ⟨hlt, hs⟩ | ⟨heq, hne, hnew, hs⟩
      · change state.routeId < routeId at hlt
        have hnone : ∀ t, .consumed sender routeId t ∉ log := by
          intro t hmem
          have hle := hids routeId t hmem
          omega
        rw [hs]
        refine ⟨hsender, hroute, List.mem_singleton_self slot, ⟨?_, hnone slot, ?_⟩, ?_⟩
        · intro id t hmem
          have hle := hids id t hmem
          omega
        · omega
        · intro t hmem
          exact absurd hmem (hnone t)
      · change state.routeId = routeId at heq
        change state.slots ≠ [] at hne
        change slot ∉ state.slots at hnew
        change r.slots = state.slots ++ [slot] at hs
        rw [heq] at hids hslots hbase'
        rw [hs]
        refine ⟨hsender, hroute, by simp, ⟨hids, ?_, hbase' hne⟩, ?_⟩
        · intro hmem
          exact hnew (hslots hne slot hmem)
        · intro t hmem
          exact List.mem_append_left _ (hslots hne t hmem)

theorem Guarded.settle (h : Guarded net log) {host : Host} {env : Env} {sender recipient : Addr}
    {slot amount : ℕ} {ctx : RouteTaxContextResponse} {token : Storage}
    (hanswers : net.Answers host) (hctx : host.routeTaxContext sender = some ctx)
    (hcall : executeRouteTransfer net.token host env sender slot recipient amount = .ok token) :
    Guarded { net with token := token } (.consumed sender ctx.routeId slot :: log) := by
  obtain ⟨hconfig, hrouter, ctx', r, hctx', hrec, hr⟩ := executeRouteTransfer_record hcall
  rw [hctx] at hctx'
  cases hctx'
  obtain ⟨_, hfit, hr⟩ := bind_eq_ok.1 hr
  have hid := (ensure_eq_ok.1 hfit).1
  have hissued := h.live_le sender ctx.routeId (hanswers.live sender ctx hctx)
  obtain ⟨hsender, hroute, hmine, hfollows, hslots⟩ := h.accepts hrouter hid hr
  constructor
  · exact h.live_le
  · intro q i t hmem
    rcases List.mem_cons.1 hmem with heq | hmem
    · cases heq
      exact hissued
    · exact h.consumed_le q i t hmem
  · intro hnone
    rw [hrec] at hnone
    cases hnone
  · intro r' hr'
    rw [hrec] at hr'
    cases hr'
    rw [hsender, hroute]
    refine ⟨?_, ?_, ?_, ?_, ?_⟩
    · change token.config.router = some sender
      rw [hconfig, hrouter]
    · intro id t hmem
      rcases List.mem_cons.1 hmem with heq | hmem
      · cases heq
        exact le_rfl
      · exact hfollows.newest id t hmem
    · intro _ t hmem
      rcases List.mem_cons.1 hmem with heq | hmem
      · cases heq
        exact hmine
      · exact hslots t hmem
    · exact hfollows.above.le
    · exact fun _ => hfollows.above
  · exact ⟨hfollows, h.ordered⟩

theorem Guarded.rotate (h : Guarded net log) {host : Host} {env : Env} {sender : Addr}
    {router : Option Addr} {codeId : Option ℕ} {checksum : Option (List ℕ)} {token : Storage}
    (hanswers : net.Answers host)
    (hcall : rotate net.token host env sender router codeId checksum = .ok token) :
    Guarded { net with token := token } (rotation token.settlementConsumption ++ log) := by
  rcases rotate_record hcall with ⟨hrec, hrouter⟩ | ⟨candidate, floor, c, hrec, hrouter, hc, hle, -⟩
  · rw [hrec]
    refine ⟨h.live_le, h.consumed_le, fun _ => .inl hrouter, fun r hr => ?_, h.ordered⟩
    rw [hrec] at hr
    cases hr
  · have hfloor := (hanswers.reported candidate c hc).trans hle
    rw [hrec]
    change Guarded _ (.rotated candidate floor :: log)
    constructor
    · exact h.live_le
    · intro q i t hmem
      rcases List.mem_cons.1 hmem with heq | hmem
      · cases heq
      · exact h.consumed_le q i t hmem
    · intro hnone
      rw [hrec] at hnone
      cases hnone
    · intro r hr
      rw [hrec] at hr
      cases hr
      refine ⟨hrouter, fun id t hmem => ?_, fun hne => absurd rfl hne, ?_,
        fun hne => absurd rfl hne⟩
      · rcases List.mem_cons.1 hmem with heq | hmem
        · cases heq
        · exact (h.consumed_le candidate id t hmem).trans hfloor
      · rw [latestBaseline, if_pos rfl]
    · exact h.ordered

theorem Guarded.step (h : Guarded net log) (hstep : NetStep net es net') :
    Guarded net' (es ++ log) := by
  cases hstep with
  | issue r id hid => exact h.issue hid
  | finish r => exact h.finish r
  | settle hanswers hctx hcall => exact h.settle hanswers hctx hcall
  | rotate hanswers hcall => exact h.rotate hanswers hcall
  | other hrouter hrecord =>
      refine ⟨h.live_le, h.consumed_le, fun hr => ?_, fun r hr => ?_, h.ordered⟩
      · rw [hrecord] at hr
        rw [hrouter]
        exact h.fresh hr
      · rw [hrecord] at hr
        rw [hrouter]
        exact h.recorded r hr

theorem NetRun.guarded (h : NetRun net log) : Guarded net log := by
  induction h with
  | start hrecord hlive => exact Guarded.start hrecord hlive
  | step _ hstep ih => exact ih.step hstep

theorem Ordered.follows {later earlier : List Event} {router : Addr} {routeId slot : ℕ}
    (h : Ordered (later ++ .consumed router routeId slot :: earlier)) :
    Follows earlier router routeId slot := by
  induction later with
  | nil => exact h.1
  | cons e later ih =>
      cases e with
      | consumed r i t => exact ih h.2
      | rotated r b => exact ih h

theorem Ordered.count_le_one (h : Ordered log) (router : Addr) (routeId slot : ℕ) :
    log.count (.consumed router routeId slot) ≤ 1 := by
  induction log with
  | nil => exact Nat.zero_le 1
  | cons e log ih =>
      cases e with
      | rotated r b =>
          rw [List.count_cons_of_ne (by simp)]
          exact ih h
      | consumed r i t =>
          by_cases he : Event.consumed r i t = .consumed router routeId slot
          · cases he
            rw [List.count_cons_self, List.count_eq_zero.2 h.1.unused]
          · rw [List.count_cons_of_ne he]
            exact ih h.2

end Invariant

/-- No slot is consumed twice, no older route after a newer one, and no id at or below the baseline
of the latest rotation to its router; a route newer than the record can use its slots once each,
in any order. -/
theorem settlement_single_use {net : Network} {log : List Event} (h : NetRun net log) :
    (∀ router routeId slot, log.count (.consumed router routeId slot) ≤ 1) ∧
    (∀ later earlier router routeId slot,
      log = later ++ .consumed router routeId slot :: earlier →
        (∀ id t, .consumed router id t ∈ earlier → id ≤ routeId) ∧
        latestBaseline router earlier < routeId ∧
        ((∀ b, .rotated router b ∈ earlier → b ≤ latestBaseline router earlier) →
          ∀ b, .rotated router b ∈ earlier → b < routeId)) ∧
    (∀ router ctx, net.token.config.router = some router →
      (recordOr net.token.settlementConsumption router).routeId < ctx.routeId →
      ctx.transfers.length ≤ maxSettlementSlots → ∀ slots : List ℕ, slots ≠ [] → slots.Nodup →
      (∀ slot ∈ slots, slot < maxSettlementSlots) →
        consumeAll net.token.settlementConsumption router ctx slots =
          .ok (some ⟨router, ctx.routeId, slots⟩) ∧
        ∀ slot ∈ slots, consume (some ⟨router, ctx.routeId, slots⟩) router ctx slot =
          .error .routeTaxContext) ∧
    ∀ s host env sender slot recipient amount record,
      (∃ s', executeRouteTransfer s host env sender slot recipient amount = .ok s' ∧
        s'.settlementConsumption = some record) ↔
      ∃ ctx, Payable s host env sender slot recipient amount ctx ∧
        consume s.settlementConsumption sender ctx slot = .ok record := by
  have hguarded := h.guarded
  refine ⟨hguarded.ordered.count_le_one, ?_, ?_, ?_⟩
  · intro later earlier router routeId slot hlog
    have hordered := hguarded.ordered
    rw [hlog] at hordered
    have hfollows := hordered.follows
    refine ⟨hfollows.newest, hfollows.above, fun hsteady b hb => ?_⟩
    have hle := hsteady b hb
    have habove := hfollows.above
    omega
  · intro router ctx hrouter hnewer hlen slots hne hnodup hslots
    have hmine : (recordOr net.token.settlementConsumption router).router = router := by
      cases hrec : net.token.settlementConsumption with
      | none => rfl
      | some r =>
          have htrusted := (hguarded.recorded r hrec).1
          rw [hrouter] at htrusted
          cases htrusted
          rfl
    cases slots with
    | nil => exact absurd rfl hne
    | cons slot slots =>
        constructor
        · exact consumeAll_newer (by omega) hlen hslots hnodup hmine hnewer
        · exact fun t ht => consume_used ht
  · exact fun s host env sender slot recipient amount record => executeRouteTransfer_iff

section Sample

/-- Router 20 reports `report` as its last route id, router 21 reports none. -/
def sampleRouters (report : ℕ) : Host where
  validAddr _ := true
  routeTaxContext _ := none
  routerConfig a := some ⟨1, 1, 2, if a = 20 then report else 0⟩
  contractInfo a := some ⟨1, if a = 9 then some 3 else none⟩
  codeChecksum _ := some (List.replicate 32 0)
  factoryGovernance _ := none
  deductAllowance allowances _ _ _ _ := some allowances

def sampleContext : RouteTaxContextResponse :=
  ⟨43, 1, 7, 30, 9, 31, 5, 5, [⟨0, 9, 8, 5⟩], none, []⟩

/-- Router 20 while its route 43 is live. -/
def sampleLive : Host :=
  { sampleRouters 43 with routeTaxContext := fun a => if a = 20 then some sampleContext else none }

def sampleUnrouted : Storage where
  config := ⟨1, 8, 100, 100, 0, 2, none, none, false⟩
  features := ⟨false, false, false, false⟩
  sinks := none
  launchGuards := none
  listedPairs _ := false
  protocolExempt _ := false
  managerExempt _ := false
  lastTradeBlock _ := none
  balances a := if a = 20 then 100 else 0
  tokenInfo := ⟨100, none⟩
  allowances _ _ := none
  settlementConsumption := none

def sampleRotate (s : Storage) (report candidate : ℕ) : Except ContractError Storage :=
  rotate s (sampleRouters report) ⟨1, 1, 9⟩ 3 (some candidate) (some 1)
    (some (List.replicate 32 0))

theorem sampleRun : ∃ net, NetRun net
    [.consumed 20 43 0, .rotated 20 10, .rotated 21 0, .rotated 20 50] := by
  have hok : Meets (sampleRotate sampleUnrouted 50 20) (fun s₁ =>
      s₁.settlementConsumption = some ⟨20, 50, []⟩ ∧ Meets (sampleRotate s₁ 0 21) (fun s₂ =>
        s₂.settlementConsumption = some ⟨21, 0, []⟩ ∧ Meets (sampleRotate s₂ 10 20) (fun s₃ =>
          s₃.settlementConsumption = some ⟨20, 10, []⟩ ∧
            (executeRouteTransfer s₃ sampleLive ⟨1, 1, 9⟩ 20 0 8 5).isOk)
        (fun _ => False)) (fun _ => False)) (fun _ => False) := by
    decide +kernel
  obtain ⟨s₁, h₁, hr₁, hok⟩ := hok.accepted
  obtain ⟨s₂, h₂, hr₂, hok⟩ := hok.accepted
  obtain ⟨s₃, h₃, hr₃, hok⟩ := hok.accepted
  have hquiet : ∀ token report live, Network.Answers ⟨token, fun _ => 0, live⟩
      (sampleRouters report) := by
    intro token report live
    exact ⟨fun r ctx hc => (by cases hc), fun r c _ => Nat.zero_le _⟩
  have hrun₀ : NetRun ⟨sampleUnrouted, fun _ => 0, fun _ => none⟩ [] :=
    .start rfl fun r id h => by cases h
  have hrun₁ := hrun₀.step (.rotate (hquiet _ 50 _) h₁)
  have hrun₂ := hrun₁.step (.rotate (hquiet _ 0 _) h₂)
  have hrun₃ := hrun₂.step (.rotate (hquiet _ 10 _) h₃)
  have hrun₄ := hrun₃.step (.issue _ 20 43 (show 0 < 43 by decide))
  rw [hr₁, hr₂, hr₃] at hrun₄
  cases h₄ : executeRouteTransfer s₃ sampleLive ⟨1, 1, 9⟩ 20 0 8 5 with
  | error e =>
      rw [h₄] at hok
      cases hok
  | ok s₄ =>
      refine ⟨_, hrun₄.step (.settle ⟨fun r ctx hc => ?_, fun r c hc => ?_⟩
        rfl h₄)⟩
      · by_cases hr : r = 20
        · subst hr
          cases hc
          rfl
        · simp [sampleLive, hr] at hc
      · cases hc
        by_cases hr : r = 20
        · subst hr
          simp
        · simp [hr]

theorem settlement_single_use_sample : ∃ net log, NetRun net log ∧
    log.count (.consumed 20 43 0) = 1 ∧ latestBaseline 20 log.tail < 43 := by
  obtain ⟨net, h⟩ := sampleRun
  have huse := settlement_single_use h
  refine ⟨net, _, h, ?_, ?_⟩
  · apply Nat.le_antisymm (huse.1 20 43 0)
    decide
  · exact (huse.2.1 [] _ 20 43 0 rfl).2.1

/-- A router whose report falls gets ids settled that an earlier baseline of its own covers. -/
theorem baseline_not_kept : ¬∀ net log, NetRun net log →
    ∀ later earlier router routeId slot b,
      log = later ++ .consumed router routeId slot :: earlier →
      .rotated router b ∈ earlier → b < routeId := by
  intro hall
  obtain ⟨net, h⟩ := sampleRun
  have hlt := hall net _ h [] _ 20 43 0 50 rfl (by decide)
  omega

end Sample

end Cl8yDex.CommunityTax
