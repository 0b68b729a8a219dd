import Cl8yDex.RouterRotations
import Cl8yDex.RouteSettlement

/-!
# Routers and a token together

A token that taxes routes, with routers that run this code: their calls and replies, the token's
settlements and its rotations in any order. A router's counter only grows and a rotation refuses a
router with a live route, so a route that starts after a rotation is above its baseline, and every
slot is used at most once.
-/

namespace Cl8yDex.Router.Entry

open Outcome
open CommunityTax (RouteTaxContextResponse RouterConfigResponse Network NetStep NetRun Event Host
  executeRouteTransfer rotate rotation)

section Calls

variable {a : Answers} {s s' : Storage}

/-- The id of the route in progress. -/
def Storage.live (s : Storage) : Option ℕ := s.swapState.map fun state => state.taxContext.routeId

/-- What the chain runs of a router. -/
inductive RouterStep : Storage → Storage → Prop
  | execute {a : Answers} {s s' : Storage} {sender : Addr} {msg : ExecuteMsg} {r : Response}
      (h : execute a s sender msg = .ok (s', r)) : RouterStep s s'
  | reply {a : Answers} {s s' : Storage} {id : ℕ} {r : Response}
      (h : reply a s id = .ok (s', r)) : RouterStep s s'

/-- A call issues the next id to an idle router, or leaves the counter and at most ends the route
in progress. -/
theorem RouterStep.view (h : RouterStep s s') :
    s.live = none ∧ s'.lastRouteId = s.lastRouteId + 1 ∧ s'.live = some (s.lastRouteId + 1) ∨
      s'.lastRouteId = s.lastRouteId ∧ (s'.live = s.live ∨ s'.live = none) := by
  cases h with
  | @execute a _ _ sender msg r h =>
    cases msg with
    | executeSwapOperations => cases h
    | setWrapMapper wrapMapper =>
      obtain ⟨_, _, h⟩ := bind_eq_ok.1 h
      obtain ⟨_, _, h⟩ := bind_eq_ok.1 h
      obtain ⟨_, _, h⟩ := bind_eq_ok.1 h
      cases h
      exact .inr ⟨rfl, .inl rfl⟩
    | receive user amount order =>
      obtain ⟨send, state, _, hstarted⟩ := executeReceive_of_ok h
      left
      unfold Storage.live
      rw [hstarted.written, hstarted.idle]
      exact ⟨rfl, rfl, congrArg some hstarted.routeId⟩
  | @reply a _ _ id r h =>
    right
    unfold Entry.reply at h
    split at h
    · obtain ⟨state, hstate, h⟩ := bind_eq_ok.1 h
      rw [orThrow_eq_ok] at hstate
      obtain ⟨_, _, h⟩ := bind_eq_ok.1 h
      obtain ⟨hopOutput, _, h⟩ := bind_eq_ok.1 h
      unfold Storage.live
      split at h
      · obtain ⟨refunds, output, context, _, hfinished⟩ := finishRoute_of_ok h
        obtain ⟨settled, hsettled, hcontext⟩ := hfinished.stored
        refine ⟨hfinished.lastRouteId, .inl ?_⟩
        rw [hsettled, hstate, Option.map_some, Option.map_some, hcontext, hfinished.routeId]
        rfl
      · rename_i op remaining hcons
        have hops : state.acquire.remainingOperations = op :: remaining := hcons
        obtain ⟨send, state', _, hadvanced⟩ := nextHop_of_ok hops h
        rw [hadvanced.written, hstate]
        exact ⟨rfl, .inl (congrArg some hadvanced.routeId)⟩
    · split at h
      · cases h
        exact ⟨rfl, .inr rfl⟩
      · cases h

end Calls

section Deployments

structure Deployment where
  token : CommunityTax.Storage
  routers : Addr → Option Storage

/-- The chain, whose routers answer with their own state. -/
def Deployment.host (d : Deployment) (chain : Host) : Host :=
  { chain with
    routeTaxContext := fun r => (d.routers r).bind queryRouteTaxContext
    routerConfig := fun r => (d.routers r).map queryConfig }

def Deployment.network (d : Deployment) : Network where
  token := d.token
  issued r := ((d.routers r).map Storage.lastRouteId).getD 0
  live r := (d.routers r).bind Storage.live

def Deployment.set (d : Deployment) (r : Addr) (s : Storage) : Deployment :=
  { d with routers := Function.update d.routers r (some s) }

/-- One step of the deployment, with what it adds to the log. -/
inductive DeploymentStep : Deployment → List Event → Deployment → Prop
  | deploy {d : Deployment} (r factory : Addr) (hnew : d.routers r = none) :
      DeploymentStep d [] (d.set r ⟨factory, none, 0, none⟩)
  | router {d : Deployment} {r : Addr} {s s' : Storage} (hs : d.routers r = some s)
      (h : RouterStep s s') :
      DeploymentStep d [] (d.set r s')
  | settle {d : Deployment} {chain : Host} {env : CommunityTax.Env} {sender recipient : Addr}
      {slot amount : ℕ} {ctx : RouteTaxContextResponse} {token : CommunityTax.Storage}
      (hctx : (d.host chain).routeTaxContext sender = some ctx)
      (h : executeRouteTransfer d.token (d.host chain) env sender slot recipient amount =
        .ok token) :
      DeploymentStep d [.consumed sender ctx.routeId slot] { d with token := token }
  | rotate {d : Deployment} {chain : Host} {env : CommunityTax.Env} {sender : Addr}
      {router : Option Addr} {codeId : Option ℕ} {checksum : Option (List ℕ)}
      {token : CommunityTax.Storage}
      (h : rotate d.token (d.host chain) env sender router codeId checksum = .ok token) :
      DeploymentStep d (rotation token.settlementConsumption) { d with token := token }
  | other {d : Deployment} {token : CommunityTax.Storage}
      (hrouter : token.config.router = d.token.config.router)
      (hrecord : token.settlementConsumption = d.token.settlementConsumption) :
      DeploymentStep d [] { d with token := token }

/-- A run from a token that has settled nothing, before any router is deployed. -/
inductive DeploymentRun : Deployment → List Event → Prop
  | start {d : Deployment} (hrecord : d.token.settlementConsumption = none)
      (hrouters : d.routers = fun _ => none) : DeploymentRun d []
  | step {d d' : Deployment} {log es : List Event} (h : DeploymentRun d log)
      (hstep : DeploymentStep d es d') : DeploymentRun d' (es ++ log)

variable {d d' : Deployment} {log es : List Event}

theorem network_answers (d : Deployment) (chain : Host) : d.network.Answers (d.host chain) where
  live := by
    intro r ctx hctx
    obtain ⟨s, hs, hctx⟩ := Option.bind_eq_some_iff.1 hctx
    obtain ⟨state, hstate, rfl⟩ := Option.map_eq_some_iff.1 hctx
    change (d.routers r).bind Storage.live = _
    rw [hs, Option.bind_some, Storage.live, hstate, Option.map_some]
  reported := by
    intro r c hc
    obtain ⟨s, hs, rfl⟩ := Option.map_eq_some_iff.1 hc
    change ((d.routers r).map Storage.lastRouteId).getD 0 ≤ _
    rw [hs]
    exact le_rfl

theorem network_set (d : Deployment) (r : Addr) (s : Storage) : (d.set r s).network =
    ⟨d.token, Function.update d.network.issued r s.lastRouteId,
      Function.update d.network.live r s.live⟩ := by
  unfold Deployment.network Deployment.set
  congr 1
  · funext q
    by_cases hq : q = r
    · subst hq
      simp
    · simp [hq]
  · funext q
    by_cases hq : q = r
    · subst hq
      simp
    · simp [hq]

theorem network_at {r : Addr} {s : Storage} (hs : d.routers r = some s) :
    d.network.issued r = s.lastRouteId ∧ d.network.live r = s.live := by
  constructor
  · change ((d.routers r).map Storage.lastRouteId).getD 0 = _
    rw [hs]
    rfl
  · change (d.routers r).bind Storage.live = _
    rw [hs]
    rfl

/-- A new router shows nothing that was not there. -/
theorem network_deploy {r : Addr} (factory : Addr) (hnew : d.routers r = none) :
    (d.set r ⟨factory, none, 0, none⟩).network = d.network := by
  have hissued : d.network.issued r = 0 := by
    change ((d.routers r).map Storage.lastRouteId).getD 0 = _
    rw [hnew]
    rfl
  have hlive : d.network.live r = none := by
    change (d.routers r).bind Storage.live = _
    rw [hnew]
    rfl
  rw [network_set]
  change Network.mk d.token (Function.update d.network.issued r 0)
    (Function.update d.network.live r none) = d.network
  rw [← hissued, ← hlive, Function.update_eq_self, Function.update_eq_self]
  rfl

theorem network_step (h : DeploymentStep d es d') : NetStep d.network es d'.network := by
  cases h with
  | deploy r factory hnew =>
    rw [network_deploy factory hnew]
    exact .other rfl rfl
  | @router r s s' hs hstep =>
    obtain ⟨hissued, hlive⟩ := network_at hs
    rw [network_set]
    rcases hstep.view with ⟨_, hid, hnew⟩ | ⟨hid, hsame | hend⟩
    · rw [hnew, hid]
      refine .issue d.network r _ ?_
      rw [hissued]
      exact Nat.lt_succ_self _
    · rw [hid, ← hissued, Function.update_eq_self, hsame, ← hlive, Function.update_eq_self]
      exact .other rfl rfl
    · rw [hid, ← hissued, Function.update_eq_self, hend]
      exact .finish d.network r
  | settle hctx hcall => exact .settle (network_answers d _) hctx hcall
  | rotate hcall => exact .rotate (network_answers d _) hcall
  | other hrouter hrecord => exact .other hrouter hrecord

/-- A deployment runs as the network of its routers. -/
theorem network_run (h : DeploymentRun d log) : NetRun d.network log := by
  induction h with
  | @start d hrecord hrouters =>
    refine .start hrecord fun r id hid => ?_
    change (d.routers r).bind Storage.live = some id at hid
    rw [hrouters] at hid
    cases hid
  | step _ hstep ih => exact ih.step (network_step hstep)

end Deployments

section Floors

variable {d d' : Deployment} {log es : List Event}

theorem candidateFloor_of_ok {token : CommunityTax.Storage} {host : Host} {authority : Option Addr}
    {candidate : Addr} {codeId : Option ℕ} {checksum : Option (List ℕ)} {floor : ℕ}
    (h : CommunityTax.candidateFloor token host authority candidate codeId checksum = .ok floor) :
    host.routeTaxContext candidate = none ∧ ∃ c, host.routerConfig candidate = some c ∧
      (floor = c.lastRouteId ∨ ∃ record, token.settlementConsumption = some record ∧
        record.router = candidate ∧ floor = max c.lastRouteId record.routeId) := by
  obtain ⟨id, _, h⟩ := bind_eq_ok.1 h
  obtain ⟨sum, _, h⟩ := bind_eq_ok.1 h
  obtain ⟨info, _, h⟩ := bind_eq_ok.1 h
  obtain ⟨code, _, h⟩ := bind_eq_ok.1 h
  obtain ⟨_, _, h⟩ := bind_eq_ok.1 h
  obtain ⟨c, hc, h⟩ := bind_eq_ok.1 h
  obtain ⟨_, hchecks, h⟩ := bind_eq_ok.1 h
  obtain ⟨_, _, _, _, _, _, hidle⟩ := ensure_eq_ok.1 hchecks
  refine ⟨Option.isNone_iff_eq_none.1 hidle, c, orThrow_eq_ok.1 hc, ?_⟩
  cases hrecord : token.settlementConsumption with
  | none =>
    rw [hrecord] at h
    cases h
    exact .inl rfl
  | some record =>
    rw [hrecord] at h
    by_cases hrouter : record.router = candidate
    · simp only [if_pos hrouter] at h
      cases h
      exact .inr ⟨record, rfl, hrouter, rfl⟩
    · simp only [if_neg hrouter] at h
      cases h
      exact .inl rfl

/-- A rotation trusts an idle router, at the larger of its counter and its record. -/
theorem rotate_of_ok {token token' : CommunityTax.Storage} {host : Host} {env : CommunityTax.Env}
    {sender : Addr} {router : Option Addr} {codeId : Option ℕ} {checksum : Option (List ℕ)}
    (h : rotate token host env sender router codeId checksum = .ok token') :
    token'.settlementConsumption = none ∨ ∃ candidate floor,
      token'.settlementConsumption = some ⟨candidate, floor, []⟩ ∧
      host.routeTaxContext candidate = none ∧ ∃ c, host.routerConfig candidate = some c ∧
        (floor = c.lastRouteId ∨ ∃ record, token.settlementConsumption = some record ∧
          record.router = candidate ∧ floor = max c.lastRouteId record.routeId) := by
  obtain ⟨contract, _, h⟩ := bind_eq_ok.1 h
  obtain ⟨authority, _, h⟩ := bind_eq_ok.1 h
  obtain ⟨candidate, _, h⟩ := bind_eq_ok.1 h
  obtain ⟨record, hrecord, h⟩ := bind_eq_ok.1 h
  cases h
  cases candidate with
  | none =>
    obtain ⟨_, _, hrecord⟩ := bind_eq_ok.1 hrecord
    cases hrecord
    exact .inl rfl
  | some candidate =>
    obtain ⟨floor, hfloor, hrecord⟩ := bind_eq_ok.1 hrecord
    cases hrecord
    exact .inr ⟨candidate, floor, rfl, candidateFloor_of_ok hfloor⟩

/-- Every settlement is above all baselines of its router before it. -/
def FloorsKept : List Event → Prop
  | [] => True
  | .consumed router routeId _ :: log =>
      (∀ b, .rotated router b ∈ log → b < routeId) ∧ FloorsKept log
  | .rotated _ _ :: log => FloorsKept log

/-- Records and baselines are issued ids, and a route in progress is above all baselines. -/
structure Floored (d : Deployment) (log : List Event) : Prop where
  recorded : ∀ record, d.token.settlementConsumption = some record →
    record.routeId ≤ d.network.issued record.router
  rotations : ∀ r b, .rotated r b ∈ log → b ≤ d.network.issued r ∧
    ∀ id, d.network.live r = some id → b < id
  kept : FloorsKept log

theorem Floored.router (h : Floored d log) {r : Addr} {s s' : Storage} (hs : d.routers r = some s)
    (hstep : RouterStep s s') : Floored (d.set r s') log := by
  obtain ⟨hissued, hlive⟩ := network_at hs
  have hview := hstep.view
  constructor
  · intro record hrecord
    have hle := h.recorded record hrecord
    rw [network_set]
    dsimp only
    by_cases hr : record.router = r
    · rw [hr, hissued] at hle
      rw [hr, Function.update_self]
      rcases hview with ⟨_, hid, _⟩ | ⟨hid, _⟩ <;> omega
    · rw [Function.update_of_ne hr]
      exact hle
  · intro q b hmem
    obtain ⟨hle, habove⟩ := h.rotations q b hmem
    rw [network_set]
    dsimp only
    by_cases hq : q = r
    · subst hq
      rw [Function.update_self, Function.update_self]
      rw [hissued] at hle
      rw [hlive] at habove
      rcases hview with ⟨_, hid, hnew⟩ | ⟨hid, hsame | hend⟩
      · refine ⟨by omega, fun id hid' => ?_⟩
        rw [hnew] at hid'
        have heq := Option.some.inj hid'
        omega
      · rw [hid, hsame]
        exact ⟨hle, habove⟩
      · rw [hid, hend]
        refine ⟨hle, fun id hid' => ?_⟩
        cases hid'
    · rw [Function.update_of_ne hq, Function.update_of_ne hq]
      exact ⟨hle, habove⟩
  · exact h.kept

/-- A settlement is above all baselines of its router, and its id is issued. -/
theorem Floored.settle (hguarded : CommunityTax.Guarded d.network log) (h : Floored d log)
    {chain : Host} {env : CommunityTax.Env} {sender recipient : Addr} {slot amount : ℕ}
    {ctx : RouteTaxContextResponse} {token : CommunityTax.Storage}
    (hctx : (d.host chain).routeTaxContext sender = some ctx)
    (hcall : executeRouteTransfer d.token (d.host chain) env sender slot recipient amount =
      .ok token) :
    Floored { d with token := token } (.consumed sender ctx.routeId slot :: log) := by
  have hlive : d.network.live sender = some ctx.routeId :=
    (network_answers d chain).live sender ctx hctx
  obtain ⟨_, _, ctx', record, hctx', hrecord, hconsume⟩ :=
    CommunityTax.executeRouteTransfer_record hcall
  obtain rfl : ctx = ctx' := by
    rw [hctx] at hctx'
    exact Option.some.inj hctx'
  obtain ⟨_, _, hconsume⟩ := bind_eq_ok.1 hconsume
  obtain ⟨_, hsender, hroute, _⟩ := CommunityTax.consumeFrom_eq_ok hconsume
  constructor
  · intro found hfound
    rw [hrecord] at hfound
    obtain rfl := Option.some.inj hfound
    rw [hsender, hroute]
    exact hguarded.live_le sender ctx.routeId hlive
  · intro r b hmem
    rcases List.mem_cons.1 hmem with heq | hmem
    · cases heq
    · exact h.rotations r b hmem
  · exact ⟨fun b hmem => (h.rotations sender b hmem).2 _ hlive, h.kept⟩

/-- A rotation leaves no record, or one at an issued id of a router without a route in progress. -/
theorem Floored.rotate (h : Floored d log) {chain : Host} {env : CommunityTax.Env} {sender : Addr}
    {router : Option Addr} {codeId : Option ℕ} {checksum : Option (List ℕ)}
    {token : CommunityTax.Storage}
    (hcall : CommunityTax.rotate d.token (d.host chain) env sender router codeId checksum =
      .ok token) :
    Floored { d with token := token } (rotation token.settlementConsumption ++ log) := by
  rcases rotate_of_ok hcall with hnone | ⟨candidate, floor, hrecord, hidle, c, hc, hfloor⟩
  · rw [hnone]
    refine ⟨fun record hr => ?_, h.rotations, h.kept⟩
    rw [hnone] at hr
    cases hr
  · obtain ⟨s, hs, rfl⟩ := Option.map_eq_some_iff.1 hc
    obtain ⟨hissued, hlive⟩ := network_at hs
    have hnolive : d.network.live candidate = none := by
      change (d.routers candidate).bind queryRouteTaxContext = none at hidle
      rw [hs, Option.bind_some] at hidle
      rw [hlive, Storage.live, Option.map_eq_none_iff.1 hidle]
      rfl
    have hle : floor ≤ d.network.issued candidate := by
      rcases hfloor with hfloor | ⟨record, hr, hrouter, hfloor⟩
      · rw [hfloor, hissued]
        exact le_rfl
      · have hold := h.recorded record hr
        rw [hrouter] at hold
        rw [hfloor]
        exact max_le hissued.ge hold
    rw [hrecord]
    constructor
    · intro record hr
      rw [hrecord] at hr
      obtain rfl := Option.some.inj hr
      exact hle
    · intro r b hmem
      rcases List.mem_cons.1 hmem with heq | hmem
      · cases heq
        refine ⟨hle, fun id hid => ?_⟩
        change d.network.live candidate = some id at hid
        rw [hnolive] at hid
        cases hid
      · exact h.rotations r b hmem
    · exact h.kept

theorem Floored.step (hguarded : CommunityTax.Guarded d.network log) (h : Floored d log)
    (hstep : DeploymentStep d es d') : Floored d' (es ++ log) := by
  cases hstep with
  | deploy r factory hnew =>
    have hnetwork := network_deploy factory hnew
    exact ⟨by rw [hnetwork]; exact h.recorded, by rw [hnetwork]; exact h.rotations, h.kept⟩
  | router hs hcall => exact h.router hs hcall
  | settle hctx hcall => exact h.settle hguarded hctx hcall
  | rotate hcall => exact h.rotate hcall
  | other hrouter hrecord =>
    refine ⟨fun record hr => ?_, h.rotations, h.kept⟩
    rw [hrecord] at hr
    exact h.recorded record hr

theorem DeploymentRun.floored (h : DeploymentRun d log) : Floored d log := by
  induction h with
  | @start d hrecord hrouters =>
    refine ⟨fun record hr => ?_, fun r b hmem => ?_, trivial⟩
    · rw [hrecord] at hr
      cases hr
    · cases hmem
  | step hrun hstep ih => exact ih.step (network_run hrun).guarded hstep

theorem FloorsKept.below {later earlier : List Event} {router : Addr} {routeId slot : ℕ}
    (h : FloorsKept (later ++ .consumed router routeId slot :: earlier)) :
    ∀ b, .rotated router b ∈ earlier → b < routeId := by
  induction later with
  | nil => exact h.1
  | cons e later ih =>
    cases e with
    | consumed r i t => exact ih h.2
    | rotated r b => exact ih h

/-- Over every run of a token with routers of this code, each slot of a route is used at most once,
no older route of a router settles after a newer one, and no route settles at or below the baseline
of any earlier rotation to its router. -/
theorem deployed_single_use (h : DeploymentRun d log) :
    (∀ router routeId slot, log.count (.consumed router routeId slot) ≤ 1) ∧
      ∀ later earlier router routeId slot,
        log = later ++ .consumed router routeId slot :: earlier →
          (∀ id t, .consumed router id t ∈ earlier → id ≤ routeId) ∧
          ∀ b, .rotated router b ∈ earlier → b < routeId := by
  have hguarded := (network_run h).guarded
  refine ⟨hguarded.ordered.count_le_one, ?_⟩
  intro later earlier router routeId slot hlog
  have hordered := hguarded.ordered
  have hkept := h.floored.kept
  rw [hlog] at hordered hkept
  exact ⟨hordered.follows.newest, hkept.below⟩

end Floors

section Sample

/-- Token 10, with the router of the sample route not trusted yet. -/
def deployedToken : CommunityTax.Storage where
  config := ⟨1, 8, 0, 1000, 0, 2, none, none, false⟩
  features := ⟨false, false, false, false⟩
  sinks := none
  launchGuards := none
  listedPairs _ := false
  protocolExempt _ := false
  managerExempt _ := false
  lastTradeBlock _ := none
  balances a := if a = 1 then 100 else 0
  tokenInfo := ⟨100, none⟩
  allowances _ _ := none
  settlementConsumption := none

def deployedChain : Host where
  validAddr _ := true
  routeTaxContext _ := none
  routerConfig _ := none
  contractInfo a := some ⟨1, if a = 10 then some 6 else none⟩
  codeChecksum _ := some (List.replicate 32 0)
  factoryGovernance _ := none
  deductAllowance allowances _ _ _ _ := some allowances

def deployedRotate (d : Deployment) : Except CommunityTax.ContractError CommunityTax.Storage :=
  rotate d.token (d.host deployedChain) ⟨1, 1, 10⟩ 6 (some 1) (some 1)
    (some (List.replicate 32 0))

def deployedSettle (d : Deployment) : Except CommunityTax.ContractError CommunityTax.Storage :=
  executeRouteTransfer d.token (d.host deployedChain) ⟨1, 1, 10⟩ 1 0 3 1

/-- The mapper is set, and a route with two hops is brought to its settlement. -/
theorem deployedCalls : RouterStep ⟨2, none, 0, none⟩ ⟨2, some 8, 0, none⟩ ∧
    RouterStep ⟨2, some 8, 0, none⟩ (entryStorage 1 (firstState 1)) ∧
    RouterStep (entryStorage 1 (firstState 1)) (entryStorage 1 (secondState 1)) ∧
    RouterStep (entryStorage 1 (secondState 1)) (entryStorage 1 (lastState 1)) := by
  have hset : execute (entryAnswers (heldOf 7 5 4)) ⟨2, none, 0, none⟩ 9 (.setWrapMapper 8) =
      .ok (⟨2, some 8, 0, none⟩, .none) := rfl
  have hcall : execute (entryAnswers (heldOf 107 5 4)) ⟨2, some 8, 0, none⟩ 10
      (.receive 3 100 entryOrder) = .ok (entryStorage 1 (firstState 1), .hop firstSend) := rfl
  have hnext : reply (entryAnswers (heldOf 8 55 4)) (entryStorage 1 (firstState 1)) swapReplyId =
      .ok (entryStorage 1 (secondState 1), .hop secondSend) := rfl
  have hreply : reply (entryAnswers (heldOf 8 5 2004)) (entryStorage 1 (secondState 1))
      swapReplyId = .ok (entryStorage 1 (lastState 1),
        .complete [.routeTransfer 10 0 3 1] (.unwrap 30 8 2000 3)) := rfl
  exact ⟨.execute hset, .execute hcall, .reply hnext, .reply hreply⟩

theorem set_set (d : Deployment) (r : Addr) (s s' : Storage) :
    (d.set r s).set r s' = d.set r s' := by
  unfold Deployment.set
  dsimp only
  rw [Function.update_idem]

theorem set_routers (d : Deployment) (r : Addr) (s : Storage) : (d.set r s).routers r = some s :=
  Function.update_self ..

/-- Deployed, trusted, and through one route to its first refund. -/
theorem deployedRun : ∃ d, DeploymentRun d [.consumed 1 1 0, .rotated 1 0] := by
  have hstart : DeploymentRun ⟨deployedToken, fun _ => none⟩ [] := .start rfl rfl
  have hdeployed := hstart.step (.deploy 1 2 rfl)
  obtain ⟨token, hrotate, hrecord, hsettle⟩ := Meets.accepted (show Meets
      (deployedRotate (Deployment.set ⟨deployedToken, fun _ => none⟩ 1 ⟨2, none, 0, none⟩))
      (fun token => token.settlementConsumption = some ⟨1, 0, []⟩ ∧
        (deployedSettle (Deployment.set ⟨token, fun _ => none⟩ 1
          (entryStorage 1 (lastState 1)))).isOk) (fun _ => False) by decide +kernel)
  have hrotated := hdeployed.step (.rotate hrotate)
  change DeploymentRun (Deployment.set ⟨token, fun _ => none⟩ 1 ⟨2, none, 0, none⟩)
    (rotation token.settlementConsumption ++ []) at hrotated
  rw [hrecord] at hrotated
  obtain ⟨hset, hcall, hnext, hreply⟩ := deployedCalls
  have hmapped := hrotated.step (.router (set_routers ..) hset)
  rw [set_set] at hmapped
  have hissued := hmapped.step (.router (set_routers ..) hcall)
  rw [set_set] at hissued
  have hhopped := hissued.step (.router (set_routers ..) hnext)
  rw [set_set] at hhopped
  have hfinished := hhopped.step (.router (set_routers ..) hreply)
  rw [set_set] at hfinished
  cases hpaid : deployedSettle (Deployment.set ⟨token, fun _ => none⟩ 1
      (entryStorage 1 (lastState 1))) with
  | error e =>
    rw [hpaid] at hsettle
    cases hsettle
  | ok paid => exact ⟨_, hfinished.step (.settle rfl hpaid)⟩

theorem deployed_single_use_sample :
    ∃ d log, DeploymentRun d log ∧ log.count (.consumed 1 1 0) = 1 ∧
      ∀ b, .rotated 1 b ∈ log.tail → b < 1 := by
  obtain ⟨d, hrun⟩ := deployedRun
  have hresult := deployed_single_use hrun
  refine ⟨d, _, hrun, ?_, (hresult.2 [] _ 1 1 0 rfl).2⟩
  exact Nat.le_antisymm (hresult.1 1 1 0) (by decide)

end Sample

end Cl8yDex.Router.Entry
