import Cl8yDex.RouteReverse
import Cl8yDex.StoredPair
import Cl8yDex.TokenPreview

/-!
# The reverse quote answers with the least sufficient offer

The forward quote of a pool-only route is the chain of its stages, and the backward walk proposes an
offer for that chain.
-/

namespace Cl8yDex.Router

open Outcome FirstReaching

/-- The pool-only route of some hops. -/
def route (hops : List Hop) : List SwapOperation := hops.map Hop.operation

/-- What a route pays for an offer. -/
def payout (hops : List Hop) : ℕ → Option ℕ := chain (hops.map fun h => h.terms.stage)

variable {h : Hop} {hops : List Hop} {q : QuoteContext} {trader sender : Option Addr}
  {flag : Bool} {x y t ask : ℕ}

section Forward

theorem payout_rising (hp : ∀ h ∈ hops, h.Priced q trader sender) : Rising (payout hops) := by
  apply rising_chain
  intro f hf
  obtain ⟨h, hh, rfl⟩ := List.mem_map.1 hf
  exact (hp h hh).admitted.stage_rising

theorem run_sound (hp : ∀ h ∈ hops, h.Priced q trader sender) (hx : x ≤ u128Max)
    (hrun : (route hops).foldlM (simulateHop q trader sender flag) x = .ok y) :
    payout hops x = some y := by
  induction hops generalizing x with
  | nil =>
      cases hrun
      rfl
  | cons h hops ih =>
      obtain ⟨a, ha, hrun⟩ := bind_eq_ok.1 hrun
      have hstage := simulateHop_sound (hp h List.mem_cons_self) hx ha
      have hamax := ((hp h List.mem_cons_self).admitted.stage_within hstage).2
      exact andThen_eq_some.2
        ⟨a, hstage, ih (fun k hk => hp k (List.mem_cons_of_mem h hk)) hamax hrun⟩

theorem run_ran (hp : ∀ h ∈ hops, h.Priced q trader sender) (hx : x ≤ u128Max)
    (hrun : (route hops).foldlM (simulateHop q trader sender flag) x = .ok y) :
    ∀ h ∈ hops, h.Ran q trader := by
  induction hops generalizing x with
  | nil => exact fun h hh => absurd hh List.not_mem_nil
  | cons h hops ih =>
      obtain ⟨a, ha, hrun⟩ := bind_eq_ok.1 hrun
      have hhead := hp h List.mem_cons_self
      have hamax := (hhead.admitted.stage_within (simulateHop_sound hhead hx ha)).2
      intro k hk
      rcases List.mem_cons.1 hk with rfl | hk
      · exact Hop.ran_of_simulateHop hhead hx ha
      · exact ih (fun k hk => hp k (List.mem_cons_of_mem h hk)) hamax hrun k hk

/-- The tokens of a route answer whatever the amounts are. -/
structure Answering (hops : List Hop) (q : QuoteContext) (trader : Option Addr) : Prop where
  steady : ∀ h ∈ hops, h.Steady q trader
  ran : ∀ h ∈ hops, h.Ran q trader

theorem Answering.tail (ha : Answering (h :: hops) q trader) : Answering hops q trader where
  steady := fun k hk => ha.steady k (List.mem_cons_of_mem h hk)
  ran := fun k hk => ha.ran k (List.mem_cons_of_mem h hk)

theorem run_complete (hp : ∀ h ∈ hops, h.Priced q trader sender)
    (ha : Answering hops q trader) (hpay : payout hops x = some y) :
    (route hops).foldlM (simulateHop q trader sender flag) x = .ok y := by
  induction hops generalizing x with
  | nil =>
      cases hpay
      rfl
  | cons h hops ih =>
      obtain ⟨a, hstage, htail⟩ := andThen_eq_some.1 hpay
      have hhead : simulateHop q trader sender flag x h.operation = .ok a :=
        simulateHop_complete (hp h List.mem_cons_self) (ha.steady h List.mem_cons_self)
          (ha.ran h List.mem_cons_self) hstage
      apply bind_eq_ok.2
      exact ⟨a, hhead, ih (fun k hk => hp k (List.mem_cons_of_mem h hk)) ha.tail htail⟩

theorem simulate_eq_ok : simulateSwapOperations q trader sender flag x (route hops) = .ok y ↔
    checkHops (route hops) = .ok () ∧ validateAssetPath q (route hops) none = .ok () ∧
      (route hops).foldlM (simulateHop q trader sender flag) x = .ok y := by
  unfold simulateSwapOperations
  constructor
  · intro h
    obtain ⟨_, hhops, h⟩ := bind_eq_ok.1 h
    obtain ⟨_, hpath, h⟩ := bind_eq_ok.1 h
    exact ⟨hhops, hpath, h⟩
  · rintro ⟨hhops, hpath, h⟩
    rw [hhops, ok_bind, hpath, ok_bind]
    exact h

/-- A route that has run once pays what its chain does, whichever quote asks. -/
theorem quote_of_payout (hp : ∀ h ∈ hops, h.Priced q trader sender)
    (ha : Answering hops q trader) (hchecks : checkHops (route hops) = .ok () ∧
      validateAssetPath q (route hops) none = .ok ()) (hpay : payout hops x = some y) :
    simulateSwapOperations q trader sender flag x (route hops) = .ok y :=
  simulate_eq_ok.2 ⟨hchecks.1, hchecks.2, run_complete hp ha hpay⟩

end Forward

section Backward

/-- The offers that suffice, by the public forward quote. -/
def sufficient (q : QuoteContext) (trader sender : Option Addr) (operations : List SwapOperation)
    (ask : ℕ) : Set ℕ :=
  {x | x ≤ u128Max ∧ ∃ y, querySimulateSwapOperations q trader sender x operations = .ok y ∧
    ask ≤ y}

/-- A route whose tokens answer and which can reach the target. -/
structure Meetable (hops : List Hop) (q : QuoteContext) (trader : Option Addr) (t : ℕ) : Prop where
  answering : Answering hops q trader
  reached : (reaching (payout hops) t).Nonempty

theorem reverseHops_meets (hp : ∀ h ∈ hops, h.Priced q trader sender) (ht : 0 < t)
    (htmax : t ≤ u128Max) (hop : ℕ) (budget : ReverseQueryBudget) :
    Meets (reverseHops q trader sender hop (route hops) (t, budget))
      (fun r => Proposal (payout hops) t r.1) (Excused (Meetable hops q trader t)) := by
  induction hops generalizing hop with
  | nil => exact ⟨proposes_nil, ht, htmax⟩
  | cons h hops ih =>
      have htail := fun k hk => hp k (List.mem_cons_of_mem h hk)
      have hbehind : Meets (reverseHops q trader sender (hop + 1) (route hops) (t, budget))
          (fun r => Proposal (payout hops) t r.1)
          (Excused (Meetable (h :: hops) q trader t)) := by
        apply (ih htail (hop + 1)).mono
        · exact fun r hr => hr
        · exact fun e he => he.mono fun hm => ⟨hm.answering.tail, reaching_tail hm.reached⟩
      apply hbehind.bind
      intro r hr
      obtain ⟨wanted, left⟩ := r
      apply (reverseHop_meets (hp h List.mem_cons_self) hr.pos).mono
      · intro w hw
        exact ⟨hr.toProposes.andThen (payout_rising htail) hw.toProposes, hw.pos, hw.le⟩
      · intro e he
        apply he.mono
        intro hm
        exact ⟨hm.answering.steady h List.mem_cons_self, hm.answering.ran h List.mem_cons_self,
          reaching_head hr.bound hm.reached⟩

theorem payout_of_sufficient (hp : ∀ h ∈ hops, h.Priced q trader sender)
    (hx : x ∈ sufficient q trader sender (route hops) ask) :
    x ∈ reaching (payout hops) ask := by
  obtain ⟨hxmax, y, hy, hle⟩ := hx
  exact ⟨y, run_sound hp hxmax (simulate_eq_ok.1 hy).2.2, hle⟩

/-- The ratio templates of a reverse quote change nothing on a route without declared splits. -/
theorem simulate_templates (hp : ∀ h ∈ hops, h.Priced q trader sender) :
    simulateSwapOperations q trader sender true x (route hops) =
      simulateSwapOperations q trader sender false x (route hops) := by
  have hhop : ∀ op ∈ route hops, ∀ a, simulateHop q trader sender true a op =
      simulateHop q trader sender false a op := by
    intro op hop a
    obtain ⟨h, hh, rfl⟩ := List.mem_map.1 hop
    rw [simulateHop_eq (hp h hh), simulateHop_eq (hp h hh)]
  have hrun (ops : List SwapOperation) (hops : ∀ op ∈ ops, ∀ a,
      simulateHop q trader sender true a op = simulateHop q trader sender false a op) (a : ℕ) :
      ops.foldlM (simulateHop q trader sender true) a =
        ops.foldlM (simulateHop q trader sender false) a := by
    induction ops generalizing a with
    | nil => rfl
    | cons op ops ih =>
        rw [List.foldlM_cons, List.foldlM_cons, hops op List.mem_cons_self a]
        congr 1
        funext b
        exact ih (fun op' hop' => hops op' (List.mem_cons_of_mem op hop')) b
  unfold simulateSwapOperations
  rw [hrun _ hhop]

theorem validateRouteSupport_route (hops : List Hop) :
    validateRouteSupport (route hops) = .ok () := by
  have hgreedy : (route hops).any SwapOperation.isGreedy = false := by
    unfold route
    rw [List.any_map]
    apply List.any_eq_false.2
    intro h _
    exact Bool.false_ne_true
  unfold validateRouteSupport
  apply ensure_pos
  rw [hgreedy]
  exact fun h => absurd h.2 (by decide)

/-- What is owed to a route that some representable offer is sufficient for. -/
structure Owed (hops : List Hop) (q : QuoteContext) (trader sender : Option Addr) (ask : ℕ) :
    Prop where
  steady : ∀ h ∈ hops, h.Steady q trader
  sufficient : (sufficient q trader sender (route hops) ask).Nonempty

theorem Owed.checks (h : Owed hops q trader sender ask) : checkHops (route hops) = .ok () ∧
    validateAssetPath q (route hops) none = .ok () := by
  obtain ⟨x, -, y, hy, -⟩ := h.sufficient
  obtain ⟨hhops, hpath, -⟩ := simulate_eq_ok.1 hy
  exact ⟨hhops, hpath⟩

theorem Owed.meetable (h : Owed hops q trader sender ask)
    (hp : ∀ h ∈ hops, h.Priced q trader sender) : Meetable hops q trader ask := by
  obtain ⟨x, hx⟩ := h.sufficient
  have hreached := payout_of_sufficient hp hx
  obtain ⟨hxmax, y, hy, -⟩ := hx
  exact ⟨⟨h.steady, run_ran hp hxmax (simulate_eq_ok.1 hy).2.2⟩, x, hreached⟩

theorem reverse_meets (hp : ∀ h ∈ hops, h.Priced q trader sender) (hask : 0 < ask)
    (hmax : ask ≤ u128Max) :
    Meets (queryReverseSimulateSwapOperations q trader sender ask (route hops))
      (IsLeast (sufficient q trader sender (route hops) ask))
      (Excused (Owed hops q trader sender ask)) := by
  unfold queryReverseSimulateSwapOperations
  have hchecks : Meets (asked (checkHops (route hops))) (fun _ => True)
      (Excused (Owed hops q trader sender ask)) := by
    apply meets_asked
    cases hc : checkHops (route hops) with
    | ok u => exact trivial
    | error e =>
        intro howed
        rw [howed.checks.1] at hc
        cases hc
  have hpath : Meets (asked (validateAssetPath q (route hops) none)) (fun _ => True)
      (Excused (Owed hops q trader sender ask)) := by
    apply meets_asked
    cases hc : validateAssetPath q (route hops) none with
    | ok u => exact trivial
    | error e =>
        intro howed
        rw [howed.checks.2] at hc
        cases hc
  apply hchecks.bind
  intro _ _
  rw [validateRouteSupport_route]
  change Meets (asked (validateAssetPath q (route hops) none) >>= _) _ _
  apply hpath.bind
  intro _ _
  apply (reserve_meets _).bind
  intro budget _
  have hwalk : Meets (reverseHops q trader sender 0 (route hops) (ask, budget))
      (fun r => Proposal (payout hops) ask r.1) (Excused (Owed hops q trader sender ask)) := by
    apply (reverseHops_meets hp hask hmax 0 budget).mono
    · exact fun r hr => hr
    · exact fun e he => he.mono fun h => h.meetable hp
  apply hwalk.bind
  intro r hr
  rw [simulate_templates hp]
  have hforward : Meets (asked (simulateSwapOperations q trader sender false r.1 (route hops)))
      (fun y => querySimulateSwapOperations q trader sender r.1 (route hops) = .ok y)
      (Excused (Owed hops q trader sender ask)) := by
    apply meets_asked
    cases hsim : simulateSwapOperations q trader sender false r.1 (route hops) with
    | ok y => exact hsim
    | error e =>
        intro howed
        have hmeetable := howed.meetable hp
        obtain ⟨y, hy, -⟩ := (hr.toProposes.isLeast (payout_rising hp) hmeetable.reached).1
        rw [quote_of_payout hp hmeetable.answering howed.checks hy] at hsim
        cases hsim
  apply hforward.bind
  intro y hy
  have hpay := run_sound hp hr.le (simulate_eq_ok.1 hy).2.2
  have hle : ask ≤ y := hr.reaches y hpay
  rw [ensure_pos hle, ok_bind]
  constructor
  · exact ⟨hr.le, y, hy, hle⟩
  · exact fun x hx => hr.bound (payout_of_sufficient hp hx)

end Backward

section Sample

def ordinaryToken : Token where
  routeTaxCapability := none
  getConfig := false
  taxMap := false
  taxInfo := false
  contractInfo := some (some "crates.io:cw20-base")
  routeTaxPreview := fun _ _ _ _ => .error .overflow

/-- A token of which 200 basis points of a purchase and 300 of a sale go to its treasury. -/
def sampleTaxed (treasury : Addr) : CommunityTax.Storage where
  config := ⟨5, treasury, 200, 300, 0, 10, some 20, none, true⟩
  features := ⟨false, false, false, false⟩
  sinks := none
  launchGuards := none
  listedPairs := fun a => a == 30
  protocolExempt := fun _ => false
  managerExempt := fun _ => false
  lastTradeBlock := fun _ => none
  balances := fun _ => 0
  tokenInfo := ⟨0, none⟩
  allowances := fun _ _ => none
  settlementConsumption := none

def sampleTokenHost : CommunityTax.Host where
  validAddr := fun _ => true
  routeTaxContext := fun _ => none
  routerConfig := fun _ => none
  contractInfo := fun _ => none
  codeChecksum := fun _ => none
  factoryGovernance := fun _ => none
  deductAllowance := fun _ _ _ _ _ => none

def sampleText : ContractError → StdError := fun _ => .generic "pair"

def sampleRoutePair : Pair :=
  storedPair samplePool .permissive (sampleEnv 1012) sampleText 30
    (some ⟨"cl8y-dex-pair", "1.21.0"⟩)

/-- Token 2 is sold for the taxed token 1. -/
def sampleContext (treasury : Addr) : QuoteContext where
  router := 20
  addrValidate := fun _ => .ok ()
  token := fun a => if a = 1 then CommunityTax.asToken (sampleTaxed treasury) sampleTokenHost 1
    else ordinaryToken
  pair := fun _ _ => .ok sampleRoutePair

def sampleHop : Hop := ⟨2, 1, sampleRoutePair, storedTerms samplePool .ask 30 0 200⟩

theorem samplePool_undeducted : Undeducted samplePool .permissive 1 := by
  have hhooks : samplePool.hooks = [] := by decide +kernel
  intro total
  rw [hhooks]
  rfl

theorem sampleHop_priced (treasury : Addr) :
    sampleHop.Priced (sampleContext treasury) (some 7) none where
  inputReserve := by decide +kernel
  outputReserve := by decide +kernel
  listed := rfl
  answers := by
    have hfee : effectiveFeeBpsForSim .permissive samplePool.discountCache
        (sampleEnv 1012).blockTime samplePool.feeConfig.feeBps samplePool.discountRegistry (some 7)
        none = 30 := by decide +kernel
    have hspread : SpreadInRange 3000000 1000000 := by
      intro x hx
      have hle : x * 1000000 ≤ 3000000 * x := by omega
      exact (Nat.div_le_of_le_mul hle).trans (by omega)
    have hreserves : samplePool.reserves = (1000000, 3000000) := by decide +kernel
    unfold sampleHop
    rw [← hfee]
    apply storedPair_answers
    · decide +kernel
    · decide +kernel
    · decide +kernel
    · exact samplePool_undeducted
    · decide +kernel
    · decide +kernel
    · rw [hreserves]
      exact hspread
  sells := .ordinary rfl rfl
  buys := CommunityTax.asToken_charges (fun _ => show 200 < 10000 by decide)
    (show 300 ≤ u16Max by decide)

theorem sampleTaxed_paysOut : CommunityTax.PaysOut (sampleTaxed 9) := by
  intro tax _
  by_cases hzero : tax = 0
  · refine ⟨[], ?_, by decide⟩
    unfold CommunityTax.sinkCredits
    rw [if_pos hzero]
  · refine ⟨[⟨9, tax, false⟩], ?_, ?_⟩
    · unfold CommunityTax.sinkCredits
      rw [if_neg hzero]
      rfl
    · simp [CommunityTax.SinkCredit.blocked, sampleTaxed, CommunityTax.isListedPair]

theorem sampleHop_steady : sampleHop.Steady (sampleContext 9) (some 7) where
  sells := nofun
  buys := CommunityTax.asToken_steady sampleTaxed_paysOut

end Sample

/-- A reverse quote of a pool-only route is the least offer that suffices, its last check never
fails, and only the query budget stands between a sufficient offer and the quote, unless a token
refuses some amounts and not others. -/
theorem reverse_quote_least (hp : ∀ h ∈ hops, h.Priced q trader sender) (hask : 0 < ask)
    (hmax : ask ≤ u128Max) :
    (∀ w, queryReverseSimulateSwapOperations q trader sender ask (route hops) = .ok w →
      IsLeast (sufficient q trader sender (route hops) ask) w) ∧
    queryReverseSimulateSwapOperations q trader sender ask (route hops) ≠
      .error .reverseForwardInsufficient ∧
    ((∀ h ∈ hops, h.Steady q trader) → (sufficient q trader sender (route hops) ask).Nonempty →
      ∀ e, queryReverseSimulateSwapOperations q trader sender ask (route hops) = .error e →
        e = .reverseQueryBudgetExceeded) := by
  have hmeets := reverse_meets hp hask hmax
  refine ⟨?_, ?_, ?_⟩
  · exact fun w hw => hmeets.success hw
  · exact fun herror => (hmeets.failure herror).1 rfl
  · exact fun hsteady hsufficient e herror => (hmeets.failure herror).2 ⟨hsteady, hsufficient⟩

theorem reverse_quote_least_sample :
    IsLeast (sufficient (sampleContext 9) (some 7) none (route [sampleHop]) 5000) 15430 ∧
      queryReverseSimulateSwapOperations (sampleContext 9) (some 7) none 5000
        (route [sampleHop]) ≠ .error .reverseForwardInsufficient ∧
      ∀ e, queryReverseSimulateSwapOperations (sampleContext 9) (some 7) none 5000
        (route [sampleHop]) = .error e → e = .reverseQueryBudgetExceeded := by
  have hpriced : ∀ h ∈ [sampleHop], h.Priced (sampleContext 9) (some 7) none := by
    intro h hh
    rw [List.mem_singleton.1 hh]
    exact sampleHop_priced 9
  have hsteady : ∀ h ∈ [sampleHop], h.Steady (sampleContext 9) (some 7) := by
    intro h hh
    rw [List.mem_singleton.1 hh]
    exact sampleHop_steady
  obtain ⟨hleast, hcheck, honly⟩ := reverse_quote_least hpriced (show 0 < 5000 by decide)
    (show 5000 ≤ u128Max by decide)
  have hsample := hleast 15430 (by decide +kernel)
  exact ⟨hsample, hcheck, honly hsteady ⟨15430, hsample.1⟩⟩

/-- The treasury is the pair itself: a purchase too small for a tax is quoted, but the probe of ten
thousand units is refused, and with it the reverse quote. -/
theorem sink_refuses_probe : sampleHop.Priced (sampleContext 30) (some 7) none ∧
    40 ∈ sufficient (sampleContext 30) (some 7) none (route [sampleHop]) 10 ∧
    queryReverseSimulateSwapOperations (sampleContext 30) (some 7) none 10 (route [sampleHop]) =
      .error (.std (.generic "route tax sink cannot credit router or listed pair")) := by
  refine ⟨sampleHop_priced 30, ⟨by decide, 13, ?_, by decide⟩, ?_⟩
  · decide +kernel
  · decide +kernel

end Cl8yDex.Router
