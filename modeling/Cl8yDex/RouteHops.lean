import Cl8yDex.RouteQuote
import Cl8yDex.RouteStages

/-!
# One pool-only hop, forwards and backwards

What the two tokens and the pair of a hop are taken to answer. The forward hop is then the stage of
its terms, and the backward hop proposes an offer for it or is excused: by the query budget, or
because no offer of the hop reaches the target.
-/

namespace Cl8yDex.Router

open Outcome FirstReaching

def RouteTaxCapabilityResponse.bps (c : RouteTaxCapabilityResponse) : RouteTaxKind → ℕ
  | .sell => c.sellBps
  | .buy => c.buyBps

def fromGross : RouteTaxKind → ℕ → ℕ → Except StdError RouteTaxPreviewResponse
  | .sell => sellFromGross
  | .buy => buyFromGross

/-- An ordinary token charges nothing, a taxed one its rate or nothing; it may refuse an amount. -/
inductive Token.Charges (token : Token) (pair : Addr) (trader : Option Addr) (kind : RouteTaxKind)
    (bps : ℕ) : Prop
  | ordinary (hcap : capability token = .ok none) (hbps : bps = 0)
  | taxed (c : RouteTaxCapabilityResponse) (exempt : Bool)
      (hcap : capability token = .ok (some c)) (hbuy : kind = .buy → c.buyBps < 10000)
      (hsell : c.sellBps ≤ u16Max) (hrate : bps = effectiveRate exempt (c.bps kind))
      (hanswer : ∀ amount p, token.routeTaxPreview kind amount trader pair = .ok p →
        fromGross kind amount bps = .ok p)

/-- Whether a token answers does not depend on the amount. -/
def Token.Steady (token : Token) (pair : Addr) (trader : Option Addr) (kind : RouteTaxKind) :
    Prop :=
  ∀ a b p, a ≤ u128Max → b ≤ u128Max → token.routeTaxPreview kind a trader pair = .ok p →
    ∃ p', token.routeTaxPreview kind b trader pair = .ok p'

/-- The pair answers with its exact pool return and with its least pool offer. -/
structure Pair.Answers (pair : Pair) (trader sender : Option Addr) (offerInfo askInfo : AssetInfo)
    (c : HopTerms) : Prop where
  forward : ∀ x ≤ u128Max, Meets (pair.hybridSimulation ⟨offerInfo, x⟩
    (some (poolOnlyHybridParams x)) none trader sender none)
    (fun sim => c.pool x = some sim.returnAmount) (fun _ => c.pool x = none)
  reverse : ∀ t ≤ u128Max, 0 < t → Meets (pair.hybridReverseSimulation ⟨askInfo, t⟩
    poolOnlyHybridTemplate trader sender none)
    (fun sim => IsLeast (feasibleOffers c.inputReserve c.outputReserve c.feeBps t) sim.offerAmount)
    (fun _ => feasibleOffers c.inputReserve c.outputReserve c.feeBps t = ∅)

/-- A hop that sends everything to the pool. -/
structure Hop where
  offer : Addr
  ask : Addr
  pair : Pair
  terms : HopTerms

def Hop.operation (h : Hop) : SwapOperation := .terraSwap (.token h.offer) (.token h.ask) none none

/-- The pair of a hop and its two tokens answer by the terms of the hop. -/
structure Hop.Priced (h : Hop) (q : QuoteContext) (trader sender : Option Addr) : Prop where
  inputReserve : h.terms.inputReserve ≤ u128Max
  outputReserve : h.terms.outputReserve ≤ u128Max
  listed : q.pair (.token h.offer) (.token h.ask) = .ok h.pair
  answers : h.pair.Answers trader sender (.token h.offer) (.token h.ask) h.terms
  sells : (q.token h.offer).Charges h.pair.contractAddr trader .sell h.terms.sellBps
  buys : (q.token h.ask).Charges h.pair.contractAddr trader .buy h.terms.buyBps

structure Hop.Steady (h : Hop) (q : QuoteContext) (trader : Option Addr) : Prop where
  sells : (q.token h.offer).Steady h.pair.contractAddr trader .sell
  buys : (q.token h.ask).Steady h.pair.contractAddr trader .buy

section Token

variable {token : Token} {pair router : Addr} {trader : Option Addr} {kind : RouteTaxKind}
  {bps amount : ℕ} {p : RouteTaxPreviewResponse}

theorem fromGross_zero (kind : RouteTaxKind) (ha : amount ≤ u128Max) :
    fromGross kind amount 0 = .ok ⟨fundingVersion, amount, amount, 0, amount⟩ := by
  cases kind with
  | sell => exact sellFromGross_exempt ha
  | buy =>
      change buyFromGross amount 0 = _
      rw [buyFromGross_eq ha (Nat.zero_le _)]
      simp [ConstantProduct.net]

theorem preview_ordinary (hcap : capability token = .ok none) (r : Option Addr) (a : ℕ) :
    preview token pair trader r a kind = .ok ⟨fundingVersion, a, a, 0, a⟩ := by
  unfold preview
  rw [hcap]
  rfl

theorem preview_taxed {c : RouteTaxCapabilityResponse} (hcap : capability token = .ok (some c))
    (r : Option Addr) (a : ℕ) :
    preview token pair trader r a kind = previewWithCapability token pair trader r a kind
      (some c) := by
  unfold preview
  rw [hcap]
  rfl

theorem previewWithCapability_eq_ok {c : RouteTaxCapabilityResponse} {r : Option Addr}
    (h : previewWithCapability token pair trader r amount kind (some c) = .ok p) :
    (∀ a, r = some a → c.router = some a) ∧
      token.routeTaxPreview kind amount trader pair = .ok p := by
  unfold previewWithCapability at h
  obtain ⟨_, htrust, h⟩ := bind_eq_ok.1 h
  obtain ⟨p', hp', h⟩ := bind_eq_ok.1 h
  obtain ⟨_, -, h⟩ := bind_eq_ok.1 h
  cases h
  exact ⟨ensure_eq_ok.1 htrust, hp'⟩

theorem preview_sound (h : token.Charges pair trader kind bps) (ha : amount ≤ u128Max)
    {r : Option Addr} (hp : preview token pair trader r amount kind = .ok p) :
    fromGross kind amount bps = .ok p := by
  cases h with
  | ordinary hcap hbps =>
      rw [preview_ordinary hcap] at hp
      rw [hbps, fromGross_zero kind ha]
      exact hp
  | taxed c exempt hcap hbuy hsell hrate hanswer =>
      rw [preview_taxed hcap] at hp
      exact hanswer amount p (previewWithCapability_eq_ok hp).2

theorem validatePreview_sell (ha : amount ≤ u128Max) (h : sellFromGross amount bps = .ok p) :
    validatePreview .sell amount p = .ok () := by
  have hbps : bps ≤ 10000 := by
    by_contra hgt
    rw [sellFromGross_error (not_le.1 hgt)] at h
    cases h
  obtain ⟨s, hs, hgreatest⟩ := sellFromGross_eq ha hbps
  have hfits : s + s * bps / 10000 ≤ amount := hgreatest.1
  rw [hs] at h
  cases h
  unfold validatePreview
  dsimp only
  rw [ensure_pos ⟨rfl, rfl, (Nat.le_add_left _ _).trans hfits, (Nat.le_add_right _ _).trans hfits,
    (Nat.le_add_right _ _).trans hfits⟩, ok_bind, tryAdd_eq_ok.2 ⟨hfits.trans ha, rfl⟩, ok_bind]
  exact ensure_pos ⟨hfits, rfl⟩

theorem validatePreview_buy (ha : amount ≤ u128Max) (h : buyFromGross amount bps = .ok p) :
    validatePreview .buy amount p = .ok () := by
  have hbps : bps ≤ 10000 := by
    unfold buyFromGross at h
    obtain ⟨_, hbps, -⟩ := bind_eq_ok.1 h
    exact ensure_eq_ok.1 hbps
  have htax : amount * bps / 10000 ≤ amount := ConstantProduct.fee_le hbps
  have hsum : ConstantProduct.net amount bps + amount * bps / 10000 = amount :=
    Nat.sub_add_cancel htax
  rw [buyFromGross_eq ha hbps] at h
  cases h
  unfold validatePreview
  dsimp only
  rw [ensure_pos ⟨rfl, rfl, htax, Nat.sub_le _ _, le_rfl⟩, ok_bind,
    tryAdd_eq_ok.2 ⟨hsum.le.trans ha, rfl⟩, ok_bind]
  exact ensure_pos ⟨hsum, rfl⟩

theorem validatePreview_eq_ok (ha : amount ≤ u128Max) (h : fromGross kind amount bps = .ok p) :
    validatePreview kind amount p = .ok () := by
  cases kind with
  | sell => exact validatePreview_sell ha h
  | buy => exact validatePreview_buy ha h

/-- A token that answered once answers every amount that its rate does. -/
theorem preview_complete (h : token.Charges pair trader kind bps)
    (hsteady : token.Steady pair trader kind) {a : ℕ} {p' : RouteTaxPreviewResponse}
    {r : Option Addr} (ha : a ≤ u128Max) (hran : preview token pair trader r a kind = .ok p')
    (hamount : amount ≤ u128Max) : ∃ p, preview token pair trader r amount kind = .ok p := by
  cases h with
  | ordinary hcap hbps => exact ⟨_, preview_ordinary hcap r amount⟩
  | taxed c exempt hcap hbuy hsell hrate hanswer =>
      rw [preview_taxed hcap] at hran ⊢
      obtain ⟨htrust, hran⟩ := previewWithCapability_eq_ok hran
      obtain ⟨p, hp⟩ := hsteady a amount p' ha hamount hran
      refine ⟨p, ?_⟩
      unfold previewWithCapability
      dsimp only
      rw [ensure_pos htrust, ok_bind, hp, ok_bind,
        validatePreview_eq_ok hamount (hanswer amount p hp)]
      rfl

theorem preview_funded (h : token.Charges pair trader .sell bps) (ha : amount ≤ u128Max)
    {r : Option Addr} (hp : preview token pair trader r amount .sell = .ok p) :
    funded bps amount = some p.economic := by
  have hgross : sellFromGross amount bps = .ok p := preview_sound h ha hp
  unfold funded
  rw [if_pos ha, hgross]
  rfl

theorem preview_bought (h : token.Charges pair trader .buy bps) (ha : amount ≤ u128Max)
    {r : Option Addr} (hp : preview token pair trader r amount .buy = .ok p) :
    bought bps amount = some p.net := by
  have hgross : buyFromGross amount bps = .ok p := preview_sound h ha hp
  unfold bought
  rw [if_pos ha, hgross]
  rfl

end Token

section Hop

variable {h : Hop} {q : QuoteContext} {trader sender : Option Addr} {flag : Bool} {x y t : ℕ}

theorem Token.Charges.buyBps_lt {token : Token} {pair : Addr} {bps : ℕ}
    (h : token.Charges pair trader .buy bps) : bps < 10000 := by
  cases h with
  | ordinary hcap hbps => omega
  | taxed c exempt hcap hbuy hsell hrate hanswer =>
      have hle : bps ≤ c.buyBps := by
        rw [hrate]
        exact effectiveRate_le le_rfl
      exact hle.trans_lt (hbuy rfl)

theorem Hop.Priced.admitted (hp : h.Priced q trader sender) : h.terms.Admitted where
  inputReserve := hp.inputReserve
  outputReserve := hp.outputReserve
  buyBps := hp.buys.buyBps_lt

/-- Without a declared split both kinds of forward quote ask the pair for the same. -/
theorem simulateHop_eq (hp : h.Priced q trader sender) :
    simulateHop q trader sender flag x h.operation = (do
      let p ← preview (q.token h.offer) h.pair.contractAddr trader (some q.router) x .sell
      let sim ← h.pair.hybridSimulation ⟨.token h.offer, p.economic⟩
        (some (poolOnlyHybridParams p.economic)) none trader sender none
      let b ← preview (q.token h.ask) h.pair.contractAddr trader (some q.router) sim.returnAmount
        .buy
      return b.net) := by
  unfold simulateHop Hop.operation
  dsimp only
  rw [hp.listed, ok_bind, ensure_pos (by decide), ok_bind]
  cases flag <;> rfl

theorem Pair.Answers.returned (ha : h.pair.Answers trader sender (.token h.offer) (.token h.ask)
    h.terms) (hx : x ≤ u128Max) {sim : HybridSimulationResponse}
    (hsim : h.pair.hybridSimulation ⟨.token h.offer, x⟩ (some (poolOnlyHybridParams x)) none trader
      sender none = .ok sim) : h.terms.pool x = some sim.returnAmount :=
  (ha.forward x hx).success hsim

theorem simulateHop_sound (hp : h.Priced q trader sender) (hx : x ≤ u128Max)
    (hrun : simulateHop q trader sender flag x h.operation = .ok y) :
    h.terms.stage x = some y := by
  rw [simulateHop_eq hp] at hrun
  obtain ⟨p, hsell, hrun⟩ := bind_eq_ok.1 hrun
  obtain ⟨sim, hsim, hrun⟩ := bind_eq_ok.1 hrun
  obtain ⟨b, hbuy, hrun⟩ := bind_eq_ok.1 hrun
  cases hrun
  have hfunded := preview_funded hp.sells hx hsell
  have heconomic : p.economic ≤ u128Max := (funded_within hfunded).2.trans hx
  have hpool := hp.answers.returned heconomic hsim
  have hreturn := (pooled_within hp.inputReserve hp.outputReserve hpool).2
  have hbought := preview_bought hp.buys hreturn hbuy
  exact andThen_eq_some.2 ⟨_, hfunded, andThen_eq_some.2 ⟨_, hpool, hbought⟩⟩

/-- Both tokens of the hop have answered one forward quote. -/
structure Hop.Ran (h : Hop) (q : QuoteContext) (trader : Option Addr) : Prop where
  sells : ∃ a ≤ u128Max, ∃ p, preview (q.token h.offer) h.pair.contractAddr trader (some q.router)
    a .sell = .ok p
  buys : ∃ a ≤ u128Max, ∃ p, preview (q.token h.ask) h.pair.contractAddr trader (some q.router)
    a .buy = .ok p

theorem Hop.ran_of_simulateHop (hp : h.Priced q trader sender) (hx : x ≤ u128Max)
    (hrun : simulateHop q trader sender flag x h.operation = .ok y) : h.Ran q trader := by
  rw [simulateHop_eq hp] at hrun
  obtain ⟨p, hsell, hrun⟩ := bind_eq_ok.1 hrun
  obtain ⟨sim, hsim, hrun⟩ := bind_eq_ok.1 hrun
  obtain ⟨b, hbuy, -⟩ := bind_eq_ok.1 hrun
  have heconomic : p.economic ≤ u128Max :=
    (funded_within (preview_funded hp.sells hx hsell)).2.trans hx
  have hpool := hp.answers.returned heconomic hsim
  constructor
  · exact ⟨x, hx, p, hsell⟩
  · exact ⟨_, (pooled_within hp.inputReserve hp.outputReserve hpool).2, b, hbuy⟩

theorem Hop.Ran.sell (hran : h.Ran q trader) (hp : h.Priced q trader sender)
    (hs : h.Steady q trader) (hx : x ≤ u128Max) :
    ∃ p, preview (q.token h.offer) h.pair.contractAddr trader (some q.router) x .sell = .ok p := by
  obtain ⟨a, ha, p, hp'⟩ := hran.sells
  exact preview_complete hp.sells hs.sells ha hp' hx

theorem Hop.Ran.buy (hran : h.Ran q trader) (hp : h.Priced q trader sender)
    (hs : h.Steady q trader) (hx : x ≤ u128Max) :
    ∃ p, preview (q.token h.ask) h.pair.contractAddr trader (some q.router) x .buy = .ok p := by
  obtain ⟨a, ha, p, hp'⟩ := hran.buys
  exact preview_complete hp.buys hs.buys ha hp' hx

theorem simulateHop_complete (hp : h.Priced q trader sender) (hs : h.Steady q trader)
    (hran : h.Ran q trader) (hstage : h.terms.stage x = some y) :
    simulateHop q trader sender flag x h.operation = .ok y := by
  obtain ⟨e, he, htrade⟩ := andThen_eq_some.1 hstage
  obtain ⟨r, hr, hy⟩ := andThen_eq_some.1 htrade
  obtain ⟨hx, hex⟩ := funded_within he
  have hemax : e ≤ u128Max := hex.trans hx
  obtain ⟨p, hsell⟩ := hran.sell hp hs hx
  obtain rfl : p.economic = e :=
    Option.some.inj ((preview_funded hp.sells hx hsell).symm.trans he)
  have hsim : ∃ sim, h.pair.hybridSimulation ⟨.token h.offer, p.economic⟩
      (some (poolOnlyHybridParams p.economic)) none trader sender none = .ok sim := by
    have hmeets := hp.answers.forward p.economic hemax
    cases hsim : h.pair.hybridSimulation ⟨.token h.offer, p.economic⟩
        (some (poolOnlyHybridParams p.economic)) none trader sender none with
    | ok sim => exact ⟨sim, rfl⟩
    | error err =>
        rw [hmeets.failure hsim] at hr
        cases hr
  obtain ⟨sim, hsim⟩ := hsim
  obtain rfl : sim.returnAmount = r :=
    Option.some.inj ((hp.answers.returned hemax hsim).symm.trans hr)
  have hrmax := (pooled_within hp.inputReserve hp.outputReserve hr).2
  obtain ⟨b, hbuy⟩ := hran.buy hp hs hrmax
  obtain rfl : b.net = y := Option.some.inj ((preview_bought hp.buys hrmax hbuy).symm.trans hy)
  rw [simulateHop_eq hp, hsell, ok_bind, hsim, ok_bind, hbuy]
  rfl

end Hop

end Cl8yDex.Router
