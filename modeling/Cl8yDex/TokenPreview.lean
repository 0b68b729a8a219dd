import Cl8yDex.CommunityTransfer
import Cl8yDex.RouteHops

/-!
# The route answers of the community token

What the token tells a router: its capability, and how it taxes one amount of a hop. The preview is
refused where the tax could not be paid out, so that whether the token answers may depend on the
amount; it does not if every tax can be paid out.
-/

namespace Cl8yDex.CommunityTax

open Outcome Router

def routeCapability (s : Storage) : RouteTaxCapabilityResponse :=
  ⟨Router.fundingVersion, s.config.router, s.config.buyBps, s.config.sellBps⟩

/-- The texts that a failed distribution leaves in a preview. -/
def sinkError : ContractError → Router.StdError
  | .std msg => .generic ("Generic error: " ++ msg)
  | .walletSinkAddr => .generic "Wallet sink requires addr"
  | .panic => .panic
  | _ => .overflow

/-- A share that would be credited to the router or to a listed pair. -/
def SinkCredit.blocked (s : Storage) (c : SinkCredit) : Bool :=
  !c.burn && c.share != 0 && (s.config.router == some c.addr || isListedPair s c.addr)

def routeRate (s : Storage) (kind : RouteTaxKind) (trader : Option Addr) : ℕ :=
  effectiveRate (trader.any (isManagerExempt s)) ((routeCapability s).bps kind)

/-- The checks of a preview that do not look at the amount. -/
def checkRoute (s : Storage) (host : Host) (self : Addr) (trader : Option Addr) (pair : Addr) :
    Except Router.StdError Unit := do
  ensure (host.validAddr pair) (Router.StdError.generic "invalid address")
  ensure (isListedPair s pair) (Router.StdError.generic "route pair is not registered")
  ensure (trader.all host.validAddr) (Router.StdError.generic "invalid address")
  ensure (trader.all (isRouteTrader s self))
    (Router.StdError.generic "Official router hop requires a trusted non-exempt trader")

/-- `route_preview`. -/
def routePreview (s : Storage) (host : Host) (self : Addr) (kind : RouteTaxKind) (amount : ℕ)
    (trader : Option Addr) (pair : Addr) : Except Router.StdError RouteTaxPreviewResponse := do
  checkRoute s host self trader pair
  let p ← fromGross kind amount (routeRate s kind trader)
  let sinks ← (sinkCredits s p.tax).mapError sinkError
  ensure (¬sinks.any (SinkCredit.blocked s))
    (Router.StdError.generic "route tax sink cannot credit router or listed pair")
  return p

def asToken (s : Storage) (host : Host) (self : Addr) : Token where
  routeTaxCapability := some (routeCapability s)
  getConfig := true
  taxMap := false
  taxInfo := false
  contractInfo := some (some "crates.io:cl8y-community-tax-token")
  routeTaxPreview := routePreview s host self

variable {s : Storage} {host : Host} {self pair : Addr} {trader : Option Addr}
  {kind : RouteTaxKind} {amount : ℕ} {p : RouteTaxPreviewResponse}

theorem routePreview_eq_ok : routePreview s host self kind amount trader pair = .ok p ↔
    checkRoute s host self trader pair = .ok () ∧
      fromGross kind amount (routeRate s kind trader) = .ok p ∧
      ∃ sinks, sinkCredits s p.tax = .ok sinks ∧ ¬sinks.any (SinkCredit.blocked s) := by
  unfold routePreview
  constructor
  · intro h
    obtain ⟨_, hcheck, h⟩ := bind_eq_ok.1 h
    obtain ⟨p', hp, h⟩ := bind_eq_ok.1 h
    obtain ⟨sinks, hsinks, h⟩ := bind_eq_ok.1 h
    obtain ⟨_, hopen, h⟩ := bind_eq_ok.1 h
    cases h
    refine ⟨hcheck, hp, sinks, ?_, ensure_eq_ok.1 hopen⟩
    cases hc : sinkCredits s p.tax with
    | ok cs =>
        rw [hc] at hsinks
        cases hsinks
        rfl
    | error e =>
        rw [hc] at hsinks
        cases hsinks
  · rintro ⟨hcheck, hp, sinks, hsinks, hopen⟩
    rw [hcheck, ok_bind, hp, ok_bind, hsinks]
    change (ensure _ _ >>= _) = _
    rw [ensure_pos hopen]
    rfl

theorem capability_asToken : capability (asToken s host self) = .ok (some (routeCapability s)) :=
  rfl

/-- The token charges a trader the configured rate, or nothing. -/
theorem asToken_charges (hbuy : kind = .buy → s.config.buyBps < 10000)
    (hsell : s.config.sellBps ≤ u16Max) :
    (asToken s host self).Charges pair trader kind (routeRate s kind trader) :=
  .taxed (routeCapability s) (trader.any (isManagerExempt s)) capability_asToken hbuy hsell rfl
    fun _ _ hp => (routePreview_eq_ok.1 hp).2.1

/-- Every tax can be paid out, and neither to the router nor to a listed pair. -/
def PaysOut (s : Storage) : Prop :=
  ∀ tax ≤ u128Max, ∃ sinks, sinkCredits s tax = .ok sinks ∧ ¬sinks.any (SinkCredit.blocked s)

theorem fromGross_answers {a b bps : ℕ} (ha : fromGross kind a bps = .ok p) (hb : b ≤ u128Max) :
    ∃ p', fromGross kind b bps = .ok p' ∧ p'.tax ≤ b := by
  have hbps : bps ≤ 10000 := by
    by_contra hgt
    cases kind with
    | sell =>
        change sellFromGross a bps = .ok p at ha
        rw [sellFromGross_error (not_le.1 hgt)] at ha
        cases ha
    | buy =>
        obtain ⟨_, hle, -⟩ := bind_eq_ok.1 ha
        exact hgt (ensure_eq_ok.1 hle)
  cases kind with
  | sell =>
      obtain ⟨e, he, hgreatest⟩ := sellFromGross_eq hb hbps
      exact ⟨_, he, (Nat.le_add_left _ _).trans hgreatest.1⟩
  | buy => exact ⟨_, buyFromGross_eq hb hbps, ConstantProduct.fee_le hbps⟩

theorem asToken_steady (h : PaysOut s) : (asToken s host self).Steady pair trader kind := by
  intro a b p _ hb hp
  obtain ⟨hcheck, hgross, -⟩ := routePreview_eq_ok.1 hp
  obtain ⟨p', hp', htax⟩ := fromGross_answers hgross hb
  obtain ⟨sinks, hsinks, hopen⟩ := h p'.tax (htax.trans hb)
  exact ⟨p', routePreview_eq_ok.2 ⟨hcheck, hp', sinks, hsinks, hopen⟩⟩

end Cl8yDex.CommunityTax
