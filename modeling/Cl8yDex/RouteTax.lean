import Cl8yDex.Types

/-!
# Taxed funding of a route

How a token divides the gross budget of a hop, how the router asks it, and the offers the router
derives backwards. A token is what it answers: its capability, the queries only a taxed token of
the first generation knows, and its preview of one amount.
-/

namespace Cl8yDex.Router

open Outcome

inductive StdError
  | generic (msg : String)
  | overflow
  | panic
  | outOfSteps
  deriving DecidableEq

def fundingVersion : ℕ := 1

inductive RouteTaxKind
  | sell
  | buy
  deriving DecidableEq

structure RouteTaxCapabilityResponse where
  fundingVersion : ℕ
  router : Option Addr
  buyBps : ℕ
  sellBps : ℕ
  deriving DecidableEq

structure RouteTaxPreviewResponse where
  fundingVersion : ℕ
  gross : ℕ
  economic : ℕ
  tax : ℕ
  net : ℕ
  deriving DecidableEq

def plus (a b : ℕ) : Except StdError ℕ := orThrow (checkedAdd a b) .panic

def minus (a b : ℕ) : Except StdError ℕ := orThrow (checkedSub a b) .panic

def tryAdd (a b : ℕ) : Except StdError ℕ := orThrow (checkedAdd a b) .overflow

def trySub (a b : ℕ) : Except StdError ℕ := orThrow (checkedSub a b) .overflow

def multiplyRatio (a num den : ℕ) : Except StdError ℕ :=
  orThrow (checkedMultiplyRatio a num den) .panic

section FromGross

/-- The upper middle of the bracket. -/
def middle (lo hi : ℕ) : Except StdError ℕ := do
  let width ← minus hi lo
  let half ← plus lo (width / 2)
  plus half (width % 2)

/-- The bracket `[lo, hi]` is halved until one economic amount is left. -/
def sellSearch (gross bps : ℕ) : ℕ → ℕ → ℕ → Except StdError ℕ
  | 0, _, _ => .error .outOfSteps
  | steps + 1, lo, hi =>
      if lo < hi then do
        let mid ← middle lo hi
        let tax ← multiplyRatio mid bps 10000
        let room ← trySub gross mid
        if tax ≤ room then sellSearch gross bps steps mid hi
        else do
          let below ← minus mid 1
          sellSearch gross bps steps lo below
      else .ok lo

/-- A bracket of machine integers is left after 128 halvings. -/
def sellSearchSteps : ℕ := 129

def sellFromGross (gross bps : ℕ) : Except StdError RouteTaxPreviewResponse := do
  ensure (bps ≤ 10000) (StdError.generic "route tax bps exceeds 10000")
  let economic ← sellSearch gross bps sellSearchSteps 0 gross
  let tax ← multiplyRatio economic bps 10000
  return ⟨fundingVersion, gross, economic, tax, economic⟩

def buyFromGross (gross bps : ℕ) : Except StdError RouteTaxPreviewResponse := do
  ensure (bps ≤ 10000) (StdError.generic "route tax bps exceeds 10000")
  let tax ← multiplyRatio gross bps 10000
  let net ← trySub gross tax
  return ⟨fundingVersion, gross, gross, tax, net⟩

end FromGross

section Token

/-- What a token answers while one quote is computed. -/
structure Token where
  routeTaxCapability : Option RouteTaxCapabilityResponse
  getConfig : Bool
  taxMap : Bool
  taxInfo : Bool
  /-- The stored contract name, when there is one and it can be read. -/
  contractInfo : Option (Option String)
  routeTaxPreview : RouteTaxKind → ℕ → Option Addr → Addr → Except StdError RouteTaxPreviewResponse

def ordinaryContracts : List String :=
  ["crates.io:cw20-base", "crates.io:cw20-mintable", "cw20-mintable"]

def capability (token : Token) : Except StdError (Option RouteTaxCapabilityResponse) :=
  match token.routeTaxCapability with
  | some c =>
      if c.fundingVersion = fundingVersion then .ok (some c)
      else .error (.generic "unsupported route-local tax funding version")
  | none => do
      -- a taxed token that only wallets can fund must not pass for an ordinary one
      ensure (!(token.getConfig || token.taxMap || token.taxInfo))
        (StdError.generic "token route-local tax funding capability unavailable")
      let raw ← orThrow token.contractInfo (StdError.generic "ordinary token identity unavailable")
      let identity ← orThrow raw (StdError.generic "parse error")
      ensure (identity ∈ ordinaryContracts)
        (StdError.generic "unsupported token trading capability")
      return none

variable (token : Token) (pair : Addr) (trader : Option Addr) (router : Option Addr)

def validatePreview (kind : RouteTaxKind) (amount : ℕ) (p : RouteTaxPreviewResponse) :
    Except StdError Unit := do
  ensure (p.fundingVersion = fundingVersion ∧ p.gross = amount ∧ p.tax ≤ amount ∧
    p.net ≤ amount ∧ p.economic ≤ amount) (StdError.generic "invalid route-local tax preview")
  match kind with
  | .sell => do
      let total ← tryAdd p.economic p.tax
      ensure (total ≤ amount ∧ p.net = p.economic)
        (StdError.generic "inconsistent route-local tax accounting")
  | .buy => do
      let total ← tryAdd p.net p.tax
      ensure (total = amount ∧ p.economic = amount)
        (StdError.generic "inconsistent route-local tax accounting")

def previewWithCapability (amount : ℕ) (kind : RouteTaxKind)
    (capability : Option RouteTaxCapabilityResponse) : Except StdError RouteTaxPreviewResponse :=
  match capability with
  | none => .ok ⟨fundingVersion, amount, amount, 0, amount⟩
  | some c => do
      ensure (∀ r, router = some r → c.router = some r)
        (StdError.generic "token does not trust this route-local router")
      let p ← token.routeTaxPreview kind amount trader pair
      validatePreview kind amount p
      return p

def preview (amount : ℕ) (kind : RouteTaxKind) : Except StdError RouteTaxPreviewResponse := do
  let c ← capability token
  previewWithCapability token pair trader router amount kind c

end Token

section Reverse

/-- The least gross output whose net is `net`; the preview is one of ten thousand units. -/
def reverseBuyAmount (net : ℕ) (preview : RouteTaxPreviewResponse) : Except StdError ℕ := do
  let denom ← trySub 10000 preview.tax
  ensure (denom ≠ 0) (StdError.generic "buy tax leaves zero output")
  let below ← trySub net 1
  let quotient ← orThrow (checkedMultiplyRatio below 10000 denom)
    (StdError.generic "Multiplication overflow")
  tryAdd quotient 1

def reverseSellAmount (economic : ℕ) (preview : RouteTaxPreviewResponse) : Except StdError ℕ := do
  let tax ← multiplyRatio economic preview.tax 10000
  tryAdd economic tax

variable (token : Token) (pair : Addr) (trader : Option Addr) (router : Addr)

def reverseBuy (net : ℕ) : Except StdError ℕ :=
  if net = 0 then .ok net
  else do
    let p ← preview token pair trader (some router) 10000 .buy
    reverseBuyAmount net p

def reverseSell (economic : ℕ) : Except StdError ℕ := do
  match ← capability token with
  | none => return economic
  | some c => do
      let p ← previewWithCapability token pair trader (some router) (10000 + c.sellBps) .sell
        (some c)
      reverseSellAmount economic p

end Reverse

end Cl8yDex.Router
