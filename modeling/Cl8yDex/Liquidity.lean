import Cl8yDex.Pair
import Cl8yDex.PoolMath

/-!
# Providing and withdrawing liquidity

The first deposit mints the square root of the product and burns a minimum of it for good. Every
other deposit mints the smaller of the two proportional shares, and a withdrawal pays both reserves
in proportion, each rounded down.
-/

namespace Cl8yDex

open Outcome

def matchAssetAmounts (info : PairInfo) (provided : Asset × Asset) : Except ContractError (ℕ × ℕ) :=
  if provided.1.info = .token info.token0 ∧ provided.2.info = .token info.token1 then
    .ok (provided.1.amount, provided.2.amount)
  else if provided.1.info = .token info.token1 ∧ provided.2.info = .token info.token0 then
    .ok (provided.2.amount, provided.1.amount)
  else .error .assetMismatch

def assertPairAssetsDecimalsAllowInitialMint (q : Querier) (info : PairInfo) :
    Except ContractError Unit := do
  let (decimals0, decimals1) ← queryPairAssetDecimals q info
  ensure (decimals0 ≤ maxPairAssetDecimalsBootstrap ∧ decimals1 ≤ maxPairAssetDecimalsBootstrap)
    (.pairAssetDecimalsTooHigh decimals0 decimals1 maxPairAssetDecimalsBootstrap)

/-- `floor(amount · whole / base)` with its numerator. -/
def floorShare (amount whole base : ℕ) (ctx : String) : Except ContractError (ℕ × ℕ) := do
  let numerator ← mul256OrOverflow amount whole
  let quotient ← divOrZero numerator base
  let share ← narrowU128 quotient ctx
  return (numerator, share)

/-- The rounding loses less than one unit. -/
def checkFloor (numerator share base : ℕ) (reason : ℕ → InvariantReason) :
    Except ContractError Unit := do
  let scaled ← mul256OrOverflow share base
  ensure (numerator - scaled < base) (.invariantViolation (reason (numerator - scaled)))

def firstDepositLp (amountA amountB : ℕ) : Except ContractError ℕ := do
  let product ← mul256OrOverflow amountA amountB
  let lp ← narrowU128 (isqrtU256 product) "first-deposit lp"
  let square ← mul256OrOverflow lp lp
  ensure (square ≤ product) (.invariantViolation (.isqrtTooLarge lp product))
  let nextSquare ← mul256OrOverflow (lp + 1) (lp + 1)
  ensure (product < nextSquare) (.invariantViolation (.isqrtTooSmall lp product))
  return lp

def proportionalLp (amountA amountB reserveA reserveB totalSupply : ℕ) :
    Except ContractError ℕ := do
  let (numeratorA, lpA) ← floorShare amountA totalSupply reserveA "lp_a"
  let (numeratorB, lpB) ← floorShare amountB totalSupply reserveB "lp_b"
  checkFloor numeratorA lpA reserveA (.lpFloorRounding "A")
  checkFloor numeratorB lpB reserveB (.lpFloorRounding "B")
  return min lpA lpB

def isFirstDeposit (reserves : ℕ × ℕ) : Bool := reserves.1 = 0 ∧ reserves.2 = 0

/-- The total of LP tokens minted for a deposit. -/
def lpTokensTotal (p : PairStorage) (q : Querier) (amountA amountB : ℕ) :
    Except ContractError ℕ :=
  if isFirstDeposit p.reserves then do
    assertPairAssetsDecimalsAllowInitialMint q p.pairInfo
    firstDepositLp amountA amountB
  else proportionalLp amountA amountB p.reserves.1 p.reserves.2 p.totalLpSupply

/-- The user's part and the part that is burned. -/
def splitMint (firstDeposit : Bool) (lpTokens : ℕ) : Except ContractError (ℕ × ℕ) :=
  if firstDeposit then do
    ensure (minimumLiquidity < lpTokens) .insufficientLiquidity
    let toUser ← subOrOverflow lpTokens minimumLiquidity
    return (toUser, minimumLiquidity)
  else .ok (lpTokens, 0)

/-- The least mint that a tolerance allows; a tolerance above one aborts. -/
def minLpFor (expectedLp : ℕ) (tolerance : Decimal) : Except ContractError ℕ := do
  let keep ← orThrow (Decimal.one.checkedSub tolerance) (.abort .lpSlippage)
  orThrow (Decimal.checkedMulFloor expectedLp keep) (.abort .lpSlippage)

def assertLpSlippage (p : PairStorage) (amountA amountB lpToUser : ℕ) (tolerance : Decimal) :
    Except ContractError Unit := do
  let (_, expectedA) ← floorShare amountA p.totalLpSupply p.reserves.1 "expected_lp_a"
  let (_, expectedB) ← floorShare amountB p.totalLpSupply p.reserves.2 "expected_lp_b"
  let expectedLp := max expectedA expectedB
  if expectedLp = 0 then return ()
  else
    let minLp ← minLpFor expectedLp tolerance
    ensure (minLp ≤ lpToUser) (.slippageExceeded minLp lpToUser)

/-- The first deposit has no ratio to slip from. -/
def checkLpSlippage (p : PairStorage) (amountA amountB lpToUser : ℕ) (tolerance : Option Decimal) :
    Except ContractError Unit :=
  match tolerance with
  | some tolerance =>
      if isFirstDeposit p.reserves then .ok ()
      else assertLpSlippage p amountA amountB lpToUser tolerance
  | none => .ok ()

def burnMessages (pair lpToken : Addr) (lpToBurn : ℕ) : List CosmosMsg :=
  if lpToBurn = 0 then [] else [.mint lpToken pair lpToBurn, .burn lpToken lpToBurn]

/-- `execute_provide_liquidity`. The deposit is pulled by the messages. -/
def executeProvideLiquidity (p : PairStorage) (q : Querier) (env : Env) (sender : Addr)
    (assets : Asset × Asset) (slippageTolerance : Option Decimal) (receiver : Option Addr) :
    Except ContractError (PairStorage × Response) := do
  let (amountA, amountB) ← matchAssetAmounts p.pairInfo assets
  ensure (¬(amountA = 0 ∨ amountB = 0)) .zeroAmount
  let p ← p.updateOracle env
  let lpTokens ← lpTokensTotal p q amountA amountB
  ensure (lpTokens ≠ 0) .insufficientLiquidity
  let (lpToUser, lpToBurn) ← splitMint (isFirstDeposit p.reserves) lpTokens
  checkLpSlippage p amountA amountB lpToUser slippageTolerance
  let reserveA ← addOrOverflow p.reserves.1 amountA
  let reserveB ← addOrOverflow p.reserves.2 amountB
  let totalSupply ← addOrOverflow p.totalLpSupply lpTokens
  let lpReceiver ← q.addrValidateOr receiver sender
  return (
    { p with reserves := (reserveA, reserveB), totalLpSupply := totalSupply },
    { messages :=
        [.transferFrom p.pairInfo.token0 sender env.contract amountA,
          .transferFrom p.pairInfo.token1 sender env.contract amountB,
          .mint p.pairInfo.lpToken lpReceiver lpToUser] ++
        burnMessages env.contract p.pairInfo.lpToken lpToBurn
      events := []
      attributes := .provideLiquidity sender lpReceiver amountA amountB lpToUser lpToBurn })

/-- The two amounts of a withdrawal. -/
def withdrawAmounts (p : PairStorage) (lpAmount : ℕ) : Except ContractError (ℕ × ℕ) := do
  let (numeratorA, amountA) ← floorShare lpAmount p.reserves.1 p.totalLpSupply "withdraw amount_a"
  let (numeratorB, amountB) ← floorShare lpAmount p.reserves.2 p.totalLpSupply "withdraw amount_b"
  checkFloor numeratorA amountA p.totalLpSupply (.withdrawFloorRounding "A")
  checkFloor numeratorB amountB p.totalLpSupply (.withdrawFloorRounding "B")
  return (amountA, amountB)

def assertMinAssets (info : PairInfo) (amounts : ℕ × ℕ) (minAssets : Option (ℕ × ℕ)) :
    Except ContractError Unit :=
  match minAssets with
  | some mins => do
      ensure (mins.1 ≤ amounts.1) (.withdrawSlippageExceeded info.token0 amounts.1 mins.1)
      ensure (mins.2 ≤ amounts.2) (.withdrawSlippageExceeded info.token1 amounts.2 mins.2)
  | none => .ok ()

/-- `execute_withdraw_liquidity`. The LP tokens have already arrived. -/
def executeWithdrawLiquidity (p : PairStorage) (env : Env) (offerToken sender : Addr)
    (lpAmount : ℕ) (minAssets : Option (ℕ × ℕ)) :
    Except ContractError (PairStorage × Response) := do
  ensure (offerToken = p.pairInfo.lpToken) .invalidToken
  ensure (lpAmount ≠ 0) .zeroAmount
  let p ← p.updateOracle env
  ensure (p.totalLpSupply ≠ 0) .insufficientLiquidity
  let (amountA, amountB) ← withdrawAmounts p lpAmount
  assertMinAssets p.pairInfo (amountA, amountB) minAssets
  let reserveA ← subOrOverflow p.reserves.1 amountA
  let reserveB ← subOrOverflow p.reserves.2 amountB
  let totalSupply ← subOrOverflow p.totalLpSupply lpAmount
  return (
    { p with reserves := (reserveA, reserveB), totalLpSupply := totalSupply },
    { messages :=
        [.burn p.pairInfo.lpToken lpAmount,
          .transfer p.pairInfo.token0 sender amountA,
          .transfer p.pairInfo.token1 sender amountB]
      events := []
      attributes := .withdrawLiquidity sender lpAmount amountA amountB })

end Cl8yDex
