import Cl8yDex.Arithmetic
import Cl8yDex.DoublyLinked
import Cl8yDex.Outcome

/-!
# Shared types, limits and errors

The vocabulary of the pair contract: order sides, swap parameters, the hard caps on every walk
and the errors an entry point can answer with. Addresses and order ids are numbers; a Rust panic
aborts the transaction, so it is one more error.
-/

namespace Cl8yDex

abbrev Addr := ℕ

abbrev OrderId := ℕ

/-- Bids escrow token1 and asks escrow token0; a price is token1 per token0. -/
inductive LimitOrderSide
  | bid
  | ask
  deriving DecidableEq, Repr

namespace LimitOrderSide

def other : LimitOrderSide → LimitOrderSide
  | bid => ask
  | ask => bid

def sideStr : LimitOrderSide → String
  | bid => "bid"
  | ask => "ask"

@[simp] theorem other_ne (s : LimitOrderSide) : s.other ≠ s := by cases s <;> decide

theorem eq_or_eq_other (s t : LimitOrderSide) : t = s ∨ t = s.other := by
  cases s <;> cases t <;> decide

theorem eq_other_of_ne {s t : LimitOrderSide} (h : t ≠ s) : t = s.other :=
  (eq_or_eq_other s t).resolve_left h

end LimitOrderSide

inductive AssetInfo
  | token (contractAddr : Addr)
  | nativeToken (denom : String)
  deriving DecidableEq

structure Asset where
  info : AssetInfo
  amount : ℕ
  deriving DecidableEq

structure FeeConfig where
  feeBps : ℕ
  treasury : Addr
  deriving DecidableEq

inductive ExpiredLimitParkReason
  | expired
  | dustFilled
  | forceCleaned
  | blacklisted
  | unfillable
  deriving DecidableEq, Repr

namespace ExpiredLimitParkReason

def asAttr : ExpiredLimitParkReason → String
  | expired => "expired"
  | dustFilled => "dust_filled"
  | forceCleaned => "force_cleaned"
  | blacklisted => "blacklisted"
  | unfillable => "unfillable"

def isForceExpired : ExpiredLimitParkReason → Bool
  | expired => false
  | _ => true

end ExpiredLimitParkReason

inductive GreedyStopReason
  | worseThanPool
  | maxMakers
  | scanCap
  | empty
  | filled
  | remainderToPool
  deriving DecidableEq, Repr

def GreedyStopReason.asAttr : GreedyStopReason → String
  | worseThanPool => "worse_than_pool"
  | maxMakers => "max_makers"
  | scanCap => "scan_cap"
  | empty => "empty"
  | filled => "filled"
  | remainderToPool => "remainder_to_pool"

structure HybridSwapParams where
  poolInput : ℕ
  bookInput : ℕ
  maxMakerFills : ℕ
  bookStartHint : Option OrderId
  deriving DecidableEq

structure GreedySwapParams where
  maxMakerFills : ℕ
  bookStartHint : Option OrderId
  deriving DecidableEq

inductive SwapHybridMode
  | poolOnly
  | declared (params : HybridSwapParams)
  | greedy (params : GreedySwapParams)
  deriving DecidableEq

def maxAdjustStepsHardCap : ℕ := 256
def maxMakerFillsHardCap : ℕ := 100
def maxScanSteps : ℕ := 500
def maxHybridReverseSimCalls : ℕ := 32
def maxExpiredParksPerSwap : ℕ := 15
def limitOrderDustFlushThreshold : ℕ := 10
def maxLimitBatchRungsHardCap : ℕ := 100
def maxLimitCleanOrdersHardCap : ℕ := 100
def maxCleanScanSteps : ℕ := 500
def maxPairHooks : ℕ := 8
def discountCacheTtlSeconds : ℕ := 300
def maxPairAssetDecimalsBootstrap : ℕ := 18
def minimumLiquidity : ℕ := 1000

def poolOnlyHybridParams (offerAmount : ℕ) : HybridSwapParams where
  poolInput := offerAmount
  bookInput := 0
  maxMakerFills := 1
  bookStartHint := none

def resolveSwapHybridMode (hybrid : Option HybridSwapParams) (greedy : Option GreedySwapParams) :
    Except String SwapHybridMode :=
  match hybrid, greedy with
  | some _, some _ => .error
      ("cannot set both hybrid and greedy; use greedy for book-first or " ++
        "hybrid for a declared split")
  | none, none => .ok .poolOnly
  | none, some g =>
      if g.maxMakerFills = 0 then .error "max_maker_fills must be > 0 for greedy"
      else .ok (.greedy ⟨min g.maxMakerFills maxMakerFillsHardCap, g.bookStartHint⟩)
  | some h, none => .ok (.declared h)

inductive StdError
  | notFound (kind : String)
  | genericErr (msg : String)
  | overflow
  | divideByZero
  deriving DecidableEq

/-- The step during which a pending-escrow counter was found too small. -/
inductive EscrowPath
  | matchWalk
  | cancel
  | batchCancel
  | claimExpired
  | batchClaimExpired
  deriving DecidableEq

def EscrowPath.suffix : EscrowPath → String
  | matchWalk => ""
  | cancel => " on cancel"
  | batchCancel => " on batch cancel"
  | claimExpired => " on claim expired"
  | batchClaimExpired => " on batch claim expired"

inductive InvariantReason
  | pendingEscrowUnderflow (side : LimitOrderSide) (path : EscrowPath)
  | zeroOrderIds
  | orderIdOverflow
  | claimExists
  | parkNonExpired
  | zeroBidPrice
  | kDecreased (k newK : ℕ)
  | kIncreaseExceedsBound (delta bound : ℕ)
  | commissionRounding (remainder : ℕ)
  | isqrtTooLarge (lp product : ℕ)
  | isqrtTooSmall (lp product : ℕ)
  | lpFloorRounding (leg : String) (rem : ℕ)
  | withdrawFloorRounding (leg : String) (rem : ℕ)
  | exceedsU128 (ctx : String) (value : ℕ)
  deriving DecidableEq

def InvariantReason.text : InvariantReason → String
  | pendingEscrowUnderflow .bid path => "pending escrow token1 underflow" ++ path.suffix
  | pendingEscrowUnderflow .ask path => "pending escrow token0 underflow" ++ path.suffix
  | zeroOrderIds => "cannot reserve zero order ids"
  | orderIdOverflow => "order id overflow"
  | claimExists => "expired limit claim already exists for order id"
  | parkNonExpired => "park_expired_limit_order_for_claim on non-expired order"
  | zeroBidPrice => "zero bid price"
  | kDecreased k newK => "k decreased: " ++ toString k ++ " -> " ++ toString newK
  | kIncreaseExceedsBound delta bound =>
      "k increase exceeds rounding bound: delta=" ++ toString delta ++ ", bound=" ++
        toString bound
  | commissionRounding rem => "commission rounding exceeds 1 token: remainder=" ++ toString rem
  | isqrtTooLarge lp product => "isqrt too large: " ++ toString lp ++ "^2 > " ++ toString product
  | isqrtTooSmall lp product =>
      "isqrt too small: " ++ toString (lp + 1) ++ "^2 <= " ++ toString product
  | lpFloorRounding leg rem => "LP-" ++ leg ++ " floor rounding exceeds 1 token: rem=" ++
      toString rem
  | withdrawFloorRounding leg rem => "withdraw-" ++ leg ++
      " floor rounding exceeds 1 token: rem=" ++ toString rem
  | exceedsU128 ctx value => "256-bit result exceeds u128 (" ++ ctx ++ "): " ++ toString value

/-- Where a panicking operation of the source aborts the transaction. -/
inductive AbortSite
  | beliefReturn
  | spreadRatio
  | lpSlippage
  | ringIndex
  | reverseSearch
  deriving DecidableEq

inductive ContractError
  | hookNetMinimumRequired
  | std (err : StdError)
  | overflow
  | divideByZero
  | unauthorized
  | invalidToken
  | insufficientLiquidity
  | slippageExceeded (minLp actualLp : ℕ)
  | zeroAmount
  | invalidFee (reason : String)
  | maxSpreadAssertion (max actual : Decimal)
  | insufficientPoolLegForHybrid (poolInput minPoolInput bookInput : ℕ)
  | zeroPoolNetForHybrid (poolInput bookInput : ℕ)
  | bookHybridRequiresSlippageFloor (bookInput : ℕ)
  | invalidBeliefPrice (beliefPrice : Decimal)
  | minReturnAssertion (minimum actual : ℕ)
  | hookFeeExceedsReturn (deductions totalReturn : ℕ)
  | nativeTokenNotSupported
  | assetMismatch
  | oracle (reason : String)
  | deadlineExceeded (deadline current : ℕ)
  | paused
  | blacklisted (walletBlacklisted pairBlacklisted : Bool)
      (blacklistedTokens blacklistedPairs : List Addr)
  | blacklistGuardUnavailable
  | invariantViolation (reason : InvariantReason)
  | nothingToSweep (token : Addr)
  | withdrawSlippageExceeded (asset : Addr) (actual min : ℕ)
  | limitInsertStepsExceeded (max : ℕ)
  | hybridSplitMismatch
  | invalidHybridParams (reason : String)
  | limitOrderMakerFeeExceedsAmount
  | limitOrderUnfillable
  | limitOrderAmountTooSmall (min actual : ℕ)
  | limitBatchTooLarge (max actual : ℕ)
  | limitBatchAmountMismatch (expected actual : ℕ)
  | limitBatchEmpty
  | limitBatchDuplicateOrderId (orderId : OrderId)
  | limitBatchNoRungsPlaced (skipped : ℕ)
  | limitLadderInvalid (reason : String)
  | limitBatchConfigInvalid (reason : String)
  | noExpiredLimitClaim (orderId : OrderId)
  | limitCleanMaxOrdersExceeded (max actual : ℕ)
  | pairAssetDecimalsTooHigh (decimals0 decimals1 max : ℕ)
  | assetCodeIdDrift (token : Addr) (pinned live : ℕ)
  | assetCodeIdNotWhitelisted (token : Addr) (codeId : ℕ)
  | assetCodeIdGuardUnavailable
  | assetCodeIdUnpinned
  | abort (site : AbortSite)
  deriving DecidableEq

/-- A stored escrow counter was found smaller than what is owed. -/
def ContractError.Underflow (e : ContractError) : Prop :=
  ∃ side path, e = .invariantViolation (.pendingEscrowUnderflow side path)

open Outcome

/-- The checked operations with the error the `?` operator turns their failure into. -/
def addOrOverflow (a b : ℕ) : Except ContractError ℕ := orThrow (checkedAdd a b) .overflow

def subOrOverflow (a b : ℕ) : Except ContractError ℕ := orThrow (checkedSub a b) .overflow

def mulOrOverflow (a b : ℕ) : Except ContractError ℕ := orThrow (checkedMul a b) .overflow

def divOrZero (a b : ℕ) : Except ContractError ℕ := orThrow (checkedDiv a b) .divideByZero

theorem meets_add (a b : ℕ) : Meets (addOrOverflow a b) (fun c => c = a + b ∧ a + b ≤ u128Max)
    (fun e => e = .overflow ∧ u128Max < a + b) := by
  unfold addOrOverflow checkedAdd
  split_ifs with h
  · exact ⟨rfl, h⟩
  · exact ⟨rfl, not_le.1 h⟩

theorem meets_sub (a b : ℕ) : Meets (subOrOverflow a b) (fun c => c = a - b ∧ b ≤ a)
    (fun e => e = .overflow ∧ a < b) := by
  unfold subOrOverflow checkedSub
  split_ifs with h
  · exact ⟨rfl, h⟩
  · exact ⟨rfl, not_le.1 h⟩

@[simp] theorem addOrOverflow_eq_ok {a b c : ℕ} :
    addOrOverflow a b = .ok c ↔ a + b ≤ u128Max ∧ c = a + b := by
  simp [addOrOverflow]

@[simp] theorem subOrOverflow_eq_ok {a b c : ℕ} :
    subOrOverflow a b = .ok c ↔ b ≤ a ∧ c = a - b := by
  simp [subOrOverflow]

@[simp] theorem mulOrOverflow_eq_ok {a b c : ℕ} :
    mulOrOverflow a b = .ok c ↔ a * b ≤ u128Max ∧ c = a * b := by
  simp [mulOrOverflow]

@[simp] theorem divOrZero_eq_ok {a b c : ℕ} :
    divOrZero a b = .ok c ↔ b ≠ 0 ∧ c = a / b := by
  simp [divOrZero]

end Cl8yDex
