import Cl8yDex.Types

/-!
# What the pair sees and says

The block it runs in, the answers of the contracts it queries, and the messages and report it
returns. A query that fails has no answer. Only the fields that an entry point reads or writes are
kept.
-/

namespace Cl8yDex

open Outcome

structure Env where
  blockTime : ℕ
  height : ℕ
  txIndex : ℕ
  contract : Addr

structure BlacklistCheck where
  wallet : Option Addr
  tokens : List Addr
  pair : Option Addr

structure BlacklistCheckResponse where
  blocked : Bool
  walletBlacklisted : Bool
  pairBlacklisted : Bool
  blacklistedTokens : List Addr
  blacklistedPairs : List Addr

structure DiscountResponse where
  discountBps : ℕ
  limitDiscountBps : Option ℕ
  needsDeregister : Bool
  registrationEpoch : Option ℕ
  deriving DecidableEq

structure HookConfigResponse where
  recipient : Option Addr
  taxPercentageBps : Option ℕ
  taxToken : Option Addr
  burnToken : Option Addr
  burnPercentageBps : Option ℕ
  targetPair : Option Addr
  lpToken : Option Addr
  percentageBps : Option ℕ

/-- The answers of the chain and of the other contracts. -/
structure Querier where
  validAddr : Addr → Bool
  blacklistCheck : Addr → BlacklistCheck → Option BlacklistCheckResponse
  codeId : Addr → Option ℕ
  isCodeIdWhitelisted : Addr → ℕ → Option Bool
  decimals : Addr → Option ℕ
  getDiscount : Addr → Addr → Addr → Option DiscountResponse
  hookConfig : Addr → Option HookConfigResponse
  balance : Addr → Addr → Option ℕ

def Querier.addrValidate (q : Querier) (a : Addr) : Except ContractError Addr :=
  if q.validAddr a then .ok a else .error (.std (.genericErr "invalid address"))

def Querier.addrValidateOr (q : Querier) (a : Option Addr) (default : Addr) :
    Except ContractError Addr :=
  match a with
  | some a => q.addrValidate a
  | none => .ok default

/-- A chain that answers everything and restricts nothing. -/
def Querier.permissive : Querier where
  validAddr _ := true
  blacklistCheck _ _ := some ⟨false, false, false, [], []⟩
  codeId _ := some 1
  isCodeIdWhitelisted _ _ := some true
  decimals _ := some 6
  getDiscount _ _ _ := none
  hookConfig _ := none
  balance _ _ := some 0

/-- A failed smart query. -/
def queryErr : ContractError := .std (.genericErr "Querier contract error")

/-- The payload of the hook callback. -/
structure AfterSwap where
  pair : Addr
  sender : Addr
  offerAsset : Asset
  returnAsset : Asset
  commissionAmount : ℕ
  spreadAmount : ℕ
  deriving DecidableEq

inductive CosmosMsg
  | transfer (token recipient : Addr) (amount : ℕ)
  | transferFrom (token owner recipient : Addr) (amount : ℕ)
  | mint (token recipient : Addr) (amount : ℕ)
  | burn (token : Addr) (amount : ℕ)
  | hook (hook : Addr) (call : AfterSwap)
  | deregisterWallet (registry wallet : Addr) (epoch : Option ℕ)
  | updateAdmin (contractAddr admin : Addr)
  deriving DecidableEq

/-- A transfer that is only sent when there is something to send. -/
def maybeTransfer (token recipient : Addr) (amount : ℕ) : List CosmosMsg :=
  if amount = 0 then [] else [.transfer token recipient amount]

end Cl8yDex
