import Cl8yDex.Types

/-!
# The bridge-debt receipt

A token for what is owed on one bridged asset. Its minter mints to the debtor and burns from the
debtor; nobody can transfer it.
-/

namespace Cl8yDex.BridgeDebt

open Outcome

structure MessageInfo where
  sender : Addr
  funds : List (String × ℕ)

structure Receipt where
  name : String
  symbol : String
  decimals : ℕ
  totalSupply : ℕ
  minter : Addr
  cap : Option ℕ
  debtor : Addr
  balances : Addr → ℕ

inductive ReceiptError
  | std (msg : String)
  | unauthorized
  | unexpectedFunds
  | zeroAmount
  | invalidName
  | invalidSymbol
  | invalidDecimals
  | minterIsDebtor
  | cannotExceedCap
  | notTransferable
  | insufficientBalance
  deriving DecidableEq

structure ReceiptInstantiateMsg where
  name : String
  symbol : String
  decimals : ℕ
  minter : Addr
  debtor : Addr
  cap : Option ℕ

/-- The messages of a token, as far as the issuer and the receipt know them. -/
inductive TokenMsg
  | transfer (recipient : Addr) (amount : ℕ)
  | send (contract : Addr) (amount : ℕ)
  | burn (amount : ℕ)
  | mint (recipient : Addr) (amount : ℕ)
  | burnFrom (owner : Addr) (amount : ℕ)

def symbolMaxLen : ℕ := 32

def validateName (name : String) : Except ReceiptError Unit :=
  ensure (3 ≤ name.utf8ByteSize ∧ name.utf8ByteSize ≤ 50) .invalidName

def validateSymbol (symbol : String) : Except ReceiptError Unit :=
  ensure (3 ≤ symbol.utf8ByteSize ∧ symbol.utf8ByteSize ≤ symbolMaxLen ∧
    symbol.toList.all fun c => c.isAlphanum || c == '-') .invalidSymbol

def receiptAddr (validAddr : Addr → Bool) (a : Addr) : Except ReceiptError Addr :=
  if validAddr a then .ok a else .error (.std "invalid address")

namespace Receipt

variable (validAddr : Addr → Bool)

def instantiate (info : MessageInfo) (msg : ReceiptInstantiateMsg) :
    Except ReceiptError Receipt := do
  ensure (info.funds = []) .unexpectedFunds
  validateName msg.name
  validateSymbol msg.symbol
  ensure (msg.decimals ≤ 18) .invalidDecimals
  let minter ← receiptAddr validAddr msg.minter
  let debtor ← receiptAddr validAddr msg.debtor
  ensure (minter ≠ debtor) .minterIsDebtor
  return ⟨msg.name, msg.symbol, msg.decimals, 0, minter, msg.cap, debtor, fun _ => 0⟩

def executeMint (r : Receipt) (sender recipient : Addr) (amount : ℕ) :
    Except ReceiptError Receipt := do
  ensure (amount ≠ 0) .zeroAmount
  ensure (r.minter = sender) .unauthorized
  let recipient ← receiptAddr validAddr recipient
  ensure (recipient = r.debtor) .unauthorized
  let supply ← orThrow (checkedAdd r.totalSupply amount) (.std "overflow")
  ensure (∀ cap ∈ r.cap, supply ≤ cap) .cannotExceedCap
  let balance ← orThrow (checkedAdd (r.balances r.debtor) amount) (.std "overflow")
  return { r with totalSupply := supply, balances := Function.update r.balances r.debtor balance }

def executeBurnFrom (r : Receipt) (sender owner : Addr) (amount : ℕ) :
    Except ReceiptError Receipt := do
  ensure (amount ≠ 0) .zeroAmount
  ensure (r.minter = sender) .unauthorized
  let owner ← receiptAddr validAddr owner
  ensure (owner = r.debtor) .unauthorized
  let left ← orThrow (checkedSub (r.balances r.debtor) amount) .insufficientBalance
  let supply ← orThrow (checkedSub r.totalSupply amount) .insufficientBalance
  return { r with totalSupply := supply, balances := Function.update r.balances r.debtor left }

def execute (r : Receipt) (info : MessageInfo) (msg : TokenMsg) : Except ReceiptError Receipt := do
  ensure (info.funds = []) .unexpectedFunds
  match msg with
  | .transfer _ _ | .send _ _ | .burn _ => throw .notTransferable
  | .mint recipient amount => executeMint validAddr r info.sender recipient amount
  | .burnFrom owner amount => executeBurnFrom validAddr r info.sender owner amount

end Receipt

end Cl8yDex.BridgeDebt
