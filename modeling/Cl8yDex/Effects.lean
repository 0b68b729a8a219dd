import Cl8yDex.Execute
import Cl8yDex.MatchWalk

/-!
# The effect of one operation

An operation is a short run of acts with a kind: it only drains the book, reprices one order, or
places a batch. Its effect ties the acts to the stored book, to the user who asked for them and to
the transfers in its response.
-/

namespace Cl8yDex

open Outcome

namespace CosmosMsg

/-- What the message takes of a token out of the pair's account. -/
def sent (token : Addr) : CosmosMsg → ℕ
  | transfer t _ n => if t = token then n else 0
  | _ => 0

def sentTo (token user : Addr) : CosmosMsg → ℕ
  | transfer t r n => if t = token ∧ r = user then n else 0
  | _ => 0

/-- What the message pulls of a token into the pair's account. -/
def pulled (token : Addr) : CosmosMsg → ℕ
  | transferFrom t _ _ n => if t = token then n else 0
  | _ => 0

end CosmosMsg

@[simp] theorem sent_maybeTransfer (token t r : Addr) (n : ℕ) :
    totalOf (CosmosMsg.sent token) (maybeTransfer t r n) = if t = token then n else 0 := by
  unfold maybeTransfer
  split_ifs <;> simp_all [CosmosMsg.sent]

@[simp] theorem sentTo_maybeTransfer (token user t r : Addr) (n : ℕ) :
    totalOf (CosmosMsg.sentTo token user) (maybeTransfer t r n) =
      if t = token ∧ r = user then n else 0 := by
  unfold maybeTransfer
  split_ifs <;> simp_all [CosmosMsg.sentTo]

@[simp] theorem pulled_maybeTransfer (token t r : Addr) (n : ℕ) :
    totalOf (CosmosMsg.pulled token) (maybeTransfer t r n) = 0 := by
  unfold maybeTransfer
  split_ifs <;> simp [CosmosMsg.pulled]

/-- What the pair must hold of the token that a side escrows. -/
def PairStorage.owed (p : PairStorage) (s : LimitOrderSide) : ℕ :=
  outputReserve p.reserves s + p.book.pendingEscrow s

/-- Every unit of the two assets is accounted for: what came in and what was owed is what goes out
and what is owed from now on. -/
def Conserves (p p' : PairStorage) (incoming : LimitOrderSide → ℕ) (msgs : List CosmosMsg) : Prop :=
  ∀ s, incoming s + totalOf (CosmosMsg.pulled (p.pairInfo.escrowToken s)) msgs + p.owed s =
    totalOf (CosmosMsg.sent (p.pairInfo.escrowToken s)) msgs + p'.owed s

namespace Act

/-- What the act pays back to the owner of an order. -/
def refunded (s : LimitOrderSide) : Act → ℕ
  | cancel s' _ n | claim s' _ n => if s' = s then n else 0
  | _ => 0

def Refunds : Act → Prop
  | cancel .. | claim .. => True
  | _ => False

/-- The user owns whatever the act disposes of at will. Fills, drops and parks are open to all. -/
def AuthorisedBy (A : AbsBook) (user : Addr) : Act → Prop
  | place _ t => t.owner = user
  | reprice x _ => ∃ t, A.rows x = some t ∧ t.owner = user
  | cancel s x n => ∃ t, A.rows x = some t ∧ t.owner = user ∧ t.side = s ∧ t.remaining = n
  | claim s x n => ∃ r, A.claims x = some r ∧ r.owner = user ∧ r.side = s ∧ r.remaining = n
  | _ => True

end Act

/-- The acts of a placement: ids are reserved, the placed ones join in book order, and the escrow
is counted at the end. -/
structure Placing (A : AbsBook) (side : LimitOrderSide) (count : ℕ)
    (placed : List (OrderId × OrderTerms)) (tail : List Act) : Prop where
  fresh : ∀ r ∈ placed, A.nextId ≤ r.1
  side_eq : ∀ r ∈ placed, r.2.side = side
  arrival : placed.Pairwise fun r r' => r.2.price = r'.2.price → r.1 < r'.1
  tail_eq : ∀ a ∈ tail, ∃ n, a = .escrowAdd side n

def placeActs (placed : List (OrderId × OrderTerms)) : List Act :=
  placed.map fun r => .place r.1 r.2

inductive Kind (A : AbsBook) : List Act → Prop
  | draining {acts : List Act} (h : ∀ a ∈ acts, a.Drains) : Kind A acts
  | repricing (x : OrderId) (p : Decimal) : Kind A [.reprice x p]
  | placing {side : LimitOrderSide} {count : ℕ} {placed : List (OrderId × OrderTerms)}
      {tail : List Act} (h : Placing A side count placed tail) :
      Kind A (.reserve count :: (placeActs placed ++ tail))

/-- What an operation of `user` did to the book. -/
structure Effect (A : AbsBook) (p : PairStorage) (user : Addr) (acts : List Act) (A' : AbsBook)
    (p' : PairStorage) (msgs : List CosmosMsg) : Prop where
  run : Run A acts A'
  rep : Represents p'.book A'
  settled : Settled acts
  kind : Kind A acts
  authorised : ∀ a ∈ acts, a.AuthorisedBy A user
  bounded : (∀ s, A.escrow s ≤ u128Max) → ∀ s, A'.escrow s ≤ u128Max
  refunds : (∃ a ∈ acts, a.Refunds) → ∀ token u, totalOf (CosmosMsg.sentTo token u) msgs =
    if u = user then (if token = p.pairInfo.token0 then totalOf (Act.refunded .ask) acts else 0) +
      (if token = p.pairInfo.token1 then totalOf (Act.refunded .bid) acts else 0) else 0
  pairInfo : p'.pairInfo = p.pairInfo

/-- The three tokens of a pair are three contracts. -/
structure PairInfo.Distinct (info : PairInfo) : Prop where
  assets : info.token0 ≠ info.token1
  lp : ∀ s, info.escrowToken s ≠ info.lpToken

/-- A finished operation: some acts explain what it did to the book, and the tokens add up. -/
def Operation (A : AbsBook) (p : PairStorage) (user : Addr) (incoming : LimitOrderSide → ℕ)
    (out : PairStorage × Response) : Prop :=
  ∃ acts A', Effect A p user acts A' out.1 out.2.messages ∧
    (p.pairInfo.Distinct → Conserves p out.1 incoming out.2.messages)

theorem PairInfo.escrowToken_inj {info : PairInfo} (h : info.Distinct) {s s' : LimitOrderSide} :
    info.escrowToken s = info.escrowToken s' ↔ s = s' := by
  cases s <;> cases s' <;> simp [PairInfo.escrowToken, h.assets, Ne.symm h.assets]

/-- An operation that leaves the book alone. -/
theorem Effect.idle {A : AbsBook} {p p' : PairStorage} {msgs : List CosmosMsg} {user : Addr}
    (h : Represents p.book A) (hbook : p'.book = p.book) (hinfo : p'.pairInfo = p.pairInfo) :
    Effect A p user [] A p' msgs where
  run := .nil A
  rep := by rwa [hbook]
  settled _ := rfl
  kind := .draining (by simp)
  authorised := by simp
  bounded hb := hb
  refunds := by simp
  pairInfo := hinfo

end Cl8yDex
