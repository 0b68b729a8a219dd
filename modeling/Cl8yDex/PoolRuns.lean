import Cl8yDex.PairRuns
import Cl8yDex.ProportionalShares

/-!
# The pool over whole runs

A pool is the pair's storage with the supply of its LP token, which its mint and burn messages
move. Once funded it never empties, no deposit or withdrawal dilutes the shares, and no swap lets
the product of the reserves fall.
-/

namespace Cl8yDex

open Outcome ProportionalShares

namespace CosmosMsg

def minted (lpToken : Addr) : CosmosMsg → ℕ
  | mint t _ n => if t = lpToken then n else 0
  | _ => 0

def burned (lpToken : Addr) : CosmosMsg → ℕ
  | burn t n => if t = lpToken then n else 0
  | _ => 0

end CosmosMsg

structure Pool where
  storage : PairStorage
  lpSupply : ℕ

namespace Pool

def lpToken (s : Pool) : Addr := s.storage.pairInfo.lpToken
def reserveA (s : Pool) : ℕ := s.storage.reserves.1
def reserveB (s : Pool) : ℕ := s.storage.reserves.2
def totalSupply (s : Pool) : ℕ := s.storage.totalLpSupply

/-- The pool after a response, whose mints and burns the LP token carries out. -/
def after (s : Pool) (out : PairStorage × Response) : Pool where
  storage := out.1
  lpSupply := s.lpSupply + totalOf (CosmosMsg.minted s.lpToken) out.2.messages -
    totalOf (CosmosMsg.burned s.lpToken) out.2.messages

/-- An accepted message whose burns are covered by the supply, or a holder who burns LP tokens. -/
inductive Step : Pool → Pool → Prop
  | call {s : Pool} {q : Querier} {env : Env} {sender : Addr} {msg : ExecuteMsg}
      {out : PairStorage × Response} (h : execute s.storage q env sender msg = .ok out)
      (hburn : totalOf (CosmosMsg.burned s.lpToken) out.2.messages ≤
        s.lpSupply + totalOf (CosmosMsg.minted s.lpToken) out.2.messages) : Step s (s.after out)
  | burn {s : Pool} {n : ℕ} (h : n ≤ s.lpSupply) : Step s { s with lpSupply := s.lpSupply - n }

inductive Reach : Pool → Prop
  | start {p : PairStorage} (h : Starts p) : Reach ⟨p, 0⟩
  | step {s s' : Pool} (h : Reach s) (hs : Step s s') : Reach s'

/-- The pool was never funded. -/
structure Empty (s : Pool) : Prop where
  reserveA : s.reserveA = 0
  reserveB : s.reserveB = 0
  totalSupply : s.totalSupply = 0
  lpSupply : s.lpSupply = 0

/-- The pool holds both assets and shares that nobody can redeem. -/
structure Funded (s : Pool) : Prop where
  reserveA : 1 ≤ s.reserveA
  reserveB : 1 ≤ s.reserveB
  totalSupply : minimumLiquidity ≤ s.totalSupply
  lpSupply : s.lpSupply + minimumLiquidity ≤ s.totalSupply

end Pool

section Changes

variable {p : PairStorage} {A : AbsBook} {q : Querier} {env : Env} {sender : Addr}
  {msg : ExecuteMsg} {out : PairStorage × Response}

/-- Neither a mint nor a burn. -/
theorem lpAmounts_of_quiet {msgs : List CosmosMsg}
    (h : ∀ m ∈ msgs, ∀ t, m.minted t = 0 ∧ m.burned t = 0) (lp : Addr) :
    totalOf (CosmosMsg.minted lp) msgs = 0 ∧ totalOf (CosmosMsg.burned lp) msgs = 0 :=
  ⟨totalOf_eq_zero fun m hm => (h m hm lp).1, totalOf_eq_zero fun m hm => (h m hm lp).2⟩

theorem CosmosMsg.Quiet.lpAmounts {m : CosmosMsg} (h : m.Quiet) (t : Addr) :
    m.minted t = 0 ∧ m.burned t = 0 := by
  cases m with
  | transfer t' r n => exact ⟨rfl, rfl⟩
  | deregisterWallet r w e => exact ⟨rfl, rfl⟩
  | _ => exact absurd h id

theorem CosmosMsg.Deregisters.quiet {m : CosmosMsg} (h : m.Deregisters) : m.Quiet := by
  cases m with
  | deregisterWallet r w e => exact trivial
  | _ => exact absurd h id

/-- How a message changes the reserves, the recorded supply and the LP token. -/
inductive PoolChange (p : PairStorage) (out : PairStorage × Response) : Prop
  | still (reserves : out.1.reserves = p.reserves) (total : out.1.totalLpSupply = p.totalLpSupply)
      (lp : ∀ t, totalOf (CosmosMsg.minted t) out.2.messages = 0 ∧
        totalOf (CosmosMsg.burned t) out.2.messages = 0)
  | swapped (side : LimitOrderSide) (x g : ℕ)
      (positive : 0 < inputReserve p.reserves side ∧ 0 < outputReserve p.reserves side)
      (gross : g = ConstantProduct.output (inputReserve p.reserves side)
        (outputReserve p.reserves side) x)
      (input : inputReserve out.1.reserves side = inputReserve p.reserves side + x)
      (output : outputReserve out.1.reserves side + g = outputReserve p.reserves side)
      (total : out.1.totalLpSupply = p.totalLpSupply)
      (lp : ∀ t, totalOf (CosmosMsg.minted t) out.2.messages = 0 ∧
        totalOf (CosmosMsg.burned t) out.2.messages = 0)
  | provided (d : Deposit) (priced : d.Priced p)
      (reserves : out.1.reserves = (p.reserves.1 + d.amountA, p.reserves.2 + d.amountB))
      (total : out.1.totalLpSupply = p.totalLpSupply + (d.lpToUser + d.lpToBurn))
      (minted : totalOf (CosmosMsg.minted p.pairInfo.lpToken) out.2.messages =
        d.lpToUser + d.lpToBurn)
      (burned : totalOf (CosmosMsg.burned p.pairInfo.lpToken) out.2.messages = d.lpToBurn)
  | withdrawn (lpAmount : ℕ) (positive : 0 < lpAmount) (supply : lpAmount ≤ p.totalLpSupply)
      (reserves : out.1.reserves = (p.reserves.1 - lpAmount * p.reserves.1 / p.totalLpSupply,
        p.reserves.2 - lpAmount * p.reserves.2 / p.totalLpSupply))
      (total : out.1.totalLpSupply = p.totalLpSupply - lpAmount)
      (minted : totalOf (CosmosMsg.minted p.pairInfo.lpToken) out.2.messages = 0)
      (burned : totalOf (CosmosMsg.burned p.pairInfo.lpToken) out.2.messages = lpAmount)

theorem lpAmounts_of_burnMessages (pair lpToken : Addr) (n : ℕ) :
    totalOf (CosmosMsg.minted lpToken) (burnMessages pair lpToken n) = n ∧
      totalOf (CosmosMsg.burned lpToken) (burnMessages pair lpToken n) = n := by
  unfold burnMessages
  by_cases hn : n = 0
  · simp [hn]
  · rw [if_neg hn]
    simp [CosmosMsg.minted, CosmosMsg.burned]

/-- A swap sends transfers, hook calls and deregistrations. -/
theorem Swapped.lpAmounts {token user : Addr} {amount bps : ℕ} {args : SwapArgs}
    {parts : SwapParts} (h : Swapped p A q env token user amount args bps out parts) (t : Addr) :
    totalOf (CosmosMsg.minted t) out.2.messages = 0 ∧
      totalOf (CosmosMsg.burned t) out.2.messages = 0 := by
  refine lpAmounts_of_quiet (fun m hm t => ?_) t
  rw [h.messages] at hm
  rcases List.mem_append.1 hm with hm | hm
  · rcases List.mem_append.1 hm with hm | hm
    · refine CosmosMsg.Quiet.lpAmounts ?_ t
      refine quiet_append (quiet_append (quiet_append ?_ ?_) fun m => quiet_maybeTransfer)
        (fun m => quiet_maybeTransfer) m hm
      · intro m hm
        obtain ⟨r, -, hm⟩ := List.mem_flatMap.1 hm
        exact quiet_maybeTransfer hm
      · intro m hm
        obtain ⟨d, -, rfl⟩ := List.mem_map.1 hm
        exact trivial
    · obtain ⟨hook, -, rfl⟩ := List.mem_map.1 hm
      exact ⟨rfl, rfl⟩
  · exact (h.deregisters m hm).quiet.lpAmounts t

/-- The pool leg of a swap: none, or one priced on the curve. -/
theorem Swapped.reserves {token user : Addr} {amount bps : ℕ} {args : SwapArgs}
    {parts : SwapParts} (h : Swapped p A q env token user amount args bps out parts) :
    out.1.reserves = p.reserves ∨
      (0 < inputReserve p.reserves parts.side ∧ 0 < outputReserve p.reserves parts.side) ∧
      parts.legs.pool.grossOutput = ConstantProduct.output (inputReserve p.reserves parts.side)
        (outputReserve p.reserves parts.side) parts.legs.pool.input ∧
      inputReserve out.1.reserves parts.side =
        inputReserve p.reserves parts.side + parts.legs.pool.input ∧
      outputReserve out.1.reserves parts.side + parts.legs.pool.grossOutput =
        outputReserve p.reserves parts.side := by
  have hreserves : out.1.reserves = parts.legs.reserves := by rw [h.stored]
  have hin := h.accounts.input
  have hout := h.accounts.output
  rw [hreserves]
  rcases h.accounts.pool with hnone | ⟨hne, hp⟩
  · left
    rw [hnone, PoolLeg.none, Nat.add_zero] at hin hout
    generalize parts.side = side at hin hout
    cases side
    · exact Prod.ext hin hout
    · exact Prod.ext hout hin
  · exact .inr ⟨hp.reserves, hp.gross, hin, hout⟩

theorem Served.pool (h : Served p A q env sender msg out) : PoolChange p out := by
  cases h with
  | swapped bps parts h =>
      have htotal : out.1.totalLpSupply = p.totalLpSupply := by rw [h.stored]
      rcases h.reserves with hsame | ⟨hpos, hgross, hin, hout⟩
      · exact .still hsame htotal h.lpAmounts
      · exact .swapped parts.side _ _ hpos hgross hin hout htotal h.lpAmounts
  | provided d h =>
      obtain ⟨h1, h2⟩ := lpAmounts_of_burnMessages env.contract p.pairInfo.lpToken d.lpToBurn
      refine .provided d h.priced (by rw [h.stored]) (by rw [h.stored]) ?_ ?_
      · rw [h.messages, totalOf_append, h1]
        simp [CosmosMsg.minted]
      · rw [h.messages, totalOf_append, h2]
        simp [CosmosMsg.burned]
  | withdrawn h =>
      refine .withdrawn _ h.positive h.supply (by rw [h.stored]) (by rw [h.stored]) ?_ ?_
      · rw [h.messages]
        simp [CosmosMsg.minted]
      · rw [h.messages]
        simp [CosmosMsg.burned]
  | booked h stored quiet =>
      exact .still (by rw [stored]) (by rw [stored])
        (lpAmounts_of_quiet fun m hm => (quiet m hm).lpAmounts)
  | grown h => exact .still rfl rfl fun t => ⟨rfl, rfl⟩
  | swept h hexcess => exact .still rfl rfl fun t => ⟨rfl, rfl⟩
  | governed hfactory incoming stored messages =>
      refine .still (by rw [stored]) (by rw [stored]) (lpAmounts_of_quiet fun m hm t => ?_)
      obtain ⟨admin, rfl⟩ := messages m hm
      exact ⟨rfl, rfl⟩

end Changes

end Cl8yDex
