import Cl8yDex.ExecuteSpec
import Cl8yDex.OracleGrowth

/-!
# Runs of one pair

A pair starts with `instantiate` and the reply that names its LP token. From then on it takes
messages from anyone, against any answers of the chain; a message that fails leaves the storage as
it was, so a run only lists the accepted ones. A match walk is also a step of its own.
-/

namespace Cl8yDex

open Outcome

inductive Starts : PairStorage → Prop
  | intro {q q' : Querier} {msg : InstantiateMsg} {lpToken : Addr}
      {out out' : PairStorage × Response}
      (h : instantiate q msg = .ok out) (h' : reply out.1 q' lpToken = .ok out') : Starts out'.1

/-- An accepted message, or a walk that takes a budget from one side of the book. -/
inductive Change : PairStorage → PairStorage → Prop
  | call {p : PairStorage} {q : Querier} {env : Env} {sender : Addr} {msg : ExecuteMsg}
      {out : PairStorage × Response} (h : execute p q env sender msg = .ok out) : Change p out.1
  | walk {p : PairStorage} {side : LimitOrderSide} {now budget cap : ℕ} {hint : Option OrderId}
      {bps : ℕ} {gate : Option TradeBlacklistGate} {pool : Option GreedyPoolRef}
      {out : Book × BookMatchResult}
      (h : matchBook side p.book now budget cap hint bps gate pool = .ok out) :
      Change p { p with book := out.1 }

def Reachable (p : PairStorage) : Prop := ∃ p₀, Starts p₀ ∧ Relation.ReflTransGen Change p₀ p

/-- What every reachable storage keeps: `A` is the book that it stores. -/
structure Healthy (p : PairStorage) (A : AbsBook) : Prop where
  rep : Represents p.book A
  balanced : A.Balanced
  bounded : ∀ s, A.escrow s ≤ u128Max
  oracle : p.oracle.Sane

/-- What one step of a run did to the book. -/
structure Moved (A : AbsBook) (acts : List Act) (A' : AbsBook) : Prop where
  run : Run A acts A'
  settled : Settled acts
  kind : Kind A acts

section Steps

variable {p p' : PairStorage} {A : AbsBook} {q : Querier} {env : Env} {sender : Addr}
  {msg : ExecuteMsg} {out : PairStorage × Response}

theorem Healthy.held_le (h : Healthy p A) (s : LimitOrderSide) : A.held s ≤ u128Max :=
  h.balanced s ▸ h.bounded s

theorem Oracle.sane_initial : Oracle.initial.Sane :=
  ⟨by decide, by decide, fun i x hx => by cases hx⟩

/-- A new pair is empty. -/
theorem Starts.fresh (h : Starts p) : p.book = Book.initial ∧ p.oracle = Oracle.initial ∧
    p.reserves = (0, 0) ∧ p.totalLpSupply = 0 := by
  cases h with
  | intro h h' =>
  obtain ⟨lp, -, h'⟩ := bind_eq_ok.1 h'
  obtain ⟨token0, -, h⟩ := bind_eq_ok.1 h
  obtain ⟨token1, -, h⟩ := bind_eq_ok.1 h
  obtain ⟨registry, -, h⟩ := bind_eq_ok.1 h
  obtain ⟨pinned, -, h⟩ := bind_eq_ok.1 h
  cases h
  cases h'
  exact ⟨rfl, rfl, rfl, rfl⟩

theorem Starts.healthy (h : Starts p) : Healthy p AbsBook.initial := by
  obtain ⟨hbook, horacle, -, -⟩ := h.fresh
  refine ⟨hbook ▸ .initial, fun s => rfl, fun s => Nat.zero_le _, ?_⟩
  rw [horacle]
  exact Oracle.sane_initial

theorem Served.sane (h : Served p A q env sender msg out) (ho : p.oracle.Sane) :
    out.1.oracle.Sane := by
  cases h with
  | swapped bps parts h => exact (ho.update _ _ _).success h.oracle
  | provided d h => exact (ho.update _ _ _).success h.oracle
  | withdrawn h => exact (ho.update _ _ _).success h.oracle
  | booked h stored quiet =>
      rw [stored]
      exact ho
  | grown h => exact ho.grow h
  | swept h hexcess => exact ho
  | governed hfactory incoming stored messages =>
      rw [stored]
      exact ho

/-- An accepted message moves a healthy pair to a healthy pair. -/
theorem Served.healthy (hs : Served p A q env sender msg out) (h : Healthy p A) :
    ∃ acts A', Effect A p (msg.user sender) acts A' out.1 out.2.messages ∧ Healthy out.1 A' := by
  obtain ⟨acts, A', heff⟩ := hs.effect h.rep
  exact ⟨acts, A', heff, heff.rep, heff.run.balanced h.rep.wf heff.settled h.balanced,
    heff.bounded h.bounded, hs.sane h.oracle⟩

theorem walk_moved {side : LimitOrderSide} {now budget cap : ℕ} {hint : Option OrderId} {bps : ℕ}
    {gate : Option TradeBlacklistGate} {pool : Option GreedyPoolRef} {res : Book × BookMatchResult}
    (h : Healthy p A)
    (hm : matchBook side p.book now budget cap hint bps gate pool = .ok res) :
    ∃ acts A', Moved A acts A' ∧ Healthy { p with book := res.1 } A' := by
  rw [matchBook_eq] at hm
  obtain ⟨-, acts, A', hmatched⟩ := (matchSide_spec (w := walkParams side now cap bps gate pool)
    h.rep (h.balanced side) budget hint).success hm
  have hacts : ∀ a ∈ acts, _ := fun a ha =>
    Act.of_matches side A 0 (hmatched.draining a ha)
  refine ⟨acts, A', ⟨hmatched.run, hmatched.settled, .draining fun a ha => (hacts a ha).1⟩,
    hmatched.rep, hmatched.run.balanced h.rep.wf hmatched.settled h.balanced, fun s => ?_, h.oracle⟩
  have hrun := hmatched.run.escrow (s := s)
  have hzero : totalOf (Act.booked s) acts = 0 := totalOf_eq_zero fun a ha =>
    (Act.of_matches s A 0 (hmatched.draining a ha)).2.2.2.1
  have hle := h.bounded s
  omega

/-- One step: a short run of acts from one healthy book to another. -/
theorem Change.healthy (hc : Change p p') (h : Healthy p A) :
    ∃ acts A', Moved A acts A' ∧ Healthy p' A' := by
  cases hc with
  | call hcall =>
      obtain ⟨acts, A', heff, h'⟩ :=
        ((execute_spec h.rep h.balanced _).success hcall).healthy h
      exact ⟨acts, A', ⟨heff.run, heff.settled, heff.kind⟩, h'⟩
  | walk hwalk => exact walk_moved h hwalk

theorem Reachable.healthy (h : Reachable p) : ∃ A, Healthy p A := by
  obtain ⟨p₀, hstart, hrun⟩ := h
  induction hrun with
  | refl => exact ⟨_, hstart.healthy⟩
  | tail _ hc ih =>
      obtain ⟨A, hA⟩ := ih
      obtain ⟨acts, A', -, h'⟩ := hc.healthy hA
      exact ⟨A', h'⟩

theorem Reachable.step (h : Reachable p) (hc : Change p p') : Reachable p' := by
  obtain ⟨p₀, hstart, hrun⟩ := h
  exact ⟨p₀, hstart, hrun.tail hc⟩

/-- The storage after a message, accepted or not. -/
def PairStorage.transact (p : PairStorage) (q : Querier) (env : Env) (sender : Addr)
    (msg : ExecuteMsg) : PairStorage :=
  match execute p q env sender msg with
  | .ok out => out.1
  | .error _ => p

theorem Change.transact (h : (execute p q env sender msg).isOk) :
    Change p (p.transact q env sender msg) := by
  cases hout : execute p q env sender msg with
  | ok out =>
      simp only [PairStorage.transact, hout]
      exact .call hout
  | error e =>
      rw [hout] at h
      cases h

theorem Reachable.transact (h : Reachable p) (q : Querier) (env : Env) (sender : Addr)
    (msg : ExecuteMsg) : Reachable (p.transact q env sender msg) := by
  unfold PairStorage.transact
  cases hout : execute p q env sender msg with
  | ok out => exact h.step (.call hout)
  | error e => exact h

end Steps

section Sample

/-- A new pair of the tokens 1 and 2. -/
def samplePair : PairStorage where
  pairInfo := ⟨1, 2, 3, 4⟩
  assetCodeIds := some (1, 1)
  reserves := (0, 0)
  feeConfig := ⟨30, 5⟩
  hooks := []
  totalLpSupply := 0
  oracle := Oracle.initial
  paused := false
  discountRegistry := none
  discountCache _ _ := none
  book := Book.initial
  maxBatchRungs := 5
  limitCleanConfig := ⟨0, 0⟩
  txSwapScope := none
  txSwapCounter := 0

def sampleEnv (blockTime : ℕ) : Env := ⟨blockTime, blockTime, 0, 9⟩

theorem samplePair_starts : Starts samplePair :=
  .intro (show instantiate .permissive ⟨(.token 1, .token 2), 30, 5, 4, 5, none⟩ = .ok _ from rfl)
    (show reply _ .permissive 3 = .ok _ from rfl)

/-- Liquidity from user 7, then two bids of his at one price. -/
def samplePool : PairStorage :=
  samplePair.transact .permissive (sampleEnv 1000) 7 (.provideLiquidity
    (⟨.token 1, 1000000⟩, ⟨.token 2, 3000000⟩) none none none)

def sampleBook : PairStorage :=
  samplePool.transact .permissive (sampleEnv 1006) 2 (.receive ⟨7, 1000000,
    .placeLimitOrderBatch .bid [⟨⟨2 * 10 ^ 18⟩, 600000, 5, none, none⟩,
      ⟨⟨2 * 10 ^ 18⟩, 400000, 5, none, none⟩]⟩)

theorem samplePool_reachable : Reachable samplePool :=
  (show Reachable samplePair from ⟨_, samplePair_starts, .refl⟩).transact ..

theorem sampleBook_reachable : Reachable sampleBook := samplePool_reachable.transact ..

end Sample

end Cl8yDex
