import Cl8yDex.LpBurnHook
import Cl8yDex.ProportionalShares
import Cl8yDex.ShareChecks
import Cl8yDex.DeadChecks
import Mathlib.Data.List.Chain

/-!
# Runs of a pair with an LP-burn hook

The pair divides its reserves by the supply it has recorded, and a burn of the hook lowers only the
supply of the LP token. The shares that were burned keep their part of the reserves, and nobody can
redeem it.
-/

namespace Cl8yDex.LpBurn

open Outcome ProportionalShares

/-- A pool whose swaps call the hook; `held` is the hook's part of the LP tokens, `burned` what it
has burned so far, `calls` the callbacks that are still to run. -/
structure World where
  pool : Pool
  hook : LpBurnHook
  held : ℕ
  burned : ℕ
  calls : List (Addr × AfterSwap)

def hookCalls (out : PairStorage × Response) : List (Addr × AfterSwap) :=
  out.2.messages.filterMap fun
    | .hook a call => some (a, call)
    | _ => none

namespace World

/-- The hook burned `n` LP tokens of its own. -/
def afterBurn (w : World) (n : ℕ) : World :=
  { w with
    pool := { w.pool with lpSupply := w.pool.lpSupply - n }
    held := w.held - n
    burned := w.burned + n }

/-- The chain answers the hook about the pair `self` and its LP token as they are. -/
def Answers (self : Addr) (w : World) (q : HookQuerier) : Prop :=
  q.pairInfo self = some w.pool.storage.pairInfo ∧ q.balance w.pool.lpToken = some w.held

/-- A step of the chain around the pair `self` and the hook `hookAddr`. The hook itself never sends
LP tokens, so what a message burns comes from the others. -/
inductive Step (self hookAddr : Addr) : World → World → Prop
  | call {w : World} {q : Querier} {env : Env} {sender : Addr} {msg : ExecuteMsg}
      {out : PairStorage × Response} (henv : env.contract = self)
      (h : execute w.pool.storage q env sender msg = .ok out)
      (hburn : totalOf (CosmosMsg.burned w.pool.lpToken) out.2.messages + w.held ≤
        w.pool.lpSupply + totalOf (CosmosMsg.minted w.pool.lpToken) out.2.messages) :
      Step self hookAddr w
        { w with pool := w.pool.after out, calls := hookCalls out ++ w.calls }
  /-- Somebody gives the hook LP tokens. -/
  | fund {w : World} {held : ℕ} (hmore : w.held ≤ held) (hall : held ≤ w.pool.lpSupply) :
      Step self hookAddr w { w with held := held }
  /-- A callback that burns. -/
  | burn {w : World} {q : HookQuerier} {call : AfterSwap} {calls : List (Addr × AfterSwap)} {n : ℕ}
      (hcalls : w.calls = (hookAddr, call) :: calls) (hq : w.Answers self q)
      (h : w.hook.executeHook q self call = .ok (some n)) :
      Step self hookAddr w { w.afterBurn n with calls := calls }
  /-- A callback that burns nothing, or whose burn the token refuses. -/
  | pass {w : World} {q : HookQuerier} {call : AfterSwap} {calls : List (Addr × AfterSwap)}
      {burn : Option ℕ} (hcalls : w.calls = (hookAddr, call) :: calls) (hq : w.Answers self q)
      (h : w.hook.executeHook q self call = .ok burn) :
      Step self hookAddr w { w with calls := calls }
  /-- A callback of another hook. -/
  | other {w : World} {a : Addr} {call : AfterSwap} {calls : List (Addr × AfterSwap)}
      (hcalls : w.calls = (a, call) :: calls) (hne : a ≠ hookAddr) :
      Step self hookAddr w { w with calls := calls }
  | configure {w : World} {q : HookQuerier} {sender : Addr} {targetPair lpToken : Option Addr}
      {bps : Option ℕ} {hook : LpBurnHook}
      (h : w.hook.executeUpdateConfig q sender targetPair lpToken bps = .ok hook) :
      Step self hookAddr w { w with hook := hook }
  | allow {w : World} {q : HookQuerier} {sender : Addr} {add remove : List Addr}
      {hook : LpBurnHook} (h : w.hook.executeUpdateAllowedPairs q sender add remove = .ok hook) :
      Step self hookAddr w { w with hook := hook }

/-- The pair is new, and nobody has LP tokens. -/
structure Starts (w : World) : Prop where
  pair : Cl8yDex.Starts w.pool.storage
  lpSupply : w.pool.lpSupply = 0
  held : w.held = 0
  burned : w.burned = 0

/-- What every state keeps: all LP tokens that were minted are with their holders, burned by the
hook, or among the units locked at the first deposit. -/
structure Kept (w : World) : Prop where
  reach : w.pool.Reach
  held : w.held ≤ w.pool.lpSupply
  shares : w.pool.Empty ∧ w.burned = 0 ∨
    w.pool.Funded ∧ w.pool.totalSupply = w.pool.lpSupply + minimumLiquidity + w.burned

section Steps

variable {self hookAddr : Addr} {w w' : World} {out : PairStorage × Response}

theorem Starts.kept (h : w.Starts) : w.Kept := by
  obtain ⟨⟨p, supply⟩, hook, held, burned, calls⟩ := w
  obtain ⟨hpair, rfl, rfl, rfl⟩ := h
  obtain ⟨-, -, hreserves, htotal⟩ := hpair.fresh
  exact ⟨.start hpair, le_rfl,
    .inl ⟨⟨congrArg Prod.fst hreserves, congrArg Prod.snd hreserves, htotal, rfl⟩, rfl⟩⟩

/-- What a message mints and burns is what it adds to the recorded supply, but for the units that
the first deposit locks. -/
theorem shares_after (hc : PoolChange w.pool.storage out)
    (hcovered : totalOf (CosmosMsg.burned w.pool.lpToken) out.2.messages ≤
      w.pool.lpSupply + totalOf (CosmosMsg.minted w.pool.lpToken) out.2.messages)
    (h : w.pool.Empty ∧ w.burned = 0 ∨
      w.pool.Funded ∧ w.pool.totalSupply = w.pool.lpSupply + minimumLiquidity + w.burned) :
    (w.pool.after out).Empty ∧ w.burned = 0 ∨ (w.pool.after out).Funded ∧
      (w.pool.after out).totalSupply =
        (w.pool.after out).lpSupply + minimumLiquidity + w.burned := by
  have hafter : (w.pool.after out).lpSupply = w.pool.lpSupply +
      totalOf (CosmosMsg.minted w.pool.storage.pairInfo.lpToken) out.2.messages -
        totalOf (CosmosMsg.burned w.pool.storage.pairInfo.lpToken) out.2.messages := rfl
  have htotal : (w.pool.after out).totalSupply = out.1.totalLpSupply := rfl
  have hcov : totalOf (CosmosMsg.burned w.pool.storage.pairInfo.lpToken) out.2.messages ≤
      w.pool.lpSupply +
        totalOf (CosmosMsg.minted w.pool.storage.pairInfo.lpToken) out.2.messages := hcovered
  rcases h with ⟨hempty, hnone⟩ | ⟨hfunded, hshares⟩
  · have hA : w.pool.storage.reserves.1 = 0 := hempty.reserveA
    have hB : w.pool.storage.reserves.2 = 0 := hempty.reserveB
    have hT : w.pool.storage.totalLpSupply = 0 := hempty.totalSupply
    have hS := hempty.lpSupply
    refine (hempty.after hc).imp (fun he => ⟨he, hnone⟩) fun hf => ⟨hf, ?_⟩
    have hmin := hf.totalSupply
    have hpos : 0 < minimumLiquidity := by decide
    rw [htotal] at hmin ⊢
    cases hc with
    | still reserves total lp => omega
    | swapped side x g positive gross input output total lp => omega
    | provided d priced reserves total minted burned =>
        have hprice := priced.price
        rw [if_pos ⟨hA, hB⟩] at hprice
        obtain ⟨hburn, -⟩ := hprice
        rw [hafter, minted, burned]
        omega
    | withdrawn lpAmount positive supply => omega
  · have hT : w.pool.storage.totalLpSupply = w.pool.lpSupply + minimumLiquidity + w.burned :=
      hshares
    refine .inr ⟨hfunded.after hc hcovered, ?_⟩
    rw [htotal, hafter]
    cases hc with
    | still reserves total lp =>
        obtain ⟨h1, h2⟩ := lp w.pool.storage.pairInfo.lpToken
        omega
    | swapped side x g positive gross input output total lp =>
        obtain ⟨h1, h2⟩ := lp w.pool.storage.pairInfo.lpToken
        omega
    | provided d priced reserves total minted burned =>
        obtain ⟨hzero, -, -⟩ := priced.minted_le (Nat.one_le_iff_ne_zero.1 hfunded.reserveA)
        omega
    | withdrawn lpAmount positive supply reserves total minted burned => omega

/-- A burn of the hook is one of its own LP tokens. -/
theorem burn_le {q : HookQuerier} {call : AfterSwap} {n : ℕ} (hq : w.Answers self q)
    (h : w.hook.executeHook q self call = .ok (some n)) : 0 < n ∧ n ≤ w.held := by
  obtain ⟨info, balance, hinfo, -, hbalance, hn, hpos⟩ :=
    LpBurnHook.executeHook_spec.success h n rfl
  cases hinfo.symm.trans hq.1
  cases hbalance.symm.trans hq.2
  exact ⟨hpos, hn.trans_le (min_le_right _ _)⟩

theorem Kept.afterBurn (h : w.Kept) {n : ℕ} (hn : n ≤ w.held) : (w.afterBurn n).Kept := by
  have hheld := h.held
  refine ⟨h.reach.step (.burn (hn.trans hheld)), Nat.sub_le_sub_right hheld n, ?_⟩
  refine h.shares.imp (fun he => ?_) fun hf => ?_
  · obtain ⟨hempty, hnone⟩ := he
    have hS := hempty.lpSupply
    refine ⟨⟨hempty.reserveA, hempty.reserveB, hempty.totalSupply, ?_⟩, ?_⟩
    · change w.pool.lpSupply - n = 0
      omega
    · change w.burned + n = 0
      omega
  · obtain ⟨hfunded, hshares⟩ := hf
    have hS := hfunded.lpSupply
    refine ⟨⟨hfunded.reserveA, hfunded.reserveB, hfunded.totalSupply, ?_⟩, ?_⟩
    · change w.pool.lpSupply - n + minimumLiquidity ≤ w.pool.totalSupply
      omega
    · change w.pool.totalSupply = w.pool.lpSupply - n + minimumLiquidity + (w.burned + n)
      omega

theorem Kept.step (h : w.Kept) (hs : Step self hookAddr w w') : w'.Kept := by
  cases hs with
  | call henv hcall hburn =>
      have hcovered : totalOf (CosmosMsg.burned w.pool.lpToken) _ ≤ w.pool.lpSupply +
          totalOf (CosmosMsg.minted w.pool.lpToken) _ := (Nat.le_add_right _ _).trans hburn
      obtain ⟨A, hA⟩ := h.reach.healthy
      have hc := ((execute_spec hA.rep hA.balanced _).success hcall).pool
      refine ⟨h.reach.step (.call hcall hcovered), ?_, shares_after hc hcovered h.shares⟩
      exact Nat.le_sub_of_add_le (by rwa [Nat.add_comm])
  | fund hmore hall => exact ⟨h.reach, hall, h.shares⟩
  | burn hcalls hq hhook =>
      have hkept := h.afterBurn (burn_le hq hhook).2
      exact ⟨hkept.reach, hkept.held, hkept.shares⟩
  | pass hcalls hq hhook => exact ⟨h.reach, h.held, h.shares⟩
  | other hcalls hne => exact ⟨h.reach, h.held, h.shares⟩
  | configure hhook => exact ⟨h.reach, h.held, h.shares⟩
  | allow hhook => exact ⟨h.reach, h.held, h.shares⟩

end Steps

/-- Withdrawals one after the other, with what they pay together. -/
inductive Withdrawals : PairStorage → List ℕ → ℕ × ℕ → Prop
  | nil {p : PairStorage} : Withdrawals p [] (0, 0)
  | cons {p : PairStorage} {env : Env} {token sender user : Addr} {n a b : ℕ}
      {minAssets : Option (ℕ × ℕ)} {out : PairStorage × Response} {l : List ℕ} {paid : ℕ × ℕ}
      (h : executeWithdrawLiquidity p env token sender n minAssets = .ok out)
      (hpaid : out.2.attributes = .withdrawLiquidity user n a b) (hl : Withdrawals out.1 l paid) :
      Withdrawals p (n :: l) (a + paid.1, b + paid.2)

theorem Withdrawals.paid_eq {p : PairStorage} {l : List ℕ} {paid : ℕ × ℕ}
    (h : Withdrawals p l paid) : (∀ n ∈ l, 0 < n) ∧
      paid = (redeemAll p.reserves.1 p.totalLpSupply l,
        redeemAll p.reserves.2 p.totalLpSupply l) := by
  induction h with
  | nil => exact ⟨fun n hn => (List.not_mem_nil hn).elim, rfl⟩
  | cons h hpaid hl ih =>
      have hw := (executeWithdrawLiquidity_spec _).success h
      obtain ⟨hpos, hlater⟩ := ih
      rw [hw.attributes] at hpaid
      cases hpaid
      rw [hw.stored] at hlater
      refine ⟨List.forall_mem_cons.2 ⟨hw.positive, hpos⟩, ?_⟩
      rw [hlater, redeemAll, redeemAll]

/-- Any LP tokens can be withdrawn at once. -/
theorem exists_withdrawal {p : PairStorage} (hw : p.Whole) {n : ℕ} (hpos : 0 < n)
    (hle : n ≤ p.totalLpSupply) : ∃ paid, Withdrawals p [n] paid := by
  have htime : (⟨0, 0, 0, 0⟩ : Env).blockTime ≤ u64Max := Nat.zero_le _
  obtain ⟨o, ho⟩ := updateOracle_ok hw.sane htime
  have hT : 0 < p.totalLpSupply := hpos.trans_le hle
  have hamounts : withdrawAmounts { p with oracle := o } n = .ok (n * p.reserves.1 /
      p.totalLpSupply, n * p.reserves.2 / p.totalLpSupply) :=
    (show withdrawAmounts { p with oracle := o } n = withdrawAmounts p n from rfl).trans
      (withdrawAmounts_sound hw.sized hT hle)
  have hout : ∃ out, executeWithdrawLiquidity p ⟨0, 0, 0, 0⟩ p.pairInfo.lpToken 0 n none =
      .ok out := by
    unfold executeWithdrawLiquidity
    rw [ensure, if_pos rfl, ok_bind, ensure, if_pos hpos.ne', ok_bind, ho, ok_bind, ensure,
      if_pos hT.ne', ok_bind, hamounts, ok_bind]
    dsimp only [assertMinAssets]
    rw [ok_bind, subOrOverflow_eq_ok.2 ⟨redeem_le hle, rfl⟩, ok_bind,
      subOrOverflow_eq_ok.2 ⟨redeem_le hle, rfl⟩, ok_bind, subOrOverflow_eq_ok.2 ⟨hle, rfl⟩,
      ok_bind]
    exact ⟨_, rfl⟩
  obtain ⟨out, hout⟩ := hout
  have hspec := (executeWithdrawLiquidity_spec _).success hout
  exact ⟨_, .cons hout hspec.attributes .nil⟩

/-- A reserve without the part of the units locked at the first deposit, when `outstanding` LP
tokens remain. -/
def unlocked (reserve outstanding : ℕ) : ℚ :=
  reserve - reserve * minimumLiquidity / (outstanding + minimumLiquidity)

/-- Whoever the remaining LP tokens belong to, in whatever parts and order they are withdrawn, they
pay all of both reserves but the locked part and less than a unit for each withdrawal. -/
def Redeems (w : World) : Prop :=
  ∀ l paid, Withdrawals w.pool.storage l paid → l ≠ [] → l.sum = w.pool.lpSupply →
    unlocked w.pool.reserveA w.pool.lpSupply - paid.1 < l.length ∧
      unlocked w.pool.reserveB w.pool.lpSupply - paid.2 < l.length

/-- The burned tokens leave the remaining ones the same whole units of a reserve. -/
def UnitsKept (w : World) (reserve : ℕ) : Prop :=
  w.pool.lpSupply * reserve / (w.pool.lpSupply + minimumLiquidity + w.burned) =
    w.pool.lpSupply * reserve / (w.pool.lpSupply + minimumLiquidity)

/-- What a withdrawal of `n` LP tokens pays. -/
def redeemed (w : World) (n : ℕ) : ℕ × ℕ :=
  (n * w.pool.reserveA / w.pool.totalSupply, n * w.pool.reserveB / w.pool.totalSupply)

/-- A burn lowers no withdrawal and raises what one LP token stands for. -/
structure Enriches (w w' : World) : Prop where
  kept : ∀ n, w.redeemed n ≤ w'.redeemed n
  raisedA : (w.pool.reserveA / w.pool.totalSupply : ℚ) < w'.pool.reserveA / w'.pool.totalSupply
  raisedB : (w.pool.reserveB / w.pool.totalSupply : ℚ) < w'.pool.reserveB / w'.pool.totalSupply

/-- The burned LP tokens accrue to the remaining holders. -/
structure Accrue (run : List World) : Prop where
  redeems : ∀ w ∈ run, w.Redeems
  burns : run.IsChain fun w w' => w.burned < w'.burned → w.Enriches w'

section Runs

variable {self hookAddr : Addr} {w w' : World} {ws : List World}

theorem unlocked_sub_lt_iff {reserve outstanding paid n : ℕ} :
    unlocked reserve outstanding - paid < n ↔
      outstanding * reserve < (paid + n) * (outstanding + minimumLiquidity) := by
  have hpos : (0 : ℚ) < outstanding + minimumLiquidity := by
    have : 0 < minimumLiquidity := by decide
    positivity
  have hpart : unlocked reserve outstanding =
      (outstanding * reserve : ℕ) / (outstanding + minimumLiquidity : ℚ) := by
    unfold unlocked
    rw [eq_div_iff hpos.ne', sub_mul, div_mul_cancel₀ _ hpos.ne']
    push_cast
    ring
  rw [hpart, sub_lt_iff_lt_add', div_lt_iff₀ hpos]
  exact_mod_cast Iff.rfl

theorem Kept.redeems_iff (h : w.Kept) :
    w.Redeems ↔ w.UnitsKept w.pool.reserveA ∧ w.UnitsKept w.pool.reserveB := by
  unfold Redeems UnitsKept
  simp only [unlocked_sub_lt_iff]
  have hpos : 0 < minimumLiquidity := by decide
  cases hsupply : w.pool.lpSupply with
  | zero =>
      refine ⟨fun _ => by simp, fun _ l paid hl hne hsum => ?_⟩
      obtain ⟨n, l, rfl⟩ := List.exists_cons_of_ne_nil hne
      have hn : 0 < n := hl.paid_eq.1 n List.mem_cons_self
      rw [List.sum_cons] at hsum
      omega
  | succ s =>
  obtain ⟨hempty, -⟩ | ⟨hfunded, hshares⟩ := h.shares
  · have hnone := hempty.lpSupply
    omega
  · rw [hsupply] at hshares
    have htotal : w.pool.storage.totalLpSupply = s + 1 + minimumLiquidity + w.burned := hshares
    have hle : s + 1 + minimumLiquidity ≤ w.pool.storage.totalLpSupply := by omega
    rw [← htotal]
    constructor
    · intro hredeems
      obtain ⟨paid, hpaid⟩ := exists_withdrawal h.reach.whole (Nat.succ_pos s) (by omega)
      obtain ⟨hA, hB⟩ := hredeems [s + 1] paid hpaid (by simp) (by simp)
      rw [hpaid.paid_eq.2] at hA hB
      exact ⟨units_eq_of_covers hle (by omega) hA, units_eq_of_covers hle (by omega) hB⟩
    · rintro ⟨hA, hB⟩ l paid hl hne hsum
      rw [hl.paid_eq.2, ← hsum]
      rw [← hsum] at hA hB hle
      exact ⟨redeemAll_covers (by omega) hle hA hne, redeemAll_covers (by omega) hle hB hne⟩

/-- A burn changes neither the reserves nor the recorded supply. -/
theorem Step.burned (hs : Step self hookAddr w w') : w'.burned = w.burned ∨
    w.burned < w'.burned ∧ w'.pool.storage = w.pool.storage := by
  cases hs with
  | burn hcalls hq hhook =>
      exact .inr ⟨Nat.lt_add_of_pos_right (burn_le hq hhook).1, rfl⟩
  | _ => exact .inl rfl

theorem Step.not_enriches (hs : Step self hookAddr w w') (hlt : w.burned < w'.burned) :
    (∀ n, w.redeemed n ≤ w'.redeemed n) ∧ ¬w.Enriches w' := by
  obtain hsame | ⟨-, hstorage⟩ := hs.burned
  · omega
  · constructor
    · intro n
      unfold redeemed Pool.reserveA Pool.reserveB Pool.totalSupply
      rw [hstorage]
    · intro h
      have hraised := h.raisedA
      unfold Pool.reserveA Pool.totalSupply at hraised
      rw [hstorage] at hraised
      exact lt_irrefl _ hraised

theorem Kept.run (h : w.Kept) (hrun : (w :: ws).IsChain (Step self hookAddr)) :
    ∀ v ∈ w :: ws, v.Kept := by
  induction ws generalizing w with
  | nil => exact fun v hv => List.mem_singleton.1 hv ▸ h
  | cons w' ws ih =>
      obtain ⟨hs, hrun⟩ := List.isChain_cons_cons.1 hrun
      intro v hv
      cases hv with
      | head => exact h
      | tail _ hv => exact ih (h.step hs) hrun v hv

/-- Where every burn would enrich the holders, there is none. -/
theorem burned_eq_zero (hzero : w.burned = 0) (hrun : (w :: ws).IsChain (Step self hookAddr))
    (hburns : (w :: ws).IsChain fun v v' => v.burned < v'.burned → v.Enriches v') :
    ∀ v ∈ w :: ws, v.burned = 0 := by
  induction ws generalizing w with
  | nil => exact fun v hv => List.mem_singleton.1 hv ▸ hzero
  | cons w' ws ih =>
      obtain ⟨hs, hrun⟩ := List.isChain_cons_cons.1 hrun
      obtain ⟨hburn, hburns⟩ := List.isChain_cons_cons.1 hburns
      have hnext : w'.burned = 0 := by
        obtain hsame | ⟨hlt, -⟩ := hs.burned
        · exact hsame.trans hzero
        · exact absurd (hburn hlt) (hs.not_enriches hlt).2
      intro v hv
      cases hv with
      | head => exact hzero
      | tail _ hv => exact ih hnext hrun hburns v hv

/-- The burned shares accrue to the remaining holders only in a run that burns none. A burn lowers
no withdrawal and raises none, and the remaining LP tokens still redeem everything just while the
burned ones are not worth a whole unit. -/
theorem burns_accrue_iff (h : w.Starts) (hrun : (w :: ws).IsChain (Step self hookAddr)) :
    (Accrue (w :: ws) ↔ ∀ v ∈ w :: ws, v.burned = 0) ∧
      (∀ v ∈ w :: ws, v.Redeems ↔ v.UnitsKept v.pool.reserveA ∧ v.UnitsKept v.pool.reserveB) ∧
      (w :: ws).IsChain fun v v' => v.burned < v'.burned →
        (∀ n, v.redeemed n ≤ v'.redeemed n) ∧ ¬v.Enriches v' := by
  have hkept := h.kept.run hrun
  refine ⟨⟨fun haccrue => burned_eq_zero h.burned hrun haccrue.burns, fun hzero => ?_⟩,
    fun v hv => (hkept v hv).redeems_iff, hrun.imp fun v v' hs => hs.not_enriches⟩
  constructor
  · intro v hv
    apply (hkept v hv).redeems_iff.2
    unfold UnitsKept
    rw [hzero v hv]
    exact ⟨rfl, rfl⟩
  · refine hrun.imp_of_mem_imp fun v v' _ hv' _ hlt => ?_
    rw [hzero v' hv'] at hlt
    exact absurd hlt (Nat.not_lt_zero _)

end Runs

section Sample

/-- A chain that reports hook 30 as an LP-burn hook of the pair. -/
def sampleQuerier : Querier := { Querier.permissive with
  hookConfig := fun _ => some ⟨none, none, none, none, none, some 9, some 3, some 10000⟩ }

/-- The world after a message; it stays as it is when the pair refuses it. -/
def send (w : World) (blockTime : ℕ) (sender : Addr) (msg : ExecuteMsg) : World :=
  match execute w.pool.storage sampleQuerier (sampleEnv blockTime) sender msg with
  | .ok out => { w with pool := w.pool.after out, calls := hookCalls out ++ w.calls }
  | .error _ => w

theorem step_send {w : World} {blockTime : ℕ} {sender : Addr} {msg : ExecuteMsg}
    (h : Meets (execute w.pool.storage sampleQuerier (sampleEnv blockTime) sender msg)
      (fun out => totalOf (CosmosMsg.burned w.pool.lpToken) out.2.messages + w.held ≤
        w.pool.lpSupply + totalOf (CosmosMsg.minted w.pool.lpToken) out.2.messages)
      (fun _ => False)) : Step 9 30 w (w.send blockTime sender msg) := by
  obtain ⟨out, hout, hburn⟩ := h.accepted
  unfold send
  rw [hout]
  exact .call rfl hout hburn

def sampleNew : World :=
  ⟨⟨samplePair, 0⟩, ⟨⟨9, 3, 10000, 4⟩, fun a => a = 9⟩, 0, 0, []⟩

def sampleFunded : World :=
  sampleNew.send 1000 7 (.provideLiquidity (⟨.token 1, 1000000⟩, ⟨.token 2, 3000000⟩) none none
    none)

def sampleHooked : World := sampleFunded.send 1006 4 (.updateHooks [30])

def sampleSwapped : World :=
  { sampleHooked with held := 100000 }.send 1012 1
    (.receive ⟨7, 1000, .swap ⟨none, none, some 1, none, none, none, none⟩ none⟩)

/-- A deposit, a hook with 100000 LP tokens, a swap with an output of 2989, and the burn. -/
def sampleRun : List World :=
  [sampleFunded, sampleHooked, { sampleHooked with held := 100000 }, sampleSwapped,
    { sampleSwapped.afterBurn 2989 with calls := [] }]

theorem sampleNew_starts : sampleNew.Starts := ⟨samplePair_starts, rfl, rfl, rfl⟩

theorem sampleRun_steps : (sampleNew :: sampleRun).IsChain (Step 9 30) := by
  have hcall : sampleSwapped.calls =
      [(30, ⟨9, 7, ⟨.token 1, 1000⟩, ⟨.token 2, 2989⟩, 8, 3⟩)] := by decide +kernel
  have hburn : Meets (sampleSwapped.hook.executeHook ⟨fun _ => true,
      fun _ => some sampleSwapped.pool.storage.pairInfo, fun _ => some sampleSwapped.held⟩ 9
        ⟨9, 7, ⟨.token 1, 1000⟩, ⟨.token 2, 2989⟩, 8, 3⟩)
      (fun burn => burn = some 2989) (fun _ => False) := by decide +kernel
  obtain ⟨_, hhook, rfl⟩ := hburn.accepted
  refine .cons_cons (step_send (by decide +kernel)) (.cons_cons (step_send (by decide +kernel))
    (.cons_cons (.fund (by decide +kernel) (by decide +kernel))
      (.cons_cons (step_send (by decide +kernel)) (.cons_cons (.burn hcall ⟨rfl, rfl⟩ hhook)
        (.singleton _)))))

theorem burns_accrue_sample : Accrue (sampleNew :: sampleRun) ↔
    ∀ v ∈ sampleNew :: sampleRun, v.burned = 0 :=
  (burns_accrue_iff sampleNew_starts sampleRun_steps).1

/-- The share of the 2989 burned LP tokens stays in the pool when all others are withdrawn. -/
theorem burned_share_locked : sampleNew.Starts ∧ (sampleNew :: sampleRun).IsChain (Step 9 30) ∧
    ¬Accrue (sampleNew :: sampleRun) ∧ ∃ v ∈ sampleRun, v.burned = 2989 ∧ ¬v.Redeems := by
  have hlast : { sampleSwapped.afterBurn 2989 with calls := [] } ∈ sampleRun := by
    unfold sampleRun
    simp
  have hkept := sampleNew_starts.kept.run sampleRun_steps _ (List.mem_cons_of_mem _ hlast)
  have hnot : ¬World.Redeems { sampleSwapped.afterBurn 2989 with calls := [] } := by
    rw [hkept.redeems_iff]
    unfold UnitsKept
    decide +kernel
  exact ⟨sampleNew_starts, sampleRun_steps,
    fun haccrue => hnot (haccrue.redeems _ (List.mem_cons_of_mem _ hlast)),
    _, hlast, by decide +kernel, hnot⟩

end Sample

end World

end Cl8yDex.LpBurn
