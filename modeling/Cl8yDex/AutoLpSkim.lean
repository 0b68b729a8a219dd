import Cl8yDex.AutoLpRuns
import Cl8yDex.ShareValue
import Mathlib.Data.Nat.Cast.Order.Field

/-!
# A skim against any pool

The skim's own sale and deposit are the pair's messages. However the pool was moved before the
skim, the recipient's new LP tokens are worth the deposited half up to the two tolerances, one on
the reserves per share and one on the minted shares, and the sale returned its least return.
-/

namespace Cl8yDex

open Outcome ProportionalShares

/-! ## The pair's side -/

def PairStorage.queryPool (p : PairStorage) : AutoLp.PoolResponse where
  assets := (⟨.token p.pairInfo.token0, p.reserves.1⟩, ⟨.token p.pairInfo.token1, p.reserves.2⟩)
  totalShare := p.totalLpSupply

def PairStorage.queryPair (p : PairStorage) (contract : Addr) : AutoLp.PairAnswer where
  assetInfos := (.token p.pairInfo.token0, .token p.pairInfo.token1)
  contractAddr := contract
  liquidityToken := p.pairInfo.lpToken

section Messages

variable {p : PairStorage} {A : AbsBook} {q : Querier} {env : Env} {token sender : Addr}
  {out : PairStorage × Response}

theorem reserveForToken_offered {side : LimitOrderSide}
    (h : p.pairInfo.takenSide token = .ok side) :
    p.reserveForToken token = inputReserve p.reserves side := by
  unfold PairInfo.takenSide at h
  unfold PairStorage.reserveForToken
  split_ifs at h ⊢ with h0 h1
  · cases h
    rfl
  · cases h
    rfl

/-- A sale adds to the reserve of the offered token and leaves the shares alone. -/
structure Sold (p p' : PairStorage) (token : Addr) : Prop where
  info : p'.pairInfo = p.pairInfo
  reserve : p.reserveForToken token ≤ p'.reserveForToken token
  shares : p'.totalLpSupply = p.totalLpSupply

theorem sold_of_same {p' : PairStorage} (hinfo : p'.pairInfo = p.pairInfo)
    (hreserves : p'.reserves = p.reserves) (hshares : p'.totalLpSupply = p.totalLpSupply) :
    Sold p p' token := by
  refine ⟨hinfo, ?_, hshares⟩
  unfold PairStorage.reserveForToken
  rw [hinfo, hreserves]

theorem Served.sold {user : Addr} {amount : ℕ} {args : SwapArgs} {deadline : Option ℕ}
    (h : Served p A q env token (.receive ⟨user, amount, .swap args deadline⟩) out) :
    Sold p out.1 token := by
  cases h with
  | swapped bps parts h =>
      have hinfo : out.1.pairInfo = p.pairInfo := by rw [h.stored]
      have hshares : out.1.totalLpSupply = p.totalLpSupply := by rw [h.stored]
      rcases h.reserves with hsame | ⟨-, -, hin, -⟩
      · exact sold_of_same hinfo hsame hshares
      · refine ⟨hinfo, ?_, hshares⟩
        have hside : out.1.pairInfo.takenSide token = .ok parts.side := by
          rw [hinfo]
          exact h.side
        rw [reserveForToken_offered h.side, reserveForToken_offered hside, hin]
        exact Nat.le_add_right _ _
  | booked _ stored _ => exact sold_of_same (by rw [stored]) (by rw [stored]) (by rw [stored])
  | governed _ _ stored _ => exact sold_of_same (by rw [stored]) (by rw [stored]) (by rw [stored])

/-- A deposit into a pool that holds the token does not lower the reserve behind one share. -/
structure Deposited (p p' : PairStorage) (token : Addr) : Prop where
  ratio : p.reserveForToken token * p'.totalLpSupply ≤ p'.reserveForToken token * p.totalLpSupply
  shares : p.totalLpSupply ≤ p'.totalLpSupply

theorem deposited_of_same {p' : PairStorage} (hinfo : p'.pairInfo = p.pairInfo)
    (hreserves : p'.reserves = p.reserves) (hshares : p'.totalLpSupply = p.totalLpSupply) :
    Deposited p p' token := by
  refine ⟨?_, hshares.ge⟩
  unfold PairStorage.reserveForToken
  rw [hinfo, hreserves, hshares]

theorem Provided.deposited {d : Deposit} (h : Provided p env sender out d)
    (hne : p.reserveForToken token ≠ 0) : Deposited p out.1 token := by
  have hinfo : out.1.pairInfo = p.pairInfo := by rw [h.stored]
  have hreserves : out.1.reserves = (p.reserves.1 + d.amountA, p.reserves.2 + d.amountB) := by
    rw [h.stored]
  have hshares : out.1.totalLpSupply = p.totalLpSupply + (d.lpToUser + d.lpToBurn) := by
    rw [h.stored]
  have hnonempty : ¬(p.reserves.1 = 0 ∧ p.reserves.2 = 0) := by
    rintro ⟨h0, h1⟩
    refine hne ?_
    unfold PairStorage.reserveForToken
    rw [h0, h1]
    split_ifs <;> rfl
  have hprice := h.priced.price
  rw [if_neg hnonempty] at hprice
  obtain ⟨hburn, hleA, hleB⟩ := h.priced.minted_le hprice.1
  refine ⟨?_, by omega⟩
  unfold PairStorage.reserveForToken
  rw [hinfo, hreserves, hshares, hburn]
  split_ifs
  · exact mint_ratio hleA
  · exact mint_ratio hleB
  · simp

theorem Served.deposited {assets : Asset × Asset} {tolerance : Option Decimal}
    {receiver : Option Addr} {deadline : Option ℕ}
    (h : Served p A q env sender (.provideLiquidity assets tolerance receiver deadline) out)
    (hne : p.reserveForToken token ≠ 0) : Deposited p out.1 token := by
  cases h with
  | provided d h => exact h.deposited hne
  | booked _ stored _ => exact deposited_of_same (by rw [stored]) (by rw [stored]) (by rw [stored])
  | governed _ _ stored _ =>
      exact deposited_of_same (by rw [stored]) (by rw [stored]) (by rw [stored])

/-- A swap with a least return pays at least that to the named receiver. -/
theorem executeSwap_pays {args : SwapArgs} {m : ℕ} {receiver : Addr} {amount : ℕ}
    (h : executeSwap p q env token sender amount args = .ok out) (hmin : args.minReturn = some m)
    (hm : 0 < m) (hto : args.toAddr = some receiver) :
    ∃ side net, p.pairInfo.takenSide token = .ok side ∧ m ≤ net ∧
      .transfer (p.pairInfo.escrowToken side) receiver net ∈ out.2.messages := by
  unfold executeSwap at h
  obtain ⟨plan, _, h⟩ := bind_eq_ok.1 h
  obtain ⟨p₁, horacle, h⟩ := bind_eq_ok.1 h
  obtain ⟨side, hside, h⟩ := bind_eq_ok.1 h
  obtain ⟨recipient, hreceiver, h⟩ := bind_eq_ok.1 h
  obtain ⟨⟨cache, bps, dereg⟩, _, h⟩ := bind_eq_ok.1 h
  obtain ⟨legs, _, h⟩ := bind_eq_ok.1 h
  obtain ⟨settled, hsettle, h⟩ := bind_eq_ok.1 h
  unfold PairStorage.updateOracle at horacle
  obtain ⟨oracle, _, horacle⟩ := bind_eq_ok.1 horacle
  obtain rfl := Except.ok.inj horacle
  unfold settleSwap at hsettle
  obtain ⟨total, _, hsettle⟩ := bind_eq_ok.1 hsettle
  obtain ⟨commission, _, hsettle⟩ := bind_eq_ok.1 hsettle
  obtain ⟨_, _, hsettle⟩ := bind_eq_ok.1 hsettle
  obtain ⟨deductions, _, hsettle⟩ := bind_eq_ok.1 hsettle
  obtain ⟨fee, _, hsettle⟩ := bind_eq_ok.1 hsettle
  obtain ⟨_, _, hsettle⟩ := bind_eq_ok.1 hsettle
  obtain ⟨net, _, hsettle⟩ := bind_eq_ok.1 hsettle
  obtain ⟨_, hfloor, hsettle⟩ := bind_eq_ok.1 hsettle
  obtain rfl := Except.ok.inj hsettle
  rw [hmin] at hfloor
  have hle : m ≤ net := ensure_eq_ok.1 hfloor
  have hto' : recipient = receiver := by
    rw [hto] at hreceiver
    unfold Querier.addrValidateOr Querier.addrValidate at hreceiver
    dsimp only at hreceiver
    split_ifs at hreceiver
    exact (Except.ok.inj hreceiver).symm
  subst hto'
  obtain rfl := Except.ok.inj h
  refine ⟨side, net, hside, hle, ?_⟩
  have hne : net ≠ 0 := by omega
  simp only [swapTransferMessages, maybeTransfer, if_neg hne, List.mem_append]
  exact .inl (.inl (.inl (.inr (List.mem_singleton.2 rfl))))

theorem execute_pays {args : SwapArgs} {deadline : Option ℕ} {m amount : ℕ} {receiver : Addr}
    (h : execute p q env token (.receive ⟨sender, amount, .swap args deadline⟩) = .ok out)
    (hmin : args.minReturn = some m) (hm : 0 < m) (hto : args.toAddr = some receiver) :
    ∃ side net, p.pairInfo.takenSide token = .ok side ∧ m ≤ net ∧
      .transfer (p.pairInfo.escrowToken side) receiver net ∈ out.2.messages := by
  obtain ⟨_, _, h⟩ := bind_eq_ok.1 h
  unfold executeReceive at h
  obtain ⟨from', _, h⟩ := bind_eq_ok.1 h
  obtain ⟨wallets, _, h⟩ := bind_eq_ok.1 h
  obtain ⟨_, _, h⟩ := bind_eq_ok.1 h
  obtain ⟨_, _, h⟩ := bind_eq_ok.1 h
  obtain ⟨_, _, h⟩ := bind_eq_ok.1 h
  exact executeSwap_pays h hmin hm hto

end Messages

namespace AutoLp

/-! ## One skim, from its message to its last reply -/

/-- The pair carries out a message of the contract; the token has delivered `received` of it. -/
inductive Delivered (own : Addr) (p : PairStorage) :
    Msg → PairStorage × Cl8yDex.Response → Prop
  | send {q : Querier} {env : Env} {token pair : Addr} {amount received : ℕ} {hook : Cw20HookMsg}
      {out : PairStorage × Cl8yDex.Response} (hpair : env.contract = pair)
      (h : Cl8yDex.execute p q env token (.receive ⟨own, received, hook⟩) = .ok out) :
      Delivered own p (.send token pair amount hook) out
  | provide {q : Querier} {env : Env} {pair : Addr} {assets : Asset × Asset}
      {tolerance : Option Decimal} {receiver : Option Addr} {deadline : Option ℕ}
      {out : PairStorage × Cl8yDex.Response} (hpair : env.contract = pair)
      (h : Cl8yDex.execute p q env own (.provideLiquidity assets tolerance receiver deadline) =
        .ok out) :
      Delivered own p (.provideLiquidity pair assets tolerance receiver deadline) out

/-- An accepted message to the contract, from anybody. -/
def Accepted (own : Addr) (s s' : Storage) : Prop :=
  ∃ deps sender msg out, execute s deps own sender msg = .ok out ∧ s' = out.1

/-- A skim that commits. Only its own sale and deposit touch the pair; the contract itself may be
called between the stages. -/
structure SkimRun (own : Addr) (s : Storage) (p : PairStorage) where
  deps : Deps
  started : Storage × Response
  start : executeSkim s deps own = .ok started
  shown : ∀ pair, s.config.pair = some pair →
    deps.pool pair = some p.queryPool ∧ deps.pair pair = some (p.queryPair pair)
  saleMsg : Msg
  asked : (saleMsg, some replySwap) ∈ started.2.messages
  sale : PairStorage × Cl8yDex.Response
  sold : Delivered own p saleMsg sale
  atSaleReply : Storage
  afterStart : Relation.ReflTransGen (Accepted own) started.1 atSaleReply
  saleDeps : Deps
  replied : Storage × Response
  saleReply : reply atSaleReply saleDeps own replySwap = .ok replied
  depositMsg : Msg
  askedDeposit : (depositMsg, some replyProvide) ∈ replied.2.messages
  deposit : PairStorage × Cl8yDex.Response
  deposited : Delivered own sale.1 depositMsg deposit
  atDepositReply : Storage
  afterReply : Relation.ReflTransGen (Accepted own) replied.1 atDepositReply
  depositDeps : Deps
  ended : Storage × Response
  depositReply : reply atDepositReply depositDeps own replyProvide = .ok ended

namespace SkimRun

variable {own : Addr} {s : Storage} {p : PairStorage} (run : SkimRun own s p)

/-- Between the first message of the skim and its last reply. -/
def InProgress (st : Storage) : Prop :=
  Relation.ReflTransGen (Accepted own) run.started.1 st ∨
    Relation.ReflTransGen (Accepted own) run.replied.1 st

/-- What the skim measured: its balance and the recipient's LP tokens before and after. -/
structure Measured (anchor : LpPolicy) (bal before after : ℕ) : Prop where
  balance : run.deps.balance s.config.token own = some bal
  lpBefore : run.deps.balance anchor.lpToken s.config.lpRecipient = some before
  lpAfter : run.depositDeps.balance anchor.lpToken s.config.lpRecipient = some after
  grown : before ≤ after

/-- The recipient's new LP tokens hold the value of the deposited half up to both tolerances. -/
def KeepsValue (anchor : LpPolicy) (bal before after : ℕ) : Prop :=
  retained s.config.skimMaxSpread ^ 2 *
      (((bal - bal / 2 : ℕ) : ℚ) - anchor.taxReserve / anchor.totalShare) ≤
    ((after - before : ℕ) : ℚ) * ((run.deposit.1.reserveForToken s.config.token : ℚ) /
      run.deposit.1.totalLpSupply)

/-- The sale paid the contract at least the least return of the anchor and of the configuration. -/
def SaleReturns (anchor : LpPolicy) (bal : ℕ) : Prop :=
  ∃ net, .transfer anchor.quote own net ∈ run.sale.2.messages ∧
    max (max 1 (s.config.skimMinReturn.getD 0))
      ⌈retained s.config.skimMaxSpread *
        (bal / 2 * anchor.quoteReserve / anchor.taxReserve : ℕ)⌉₊ ≤ net

/-- What a committed skim guarantees. -/
structure Safe (anchor : LpPolicy) : Prop where
  value : ∃ bal before after, run.Measured anchor bal before after ∧
    run.KeepsValue anchor bal before after ∧ run.SaleReturns anchor bal
  unlocked : run.ended.1.skimming = false
  cleared : run.ended.1.pendingSkim = none
  alone : ∀ st, run.InProgress st → ∀ deps sender msg,
    execute st deps own sender msg = .error .reentrancy

end SkimRun

/-! ## The stages -/

section Stages

variable {own : Addr} {s s' : Storage} {p : PairStorage}

/-- While a skim is pending no message to the contract changes anything. -/
theorem accepted_locked (hlock : s.skimming = true)
    (h : Relation.ReflTransGen (Accepted own) s s') : s' = s := by
  induction h with
  | refl => rfl
  | tail _ hstep ih =>
      obtain ⟨deps, sender, msg, out, hout, -⟩ := hstep
      rw [ih, execute_locked hlock] at hout
      cases hout

theorem Started.locked {deps : Deps} {t : SkimTerms} {out : Storage × Response}
    (h : Started s deps own t out) : out.1.skimming = true := by
  rw [h.stored]

theorem poolReserves_queryPool {token quote : Addr} {r : ℕ × ℕ}
    (h : poolReserves p.queryPool token quote = .ok r) :
    r.1 = p.reserveForToken token ∧
      ∀ side, p.pairInfo.takenSide token = .ok side → p.pairInfo.escrowToken side = quote := by
  unfold PairStorage.reserveForToken PairInfo.takenSide
  rcases poolReserves_ok h with hsame | ⟨hswapped, hother⟩
  · obtain ⟨h0, h1⟩ := Prod.mk.inj hsame
    obtain ⟨htoken, hamount⟩ := Asset.mk.inj h0
    obtain ⟨hquote, -⟩ := Asset.mk.inj h1
    have htoken := AssetInfo.token.inj htoken
    rw [if_pos htoken.symm, if_pos htoken.symm]
    refine ⟨hamount.symm, fun side hside => ?_⟩
    cases hside
    exact AssetInfo.token.inj hquote
  · obtain ⟨h0, h1⟩ := Prod.mk.inj hswapped
    obtain ⟨hquote, -⟩ := Asset.mk.inj h0
    obtain ⟨htoken, hamount⟩ := Asset.mk.inj h1
    have hquote := AssetInfo.token.inj hquote
    have htoken := AssetInfo.token.inj htoken
    have hne : token ≠ p.pairInfo.token0 := by
      intro heq
      refine hother ⟨congrArg AssetInfo.token heq.symm, congrArg AssetInfo.token ?_⟩
      rw [htoken, heq, hquote]
    rw [if_neg hne, if_pos htoken.symm, if_neg hne, if_pos htoken.symm]
    refine ⟨hamount.symm, fun side hside => ?_⟩
    cases hside
    exact hquote

theorem NearAnchor.retains {current approved totalShare approvedShare : ℕ} {tolerance : Decimal}
    (h : NearAnchor current approved totalShare approvedShare tolerance)
    (htotal : totalShare ≠ 0) (happroved : approvedShare ≠ 0) :
    retained tolerance * ((approved : ℚ) / approvedShare) ≤ (current : ℚ) / totalShare := by
  have hS : (0 : ℚ) < totalShare := by exact_mod_cast Nat.pos_of_ne_zero htotal
  have hS₀ : (0 : ℚ) < approvedShare := by exact_mod_cast Nat.pos_of_ne_zero happroved
  have hone : (0 : ℚ) < Decimal.fractional := by exact_mod_cast Decimal.fractional_pos
  have hfloor : ((approved * totalShare * tolerance.atomics / Decimal.one.atomics : ℕ) : ℚ) ≤
      (approved * totalShare * tolerance.atomics : ℕ) / (Decimal.fractional : ℕ) :=
    Nat.cast_div_le
  have hlow : ((approved * totalShare : ℕ) : ℚ) ≤ ((current * approvedShare +
      approved * totalShare * tolerance.atomics / Decimal.one.atomics : ℕ) : ℚ) :=
    Nat.cast_le.2 h.low
  push_cast at hlow hfloor
  have hpart : retained tolerance * (approved * totalShare) ≤ (current * approvedShare : ℚ) := by
    have hexpand : retained tolerance * (approved * totalShare) = (approved * totalShare : ℚ) -
        approved * totalShare * tolerance.atomics / Decimal.fractional := by
      unfold retained
      ring
    rw [hexpand]
    linarith
  rw [← mul_div_assoc, div_le_div_iff₀ hS₀ hS]
  linarith

theorem Minimum.retains {amount numerator denominator m : ℕ} {tolerance : Decimal}
    (h : Minimum amount numerator denominator tolerance m) :
    retained tolerance * ((amount : ℚ) * numerator / denominator - 1) ≤ m := by
  have hden : (0 : ℚ) < denominator := by exact_mod_cast Nat.pos_of_ne_zero h.divisor
  have hceil := Nat.le_ceil
    (retained tolerance * ((amount * numerator / denominator : ℕ) : ℚ))
  have hle : ⌈retained tolerance * ((amount * numerator / denominator : ℕ) : ℚ)⌉₊ ≤ m := by
    rw [h.exact]
    exact le_max_left _ _
  have hfloor : (amount : ℚ) * numerator / denominator - 1 ≤
      ((amount * numerator / denominator : ℕ) : ℚ) := by
    have hlt : amount * numerator < denominator * (amount * numerator / denominator + 1) :=
      Nat.lt_mul_div_succ _ (Nat.pos_of_ne_zero h.divisor)
    have hlt' : ((amount : ℚ) * numerator) < denominator *
        (((amount * numerator / denominator : ℕ) : ℚ) + 1) := by exact_mod_cast hlt
    rw [sub_le_iff_le_add, div_le_iff₀ hden]
    linarith
  calc retained tolerance * ((amount : ℚ) * numerator / denominator - 1)
      ≤ retained tolerance * ((amount * numerator / denominator : ℕ) : ℚ) :=
        mul_le_mul_of_nonneg_left hfloor (retained_nonneg h.bounded)
    _ ≤ m := hceil.trans (by exact_mod_cast hle)

end Stages

section Run

variable {own : Addr} {s : Storage} {p : PairStorage} {anchor : LpPolicy}

/-- The stages of a committed skim, with the contract's storage as the locked skim left it. -/
structure Staged (run : SkimRun own s p) (t : SkimTerms) (taxLeft quoteBal after : ℕ) : Prop where
  started : Started s run.deps own t run.started
  saleReplied : SaleReplied run.started.1 run.saleDeps own (t.pending s.config) taxLeft quoteBal
    run.replied
  depositReplied : DepositReplied run.replied.1 run.depositDeps (t.pending s.config) after run.ended

theorem SkimRun.staged (run : SkimRun own s p) :
    ∃ t taxLeft quoteBal after, Staged run t taxLeft quoteBal after := by
  obtain ⟨-, ⟨-, hmessages⟩ | ⟨t, ht⟩⟩ := executeSkim_cases run.start
  · have hasked := run.asked
    rw [hmessages] at hasked
    cases hasked
  have hsaleAt := accepted_locked ht.locked run.afterStart
  obtain ⟨-, pending, hpending, hcase⟩ := reply_cases run.saleReply
  have hsame : pending = t.pending s.config := by
    rw [hsaleAt, ht.stored] at hpending
    exact (Option.some.inj hpending).symm
  rcases hcase with ⟨-, taxLeft, quoteBal, hsale⟩ | ⟨hid, -⟩
  swap
  · exact absurd hid (by decide)
  rw [hsame, hsaleAt] at hsale
  have hlock : run.replied.1.skimming = true := by
    rw [hsale.stored]
    exact ht.locked
  have hdepositAt := accepted_locked hlock run.afterReply
  obtain ⟨-, pending', hpending', hcase'⟩ := reply_cases run.depositReply
  have hsame' : pending' = t.pending s.config := by
    rw [hdepositAt, hsale.stored, ht.stored] at hpending'
    exact (Option.some.inj hpending').symm
  rcases hcase' with ⟨hid, -⟩ | ⟨-, after, hdeposit⟩
  · exact absurd hid (by decide)
  rw [hsame', hdepositAt] at hdeposit
  exact ⟨t, taxLeft, quoteBal, after, ht, hsale, hdeposit⟩

variable {run : SkimRun own s p} {t : SkimTerms} {taxLeft quoteBal after : ℕ}

theorem Staged.pool (h : Staged run t taxLeft quoteBal after) : t.pool = p.queryPool := by
  obtain ⟨hpool, -⟩ := run.shown t.pair h.started.pair
  exact Option.some.inj (h.started.approved.shown.symm.trans hpool)

theorem Staged.tax (h : Staged run t taxLeft quoteBal after) :
    t.tax = p.reserveForToken s.config.token ∧
      ∀ side, p.pairInfo.takenSide s.config.token = .ok side →
        p.pairInfo.escrowToken side = t.quote := by
  obtain ⟨other, hreserves, -⟩ := h.started.approved.reserves
  rw [h.pool] at hreserves
  exact poolReserves_queryPool hreserves

/-- The sale is the hook that the skim sent to the pair. -/
theorem Staged.sale (h : Staged run t taxLeft quoteBal after) :
    ∃ q env received, Cl8yDex.execute p q env s.config.token (.receive ⟨own, received,
      swapHook s.config own t.half (t.minReturn s.config)⟩) = .ok run.sale := by
  have hasked := run.asked
  rw [h.started.messages, List.mem_singleton] at hasked
  have hsold := run.sold
  rw [(Prod.mk.inj hasked).1] at hsold
  cases hsold with
  | send _ h => exact ⟨_, _, _, h⟩

theorem Staged.deposit (h : Staged run t taxLeft quoteBal after) :
    ∃ q env assets tolerance receiver deadline, Cl8yDex.execute run.sale.1 q env own
      (.provideLiquidity assets tolerance receiver deadline) = .ok run.deposit := by
  have hasked := run.askedDeposit
  rw [h.saleReplied.messages] at hasked
  simp only [List.mem_cons, Prod.mk.injEq, List.not_mem_nil, or_false, reduceCtorEq, and_false,
    false_or] at hasked
  have hdeposited := run.deposited
  rw [hasked.1] at hdeposited
  cases hdeposited with
  | provide _ h => exact ⟨_, _, _, _, _, _, h⟩

/-- The pair's two messages raise the tax reserve behind one share. -/
theorem Staged.reserve (h : Staged run t taxLeft quoteBal after) (hp : Reachable p) :
    p.reserveForToken s.config.token * run.deposit.1.totalLpSupply ≤
        run.deposit.1.reserveForToken s.config.token * p.totalLpSupply ∧
      p.totalLpSupply ≤ run.deposit.1.totalLpSupply := by
  obtain ⟨q, env, received, hsale⟩ := h.sale
  obtain ⟨q', env', assets, tolerance, receiver, deadline, hdeposit⟩ := h.deposit
  obtain ⟨A, hA⟩ := hp.healthy
  have hsold := ((execute_spec hA.rep hA.balanced _).success hsale).sold
  obtain ⟨A', hA'⟩ := (hp.step (.call hsale)).healthy
  have hne : run.sale.1.reserveForToken s.config.token ≠ 0 := by
    have htax := h.started.approved.taxLeft
    rw [h.tax.1] at htax
    have hle := hsold.reserve
    omega
  have hdeposited := ((execute_spec hA'.rep hA'.balanced _).success hdeposit).deposited hne
  have hratio := hdeposited.ratio
  have hshares := hdeposited.shares
  rw [hsold.shares] at hratio hshares
  exact ⟨(Nat.mul_le_mul_right _ hsold.reserve).trans hratio, hshares⟩

theorem Staged.keepsValue (h : Staged run t taxLeft quoteBal after) (hp : Reachable p) :
    run.KeepsValue t.policy t.bal t.lpBefore after := by
  have happroved := h.started.approved
  have htaxReserve : (0 : ℚ) < t.policy.taxReserve := by
    exact_mod_cast Nat.pos_of_ne_zero happroved.taxReserve
  have htotalShare : (0 : ℚ) < t.policy.totalShare := by
    exact_mod_cast Nat.pos_of_ne_zero happroved.totalShare
  have hshares : p.totalLpSupply ≠ 0 := by
    have hne := happroved.shares
    rw [h.pool] at hne
    exact hne
  obtain ⟨hratio, hle⟩ := h.reserve hp
  have hS : (0 : ℚ) < p.totalLpSupply := by exact_mod_cast Nat.pos_of_ne_zero hshares
  have hS' : (0 : ℚ) < run.deposit.1.totalLpSupply := hS.trans_le (by exact_mod_cast hle)
  have hbehind : retained s.config.skimMaxSpread *
      ((t.policy.taxReserve : ℚ) / t.policy.totalShare) ≤
        (run.deposit.1.reserveForToken s.config.token : ℚ) / run.deposit.1.totalLpSupply := by
    have hnear := happroved.near.retains happroved.shares happroved.totalShare
    rw [h.pool, h.tax.1] at hnear
    refine hnear.trans ?_
    change (p.reserveForToken s.config.token : ℚ) / p.totalLpSupply ≤ _
    rw [div_le_div_iff₀ hS hS']
    exact_mod_cast hratio
  have hminted : retained s.config.skimMaxSpread *
      (((t.bal - t.bal / 2 : ℕ) : ℚ) * t.policy.totalShare / t.policy.taxReserve - 1) ≤
        ((after - t.lpBefore : ℕ) : ℚ) :=
    h.started.minLp.retains.trans (by exact_mod_cast h.depositReplied.enough)
  exact retained_value (retained_nonneg h.started.minLp.bounded) htaxReserve htotalShare
    (Nat.cast_nonneg _) hbehind hminted

theorem Staged.saleReturns (h : Staged run t taxLeft quoteBal after) :
    run.SaleReturns t.policy t.bal := by
  obtain ⟨q, env, received, hsale⟩ := h.sale
  have hfloor := h.started.floor.exact
  have hpos : 0 < t.minReturn s.config := by
    have hone : 1 ≤ t.floor := by
      rw [hfloor]
      exact le_max_right _ _
    exact hone.trans (le_max_left _ _)
  obtain ⟨side, net, hside, hnet, hpaid⟩ := execute_pays hsale rfl hpos rfl
  rw [h.tax.2 side hside, ← h.started.approved.sameQuote] at hpaid
  refine ⟨net, hpaid, le_trans ?_ hnet⟩
  unfold SkimTerms.minReturn
  rw [hfloor]
  refine max_le (max_le ?_ (le_max_right _ _)) ?_
  · exact (le_max_right _ _).trans (le_max_left _ _)
  · exact (le_max_left _ _).trans (le_max_left _ _)

/-- However the pool was moved before it, a committed skim keeps the value of the deposited half
up to both tolerances of the last bind, was paid its least return, and ran alone. -/
theorem skim_keeps_value (hp : Reachable p) (hs : Reach s (some anchor)) (run : SkimRun own s p) :
    run.Safe anchor := by
  obtain ⟨t, taxLeft, quoteBal, after, h⟩ := run.staged
  have hanchor : t.policy = anchor :=
    Option.some.inj (h.started.policy.symm.trans hs.kept.anchored)
  subst hanchor
  have hlocked : run.replied.1.skimming = true := by
    rw [h.saleReplied.stored]
    exact h.started.locked
  constructor
  · exact ⟨t.bal, t.lpBefore, after,
      ⟨h.started.balance, h.started.lpBefore, h.depositReplied.balance, h.depositReplied.grown⟩,
      h.keepsValue hp, h.saleReturns⟩
  · rw [h.depositReplied.stored]
  · rw [h.depositReplied.stored]
  · rintro st (hst | hst) deps sender msg
    · rw [accepted_locked h.started.locked hst]
      exact execute_locked h.started.locked ..
    · rw [accepted_locked hlocked hst]
      exact execute_locked hlocked ..

end Run

section Sample

/-- Balances of the tax token 1, of the quote token 2 and of the LP token, beside a fresh pool. -/
def sampleDeps (tax quote lp : ℕ) : Deps where
  validAddr _ := true
  balance token _ := some (if token = 1 then tax else if token = 2 then quote else lp)
  pair pair := some (samplePool.queryPair pair)
  pool _ := some samplePool.queryPool
  factoryPair _ _ := some (samplePool.queryPair 9)

def sampleAnchor : LpPolicy := ⟨9, 2, 3, 1000000, 3000000, 1732050⟩

/-- A contract of the pair 9 that was bound when it was made. -/
def sampleStorage : Storage where
  config := ⟨1, 8, 4, none, some 9, some 2, 100, 7, ⟨10 ^ 16⟩, none⟩
  skimming := false
  lpPolicy := some sampleAnchor
  pendingSkim := none

theorem sampleStorage_reach : Reach sampleStorage (some sampleAnchor) := by
  have hmade : Meets (instantiate (sampleDeps 0 0 0)
      ⟨1, 8, 4, none, some 9, none, 100, 7, none, none⟩) (fun out => out.1 = sampleStorage)
      (fun _ => False) := by decide +kernel
  have hbound : Meets (capturePolicy (sampleDeps 0 0 0) 9 1 (some 2))
      (fun anchor => anchor = some sampleAnchor) (fun _ => False) := by decide +kernel
  obtain ⟨out, hout, hstored⟩ := hmade.accepted
  obtain ⟨anchor, hcapture, hanchor⟩ := hbound.accepted
  subst hanchor
  rw [← hstored]
  refine .start hout (.bound (show out.1.config.pair = some 9 from ?_) ?_)
  · rw [hstored]
    rfl
  · rw [hstored]
    exact hcapture

theorem terms_follow_manager_sample : Anchored sampleStorage (some sampleAnchor) :=
  terms_follow_manager sampleStorage_reach

/-- The sale of 5000 for at least 14850, and the pool after it. -/
def sampleSale : Cl8yDex.ExecuteMsg :=
  .receive ⟨20, 5000, swapHook sampleStorage.config 20 5000 14850⟩

def sampleSold : PairStorage := samplePool.transact .permissive (sampleEnv 1006) 1 sampleSale

def sampleDeposit : Cl8yDex.ExecuteMsg :=
  .provideLiquidity (⟨.token 1, 5000⟩, ⟨.token 2, 14881⟩) (some ⟨10 ^ 16⟩) (some 7) none

def sampleLocked : Storage :=
  { sampleStorage with
    skimming := true
    pendingSkim := some ⟨9, 1, 2, 3, 7, 500, 8574, ⟨10 ^ 16⟩⟩ }

theorem sampleStart : ∃ out, executeSkim sampleStorage (sampleDeps 10000 0 500) 20 = .ok out ∧
    out.1 = sampleLocked ∧ (.send 1 9 5000 (swapHook sampleStorage.config 20 5000 14850),
      some replySwap) ∈ out.2.messages := by
  have hstart : Meets (executeSkim sampleStorage (sampleDeps 10000 0 500) 20)
      (fun out => out.1 = sampleLocked ∧
        out.2.attributes = .skimToLp 5000 14850 8574 ⟨10 ^ 16⟩) (fun _ => False) := by
    decide +kernel
  obtain ⟨out, hout, hlocked, hattributes⟩ := hstart.accepted
  refine ⟨out, hout, hlocked, ?_⟩
  obtain ⟨-, ⟨hsame, -⟩ | ⟨t, ht⟩⟩ := executeSkim_cases hout
  · exact absurd (congrArg Storage.skimming (hsame.symm.trans hlocked)) (by decide)
  rw [ht.attributes] at hattributes
  obtain ⟨hhalf, hreturn, -, -⟩ := Attributes.skimToLp.inj hattributes
  have hpair : 9 = t.pair := Option.some.inj ht.pair
  rw [ht.messages, hhalf, hreturn, ← hpair]
  exact List.mem_singleton.2 rfl

theorem sampleReply : ∃ out, reply sampleLocked (sampleDeps 5000 14881 500) 20 replySwap = .ok out ∧
    out.1 = sampleLocked ∧ (.provideLiquidity 9 (⟨.token 1, 5000⟩, ⟨.token 2, 14881⟩)
      (some ⟨10 ^ 16⟩) (some 7) none, some replyProvide) ∈ out.2.messages := by
  have hreply : Meets (reply sampleLocked (sampleDeps 5000 14881 500) 20 replySwap)
      (fun out => out.1 = sampleLocked) (fun _ => False) := by decide +kernel
  obtain ⟨out, hout, hlocked⟩ := hreply.accepted
  refine ⟨out, hout, hlocked, ?_⟩
  obtain ⟨-, pending, hpending, ⟨-, tax, quote, hsale⟩ | ⟨hid, -⟩⟩ := reply_cases hout
  · obtain rfl : _ = pending := Option.some.inj hpending
    obtain rfl : 5000 = tax := Option.some.inj hsale.tax
    obtain rfl : 14881 = quote := Option.some.inj hsale.quote
    rw [hsale.messages]
    exact List.mem_cons_of_mem _ (List.mem_cons_of_mem _ (List.mem_singleton.2 rfl))
  · exact absurd hid (by decide)

theorem skim_keeps_value_sample : ∃ run : SkimRun 20 sampleStorage samplePool,
    run.Safe sampleAnchor := by
  have hsale : Meets (Cl8yDex.execute samplePool .permissive (sampleEnv 1006) 1 sampleSale)
      (fun _ => True) (fun _ => False) := by decide +kernel
  have hdeposit : Meets (Cl8yDex.execute sampleSold .permissive (sampleEnv 1006) 20 sampleDeposit)
      (fun _ => True) (fun _ => False) := by decide +kernel
  have hend : Meets (reply sampleLocked (sampleDeps 0 0 9117) 20 replyProvide)
      (fun _ => True) (fun _ => False) := by decide +kernel
  obtain ⟨started, hstarted, hlocked, hasked⟩ := sampleStart
  obtain ⟨replied, hreplied, hstill, haskedDeposit⟩ := sampleReply
  obtain ⟨sale, hsale, -⟩ := hsale.accepted
  obtain ⟨deposit, hdeposit, -⟩ := hdeposit.accepted
  obtain ⟨ended, hended, -⟩ := hend.accepted
  have hsold : sampleSold = sale.1 := by
    unfold sampleSold PairStorage.transact
    rw [hsale]
  rw [hsold] at hdeposit
  let run : SkimRun 20 sampleStorage samplePool :=
    { deps := sampleDeps 10000 0 500
      started := started
      start := hstarted
      shown := fun pair _ => ⟨rfl, rfl⟩
      saleMsg := _
      asked := hasked
      sale := sale
      sold := .send rfl hsale
      atSaleReply := sampleLocked
      afterStart := by
        rw [hlocked]
      saleDeps := sampleDeps 5000 14881 500
      replied := replied
      saleReply := hreplied
      depositMsg := _
      askedDeposit := haskedDeposit
      deposit := deposit
      deposited := .provide rfl hdeposit
      atDepositReply := sampleLocked
      afterReply := by
        rw [hstill]
      depositDeps := sampleDeps 0 0 9117
      ended := ended
      depositReply := hended }
  exact ⟨run, skim_keeps_value samplePool_reachable sampleStorage_reach run⟩

end Sample

end AutoLp

end Cl8yDex
