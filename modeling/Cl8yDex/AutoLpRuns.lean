import Cl8yDex.AutoLp
import Mathlib.Data.Rat.Floor
import Mathlib.Algebra.Order.Floor.Semiring

/-!
# The liquidity contract over whole runs

What an accepted message did. The anchor in the storage is what the last bind captured, the
spread stays under its cap, and while a skim is pending every message is refused.
-/

namespace Cl8yDex.AutoLp

open Outcome

variable {s s' : Storage} {deps : Deps} {self sender : Addr} {out : Storage × Response}

/-! ## The minima and the anchor -/

/-- The part of an amount that a tolerance retains. -/
def retained (tolerance : Decimal) : ℚ := 1 - tolerance.atomics / Decimal.fractional

theorem retained_nonneg {tolerance : Decimal} (h : tolerance ≤ Decimal.one) :
    0 ≤ retained tolerance := by
  have hle : (tolerance.atomics : ℚ) ≤ Decimal.fractional := by exact_mod_cast h
  have hpos : (0 : ℚ) < Decimal.fractional := by exact_mod_cast Decimal.fractional_pos
  unfold retained
  linarith [(div_le_one hpos).2 hle]

/-- An accepted minimum: at least one, and what the tolerance retains of the floored ratio. -/
structure Minimum (amount numerator denominator : ℕ) (tolerance : Decimal) (m : ℕ) : Prop where
  divisor : denominator ≠ 0
  bounded : tolerance ≤ Decimal.one
  exact : m = max ⌈retained tolerance * (amount * numerator / denominator : ℕ)⌉₊ 1

theorem ceil_retained {tolerance : Decimal} (h : tolerance ≤ Decimal.one) (n : ℕ) :
    ⌈retained tolerance * n⌉₊ =
      (n * (Decimal.one.atomics - tolerance.atomics) + (Decimal.one.atomics - 1)) /
        Decimal.one.atomics := by
  have hpos : 0 < Decimal.one.atomics := Decimal.fractional_pos
  have hcast : retained tolerance * n =
      ((n * (Decimal.one.atomics - tolerance.atomics) : ℕ) : ℚ) / Decimal.one.atomics := by
    rw [Nat.cast_mul, Nat.cast_sub h]
    change (1 - (tolerance.atomics : ℚ) / Decimal.one.atomics) * n = _
    have hne : (Decimal.one.atomics : ℚ) ≠ 0 := by exact_mod_cast hpos.ne'
    field_simp
  rw [hcast]
  generalize n * (Decimal.one.atomics - tolerance.atomics) = x
  generalize Decimal.one.atomics = d at hpos
  have hd : (0 : ℚ) < d := by exact_mod_cast hpos
  refine le_antisymm (Nat.ceil_le.2 ?_) (Nat.le_of_lt_succ (Nat.div_lt_of_lt_mul ?_))
  · rw [div_le_iff₀ hd]
    have hlt := Nat.lt_mul_div_succ (x + (d - 1)) hpos
    have hle : x ≤ (x + (d - 1)) / d * d := by
      rw [Nat.mul_succ, Nat.mul_comm] at hlt
      omega
    exact_mod_cast hle
  · have hle := (div_le_iff₀ hd).1 (Nat.le_ceil ((x : ℚ) / d))
    have hle' : x ≤ ⌈(x : ℚ) / d⌉₊ * d := by exact_mod_cast hle
    rw [Nat.mul_succ, Nat.mul_comm]
    omega

theorem minimumFor_ok {amount numerator denominator m : ℕ} {tolerance : Decimal}
    (h : minimumFor amount numerator denominator tolerance = .ok m) :
    Minimum amount numerator denominator tolerance m := by
  unfold minimumFor at h
  obtain ⟨expected, hexpected, h⟩ := bind_eq_ok.1 h
  obtain ⟨_, htol, h⟩ := bind_eq_ok.1 h
  obtain ⟨product, hproduct, h⟩ := bind_eq_ok.1 h
  obtain ⟨raised, hraised, h⟩ := bind_eq_ok.1 h
  obtain ⟨_, _, h⟩ := bind_eq_ok.1 h
  obtain ⟨hden, -, hexpected⟩ := checkedMultiplyRatio_eq_some.1 (orThrow_eq_ok.1 hexpected)
  obtain ⟨-, hproduct⟩ := checkedMul256_eq_some.1 (orThrow_eq_ok.1 hproduct)
  obtain ⟨-, hraised⟩ := checkedAdd256_eq_some.1 (orThrow_eq_ok.1 hraised)
  have htol : tolerance ≤ Decimal.one := ensure_eq_ok.1 htol
  refine ⟨hden, htol, ?_⟩
  rw [ceil_retained htol, ← hexpected, ← hproduct, ← hraised]
  exact (Except.ok.inj h).symm

/-- A pool reserve whose amount per share stayed within the tolerance of the approved one. -/
structure NearAnchor (current approved totalShare approvedShare : ℕ) (tolerance : Decimal) :
    Prop where
  low : approved * totalShare ≤ current * approvedShare +
    approved * totalShare * tolerance.atomics / Decimal.one.atomics
  high : current * approvedShare ≤ approved * totalShare +
    approved * totalShare * tolerance.atomics / Decimal.one.atomics

theorem checkReserve_ok {current approved totalShare approvedShare : ℕ} {tolerance : Decimal}
    {u : Unit} (h : checkReserve current approved totalShare approvedShare tolerance = .ok u) :
    NearAnchor current approved totalShare approvedShare tolerance := by
  unfold checkReserve at h
  obtain ⟨allowed, hallowed, h⟩ := bind_eq_ok.1 h
  obtain ⟨-, -, hallowed⟩ := checkedMultiplyRatio256_eq_some.1 (orThrow_eq_ok.1 hallowed)
  have hle := ensure_eq_ok.1 h
  rw [hallowed] at hle
  constructor
  · omega
  · omega

theorem poolReserves_ok {pool : PoolResponse} {token quote : Addr} {r : ℕ × ℕ}
    (h : poolReserves pool token quote = .ok r) :
    pool.assets = (⟨.token token, r.1⟩, ⟨.token quote, r.2⟩) ∨
      (pool.assets = (⟨.token quote, r.2⟩, ⟨.token token, r.1⟩) ∧
        ¬(pool.assets.1.info = .token token ∧ pool.assets.2.info = .token quote)) := by
  obtain ⟨⟨⟨ia, a⟩, ⟨ib, b⟩⟩, total⟩ := pool
  unfold poolReserves at h
  dsimp only at h
  split_ifs at h with h1 h2
  · cases h
    left
    rw [h1.1, h1.2]
  · cases h
    refine .inr ⟨?_, h1⟩
    rw [h2.1, h2.2]

/-- What a policy check has established about the pool that the pair showed. -/
structure Approved (deps : Deps) (policy : LpPolicy) (token pair quote : Addr)
    (tolerance : Decimal) (pool : PoolResponse) (tax : ℕ) : Prop where
  samePair : policy.pair = pair
  sameQuote : policy.quote = quote
  taxReserve : policy.taxReserve ≠ 0
  totalShare : policy.totalShare ≠ 0
  lpToken : ∃ info, deps.pair pair = some info ∧ info.liquidityToken = policy.lpToken
  shown : deps.pool pair = some pool
  reserves : ∃ other, poolReserves pool token quote = .ok (tax, other) ∧
    NearAnchor other policy.quoteReserve pool.totalShare policy.totalShare tolerance
  taxLeft : tax ≠ 0
  shares : pool.totalShare ≠ 0
  near : NearAnchor tax policy.taxReserve pool.totalShare policy.totalShare tolerance

theorem validatePolicy_ok {policy : LpPolicy} {token pair quote : Addr} {tolerance : Decimal}
    {u : Unit} (h : validatePolicy deps policy token pair quote tolerance = .ok u) :
    ∃ pool tax, Approved deps policy token pair quote tolerance pool tax := by
  unfold validatePolicy at h
  obtain ⟨_, hids, h⟩ := bind_eq_ok.1 h
  obtain ⟨info, hinfo, h⟩ := bind_eq_ok.1 h
  obtain ⟨_, hlp, h⟩ := bind_eq_ok.1 h
  obtain ⟨pool, hpool, h⟩ := bind_eq_ok.1 h
  obtain ⟨⟨tax, other⟩, hreserves, h⟩ := bind_eq_ok.1 h
  obtain ⟨_, hne, h⟩ := bind_eq_ok.1 h
  obtain ⟨_, htax, hother⟩ := bind_eq_ok.1 h
  obtain ⟨hpair, hquote, htaxReserve, -, hshare⟩ := ensure_eq_ok.1 hids
  obtain ⟨htax0, -, hshares⟩ := ensure_eq_ok.1 hne
  exact ⟨pool, tax, {
    samePair := hpair
    sameQuote := hquote
    taxReserve := htaxReserve
    totalShare := hshare
    lpToken := ⟨info, orThrow_eq_ok.1 hinfo, ensure_eq_ok.1 hlp⟩
    shown := orThrow_eq_ok.1 hpool
    reserves := ⟨other, hreserves, checkReserve_ok hother⟩
    taxLeft := htax0
    shares := hshares
    near := checkReserve_ok htax }⟩

/-! ## What an accepted message did -/

/-- What a skim takes from the configuration, the policy and the balances. -/
structure SkimTerms where
  pair : Addr
  quote : Addr
  policy : LpPolicy
  pool : PoolResponse
  tax : ℕ
  bal : ℕ
  floor : ℕ
  minLp : ℕ
  lpBefore : ℕ

def SkimTerms.half (t : SkimTerms) : ℕ := t.bal / 2

/-- The least return that the skim asks of its sale. -/
def SkimTerms.minReturn (t : SkimTerms) (cfg : Config) : ℕ := max t.floor (cfg.skimMinReturn.getD 0)

def SkimTerms.pending (t : SkimTerms) (cfg : Config) : PendingSkim where
  pair := t.pair
  token := cfg.token
  quote := t.quote
  lpToken := t.policy.lpToken
  recipient := cfg.lpRecipient
  lpBefore := t.lpBefore
  minLp := t.minLp
  tolerance := cfg.skimMaxSpread

/-- A skim that did not skip has stored its record and sent half of the balance for sale. -/
structure Started (s : Storage) (deps : Deps) (own : Addr) (t : SkimTerms)
    (out : Storage × Response) : Prop where
  idle : s.skimming = false
  balance : deps.balance s.config.token own = some t.bal
  pair : s.config.pair = some t.pair
  quote : s.config.quoteToken = some t.quote
  policy : s.lpPolicy = some t.policy
  approved : Approved deps t.policy s.config.token t.pair t.quote s.config.skimMaxSpread t.pool
    t.tax
  floor : Minimum t.half t.policy.quoteReserve t.policy.taxReserve s.config.skimMaxSpread t.floor
  minLp : Minimum (t.bal - t.half) t.policy.totalShare t.policy.taxReserve
    s.config.skimMaxSpread t.minLp
  lpBefore : deps.balance t.policy.lpToken s.config.lpRecipient = some t.lpBefore
  stored : out.1 = { s with pendingSkim := some (t.pending s.config), skimming := true }
  messages : out.2.messages = [(.send s.config.token t.pair t.half
    (swapHook s.config own t.half (t.minReturn s.config)), some replySwap)]
  attributes : out.2.attributes =
    .skimToLp t.half (t.minReturn s.config) t.minLp s.config.skimMaxSpread

/-- A skim either skips, and changes nothing, or has started. -/
theorem executeSkim_cases (h : executeSkim s deps self = .ok out) :
    s.skimming = false ∧ (out.1 = s ∧ out.2.messages = [] ∨ ∃ t, Started s deps self t out) := by
  unfold executeSkim at h
  obtain ⟨_, hidle, h⟩ := bind_eq_ok.1 h
  obtain ⟨bal, hbal, h⟩ := bind_eq_ok.1 h
  have hidle := ensure_eq_ok.1 hidle
  refine ⟨hidle, ?_⟩
  split_ifs at h with hlow
  · cases h
    exact .inl ⟨rfl, rfl⟩
  obtain ⟨pair, hpair, h⟩ := bind_eq_ok.1 h
  dsimp only at h
  split_ifs at h with hhalf
  · cases h
    exact .inl ⟨rfl, rfl⟩
  right
  unfold startSkim at h
  obtain ⟨quote, hquote, h⟩ := bind_eq_ok.1 h
  obtain ⟨policy, hpolicy, h⟩ := bind_eq_ok.1 h
  obtain ⟨_, hvalid, h⟩ := bind_eq_ok.1 h
  obtain ⟨floor, hfloor, h⟩ := bind_eq_ok.1 h
  obtain ⟨minLp, hminLp, h⟩ := bind_eq_ok.1 h
  obtain ⟨lpBefore, hbefore, h⟩ := bind_eq_ok.1 h
  obtain ⟨pool, tax, happroved⟩ := validatePolicy_ok hvalid
  cases h
  exact ⟨⟨pair, quote, policy, pool, tax, bal, floor, minLp, lpBefore⟩, {
    idle := hidle
    balance := orThrow_eq_ok.1 hbal
    pair := orThrow_eq_ok.1 hpair
    quote := orThrow_eq_ok.1 hquote
    policy := orThrow_eq_ok.1 hpolicy
    approved := happroved
    floor := minimumFor_ok hfloor
    minLp := minimumFor_ok hminLp
    lpBefore := orThrow_eq_ok.1 hbefore
    stored := rfl
    messages := rfl
    attributes := rfl }⟩

/-- The reply to the sale stores nothing and provides what is there. -/
structure SaleReplied (s : Storage) (deps : Deps) (own : Addr) (pending : PendingSkim)
    (taxLeft quoteBal : ℕ) (out : Storage × Response) : Prop where
  tax : deps.balance pending.token own = some taxLeft
  quote : deps.balance pending.quote own = some quoteBal
  stored : out.1 = s
  messages : out.2.messages = [
    (.increaseAllowance pending.token pending.pair taxLeft, none),
    (.increaseAllowance pending.quote pending.pair quoteBal, none),
    (.provideLiquidity pending.pair
      (⟨.token pending.token, taxLeft⟩, ⟨.token pending.quote, quoteBal⟩)
      (some pending.tolerance) (some pending.recipient) none, some replyProvide)]

/-- The reply to the deposit has seen the least increase of LP tokens and ends the skim. -/
structure DepositReplied (s : Storage) (deps : Deps) (pending : PendingSkim) (after : ℕ)
    (out : Storage × Response) : Prop where
  balance : deps.balance pending.lpToken pending.recipient = some after
  grown : pending.lpBefore ≤ after
  enough : pending.minLp ≤ after - pending.lpBefore
  stored : out.1 = { s with skimming := false, pendingSkim := none }

theorem reply_cases {id : ℕ} (h : reply s deps self id = .ok out) :
    s.skimming = true ∧ ∃ pending, s.pendingSkim = some pending ∧
      ((id = replySwap ∧ ∃ tax quote, SaleReplied s deps self pending tax quote out) ∨
        (id = replyProvide ∧ ∃ after, DepositReplied s deps pending after out)) := by
  unfold reply at h
  obtain ⟨_, hid, h⟩ := bind_eq_ok.1 h
  obtain ⟨_, hskim, h⟩ := bind_eq_ok.1 h
  obtain ⟨pending, hpending, h⟩ := bind_eq_ok.1 h
  refine ⟨ensure_eq_ok.1 hskim, pending, orThrow_eq_ok.1 hpending, ?_⟩
  by_cases hprovide : id = replyProvide
  · rw [if_pos hprovide] at h
    unfold replyAfterProvide at h
    obtain ⟨after, hafter, h⟩ := bind_eq_ok.1 h
    obtain ⟨minted, hminted, h⟩ := bind_eq_ok.1 h
    obtain ⟨_, henough, h⟩ := bind_eq_ok.1 h
    obtain ⟨hgrown, hminted⟩ := checkedSub_eq_some.1 (orThrow_eq_ok.1 hminted)
    have henough := ensure_eq_ok.1 henough
    rw [hminted] at henough
    cases h
    exact .inr ⟨hprovide, after, orThrow_eq_ok.1 hafter, hgrown, henough, rfl⟩
  · rw [if_neg hprovide] at h
    unfold replyAfterSwap at h
    obtain ⟨taxLeft, htax, h⟩ := bind_eq_ok.1 h
    obtain ⟨quoteBal, hquote, h⟩ := bind_eq_ok.1 h
    obtain ⟨_, _, h⟩ := bind_eq_ok.1 h
    cases h
    exact .inl ⟨(ensure_eq_ok.1 hid).resolve_right hprovide, taxLeft, quoteBal,
      orThrow_eq_ok.1 htax, orThrow_eq_ok.1 hquote, rfl, rfl⟩

/-- While a skim is pending every message is refused, whoever sends it. -/
theorem execute_locked (h : s.skimming = true) (deps : Deps) (self sender : Addr)
    (msg : ExecuteMsg) : execute s deps self sender msg = .error .reentrancy := by
  cases msg with
  | skimToLp => simp [execute, executeSkim, ensure, h]
  | updateConfig fields => simp [execute, executeUpdate, ensure, h]

/-! ## Every history of the contract -/

/-- What the bind of the configured pair captures. -/
inductive Anchors (deps : Deps) (cfg : Config) : Option LpPolicy → Prop
  | unbound (h : cfg.pair = none) : Anchors deps cfg none
  | bound {pair : Addr} {anchor : Option LpPolicy} (h : cfg.pair = some pair)
      (hcapture : capturePolicy deps pair cfg.token cfg.quoteToken = .ok anchor) :
      Anchors deps cfg anchor

theorem Anchors.unique {cfg : Config} {a b : Option LpPolicy} (ha : Anchors deps cfg a)
    (hb : Anchors deps cfg b) : a = b := by
  cases ha with
  | unbound h =>
      cases hb with
      | unbound _ => rfl
      | bound h' _ => cases h.symm.trans h'
  | bound h hcapture =>
      cases hb with
      | unbound h' => cases h.symm.trans h'
      | bound h' hcapture' =>
          cases h.symm.trans h'
          exact Except.ok.inj (hcapture.symm.trans hcapture')

/-- The storages of a history, each with what the manager's last bind captured. -/
inductive Reach : Storage → Option LpPolicy → Prop
  | start {deps : Deps} {msg : InstantiateMsg} {out : Storage × Response} {anchor : Option LpPolicy}
      (h : instantiate deps msg = .ok out) (ha : Anchors deps out.1.config anchor) :
      Reach out.1 anchor
  | bind {s : Storage} {last anchor : Option LpPolicy} {deps : Deps} {sender : Addr}
      {fields : UpdateFields} {out : Storage × Response} (hr : Reach s last)
      (h : executeUpdate s deps sender fields = .ok out) (hpair : fields.pair.isSome = true)
      (ha : Anchors deps out.1.config anchor) : Reach out.1 anchor
  | update {s : Storage} {last : Option LpPolicy} {deps : Deps} {sender : Addr}
      {fields : UpdateFields} {out : Storage × Response} (hr : Reach s last)
      (h : executeUpdate s deps sender fields = .ok out) (hpair : fields.pair.isSome = false) :
      Reach out.1 last
  | skim {s : Storage} {last : Option LpPolicy} {deps : Deps} {self : Addr}
      {out : Storage × Response} (hr : Reach s last) (h : executeSkim s deps self = .ok out) :
      Reach out.1 last
  | reply {s : Storage} {last : Option LpPolicy} {deps : Deps} {self : Addr} {id : ℕ}
      {out : Storage × Response} (hr : Reach s last) (h : reply s deps self id = .ok out) :
      Reach out.1 last
  | migrate {s : Storage} {last : Option LpPolicy} {deps : Deps} {sameVersion : Bool}
      {fromOlder : Except ContractError Unit} {factory : Option Addr} {out : Storage × Response}
      (hr : Reach s last) (h : migrate s deps sameVersion fromOlder factory = .ok out) :
      Reach out.1 last

/-- What every storage of a history keeps. -/
structure Kept (s : Storage) (last : Option LpPolicy) : Prop where
  anchored : s.lpPolicy = last
  spread : s.config.skimMaxSpread ≤ maxSkimMaxSpread
  pending : s.skimming = s.pendingSkim.isSome

theorem clampSkimMaxSpread_ok {spread d : Decimal} (h : clampSkimMaxSpread spread = .ok d) :
    d ≤ maxSkimMaxSpread := by
  unfold clampSkimMaxSpread at h
  obtain ⟨_, hle, h⟩ := bind_eq_ok.1 h
  rw [← Except.ok.inj h]
  exact ensure_eq_ok.1 hle

theorem instantiate_kept {msg : InstantiateMsg} {anchor : Option LpPolicy}
    (h : instantiate deps msg = .ok out) (ha : Anchors deps out.1.config anchor) :
    Kept out.1 anchor := by
  unfold instantiate at h
  obtain ⟨token, _, h⟩ := bind_eq_ok.1 h
  obtain ⟨manager, _, h⟩ := bind_eq_ok.1 h
  obtain ⟨lpRecipient, _, h⟩ := bind_eq_ok.1 h
  obtain ⟨factory, _, h⟩ := bind_eq_ok.1 h
  obtain ⟨spread, hspread, h⟩ := bind_eq_ok.1 h
  obtain ⟨quote, _, h⟩ := bind_eq_ok.1 h
  obtain ⟨⟨pair, quoteToken, register⟩, _, h⟩ := bind_eq_ok.1 h
  obtain ⟨policy, hpolicy, h⟩ := bind_eq_ok.1 h
  obtain ⟨router, _, h⟩ := bind_eq_ok.1 h
  cases h
  refine ⟨?_, clampSkimMaxSpread_ok hspread, rfl⟩
  cases pair with
  | none =>
      have hnone : policy = none := (Except.ok.inj hpolicy).symm
      exact hnone.trans ((Anchors.unbound rfl).unique ha)
  | some pair =>
      refine Anchors.unique ?_ ha
      exact .bound rfl hpolicy

/-- An accepted update came from the manager while no skim was pending. -/
structure Updated (s : Storage) (deps : Deps) (sender : Addr) (fields : UpdateFields)
    (out : Storage × Response) : Prop where
  idle : s.skimming = false
  manager : sender = s.config.manager
  bound : fields.pair.isSome = true → Anchors deps out.1.config out.1.lpPolicy
  same : fields.pair.isSome = false → out.1.lpPolicy = s.lpPolicy
  spread : out.1.config.skimMaxSpread ≤ maxSkimMaxSpread ∨
    out.1.config.skimMaxSpread = s.config.skimMaxSpread
  lock : out.1.skimming = s.skimming ∧ out.1.pendingSkim = s.pendingSkim

theorem mergeConfig_spread {cfg : Config} {fields : UpdateFields}
    {res : Config × List (Msg × Option ℕ)} (h : mergeConfig deps cfg fields = .ok res) :
    res.1.skimMaxSpread ≤ maxSkimMaxSpread ∨ res.1.skimMaxSpread = cfg.skimMaxSpread := by
  unfold mergeConfig at h
  obtain ⟨bound, _, h⟩ := bind_eq_ok.1 h
  obtain ⟨router, _, h⟩ := bind_eq_ok.1 h
  obtain ⟨quote, _, h⟩ := bind_eq_ok.1 h
  obtain ⟨recipient, _, h⟩ := bind_eq_ok.1 h
  obtain ⟨spread, hspread, h⟩ := bind_eq_ok.1 h
  cases h
  cases hfield : fields.skimMaxSpread with
  | none =>
      rw [hfield] at hspread
      cases hspread
      exact .inr rfl
  | some d =>
      rw [hfield, Option.mapM_some] at hspread
      obtain ⟨d', hd', hspread⟩ := bind_eq_ok.1 hspread
      cases hspread
      exact .inl (clampSkimMaxSpread_ok hd')

theorem executeUpdate_ok {fields : UpdateFields}
    (h : executeUpdate s deps sender fields = .ok out) : Updated s deps sender fields out := by
  unfold executeUpdate at h
  obtain ⟨_, hidle, h⟩ := bind_eq_ok.1 h
  obtain ⟨_, hmanager, h⟩ := bind_eq_ok.1 h
  obtain ⟨⟨cfg, register⟩, hmerge, h⟩ := bind_eq_ok.1 h
  obtain ⟨policy, hpolicy, h⟩ := bind_eq_ok.1 h
  cases h
  unfold refreshPolicy at hpolicy
  refine ⟨ensure_eq_ok.1 hidle, ensure_eq_ok.1 hmanager, fun hp => ?_, fun hp => ?_,
    mergeConfig_spread hmerge, rfl, rfl⟩
  · rw [if_pos hp] at hpolicy
    obtain ⟨pair, hpair, hcapture⟩ := bind_eq_ok.1 hpolicy
    exact .bound (orThrow_eq_ok.1 hpair) hcapture
  · rw [hp, if_neg Bool.false_ne_true] at hpolicy
    exact (Except.ok.inj hpolicy).symm

theorem Updated.kept {fields : UpdateFields} {last last' : Option LpPolicy} (hk : Kept s last)
    (h : Updated s deps sender fields out) (hpolicy : out.1.lpPolicy = last') :
    Kept out.1 last' where
  anchored := hpolicy
  spread := by
    rcases h.spread with hle | heq
    · exact hle
    · rw [heq]
      exact hk.spread
  pending := by
    rw [h.lock.1, h.lock.2]
    exact hk.pending

theorem executeSkim_kept {last : Option LpPolicy} (hk : Kept s last)
    (h : executeSkim s deps self = .ok out) : Kept out.1 last := by
  obtain ⟨-, ⟨hsame, -⟩ | ⟨t, ht⟩⟩ := executeSkim_cases h
  · rw [hsame]
    exact hk
  · rw [ht.stored]
    exact ⟨hk.anchored, hk.spread, rfl⟩

theorem reply_kept {id : ℕ} {last : Option LpPolicy} (hk : Kept s last)
    (h : reply s deps self id = .ok out) : Kept out.1 last := by
  obtain ⟨-, pending, -, ⟨-, tax, quote, hsale⟩ | ⟨-, after, hdeposit⟩⟩ := reply_cases h
  · rw [hsale.stored]
    exact hk
  · rw [hdeposit.stored]
    exact ⟨hk.anchored, hk.spread, rfl⟩

theorem migrate_kept {sameVersion : Bool} {fromOlder : Except ContractError Unit}
    {factory : Option Addr} {last : Option LpPolicy} (hk : Kept s last)
    (h : migrate s deps sameVersion fromOlder factory = .ok out) : Kept out.1 last := by
  unfold migrate at h
  obtain ⟨_, _, h⟩ := bind_eq_ok.1 h
  obtain ⟨_, _, h⟩ := bind_eq_ok.1 h
  obtain ⟨f, _, h⟩ := bind_eq_ok.1 h
  cases h
  exact ⟨hk.anchored, hk.spread, hk.pending⟩

/-- In every history the stored anchor is the one of the last bind. -/
theorem Reach.kept {last : Option LpPolicy} (h : Reach s last) : Kept s last := by
  induction h with
  | start h ha => exact instantiate_kept h ha
  | bind hr h hpair ha ih =>
      have hu := executeUpdate_ok h
      exact hu.kept ih ((hu.bound hpair).unique ha)
  | update hr h hpair ih =>
      have hu := executeUpdate_ok h
      exact hu.kept ih ((hu.same hpair).trans ih.anchored)
  | skim hr h ih => exact executeSkim_kept ih h
  | reply hr h ih => exact reply_kept ih h
  | migrate hr h ih => exact migrate_kept ih h

/-- What anybody may rely on in every history of the contract. -/
structure Anchored (s : Storage) (last : Option LpPolicy) : Prop where
  policy : s.lpPolicy = last
  spread : s.config.skimMaxSpread ≤ maxSkimMaxSpread
  lock : s.skimming = true ↔ ∃ pending, s.pendingSkim = some pending
  outsiders : ∀ deps own sender msg out, execute s deps own sender msg = .ok out →
    sender ≠ s.config.manager → out.1.config = s.config ∧ out.1.lpPolicy = last
  skips : ∀ deps own out, executeSkim s deps own = .ok out → out.1.skimming = false → out.1 = s

/-- The terms of a skim are the manager's last bind; calling the contract cannot refresh them. -/
theorem terms_follow_manager {last : Option LpPolicy} (h : Reach s last) : Anchored s last := by
  have hk := h.kept
  constructor
  · exact hk.anchored
  · exact hk.spread
  · rw [hk.pending, Option.isSome_iff_exists]
  · intro deps own sender msg out hout hsender
    cases msg with
    | skimToLp =>
        obtain ⟨-, ⟨hsame, -⟩ | ⟨t, ht⟩⟩ := executeSkim_cases hout
        · rw [hsame]
          exact ⟨rfl, hk.anchored⟩
        · rw [ht.stored]
          exact ⟨rfl, hk.anchored⟩
    | updateConfig fields => exact absurd (executeUpdate_ok hout).manager hsender
  · intro deps own out hout hidle
    obtain ⟨-, ⟨hsame, -⟩ | ⟨t, ht⟩⟩ := executeSkim_cases hout
    · exact hsame
    · rw [ht.stored] at hidle
      cases hidle

end Cl8yDex.AutoLp
