import Cl8yDex.OracleIntegral
import Cl8yDex.ShareValue

/-!
# Price charts

A chart is a pool with its clock and the reserves it held at the end of every second so far. The
blocks of a run do not go back in time; anyone may send the pair any message, as long as the size
of the observation ring stays what it was. `Observe` is then the integral of the chart.
-/

namespace Cl8yDex

open Outcome Oracle RingBuffer

structure Chart where
  pool : Pool
  clock : ℕ
  path : ℕ → ℕ × ℕ
  firstObservation : Option ℕ

namespace Chart

def timeline (s : Chart) : Timeline where
  clock := s.clock
  oracle := s.pool.storage.oracle
  reserves := s.pool.storage.reserves
  path := s.path
  firstObservation := s.firstObservation

/-- A new pair with an empty ring of the given size. -/
def start (p : PairStorage) (cardinality : ℕ) : Chart where
  pool := ⟨{ p with oracle := ⟨⟨cardinality, 0, 0⟩, fun _ => none⟩ }, 0⟩
  clock := 0
  path _ := (0, 0)
  firstObservation := none

/-- The chart after an accepted message. -/
def after (s : Chart) (out : PairStorage × Response) : Chart where
  pool := s.pool.after out
  clock := s.clock
  path := (s.timeline.after out.1.oracle out.1.reserves).path
  firstObservation := (s.timeline.after out.1.oracle out.1.reserves).firstObservation

inductive Advances : Chart → Chart → Prop
  | tick {s : Chart} (clock : ℕ) (ht : s.clock ≤ clock) : Advances s { s with clock := clock }
  | call {s : Chart} {q : Querier} {env : Env} {sender : Addr} {msg : ExecuteMsg}
      {out : PairStorage × Response} (h : execute s.pool.storage q env sender msg = .ok out)
      (hburn : s.pool.Covered out) (htime : env.blockTime = s.clock)
      (hcard : out.1.oracle.state.cardinality = s.pool.storage.oracle.state.cardinality)
      (hspot : SpotRepresentable out.1.reserves) : Advances s (s.after out)

abbrev Leads : Chart → Chart → Prop := Relation.ReflTransGen Advances

end Chart

/-- The reserves now are the ones that the path continues with. -/
def Timeline.Live (s : Timeline) : Prop := ∀ u, s.clock ≤ u → s.path u = s.reserves

theorem Timeline.Leads.live {s s' : Timeline} (h : s.Leads s') (hlive : s.Live) : s'.Live := by
  induction h with
  | refl => exact hlive
  | tail _ hs ih =>
      cases hs with
      | tick clock ht => exact fun u hu => ih u (ht.trans hu)
      | record oracle r => exact fun u hu => if_neg (not_lt.2 hu)

/-- Nothing changes when neither the ring nor the reserves do. -/
theorem Timeline.after_self {s : Timeline} {cardinality : ℕ} {l : List Observation}
    (h : s.Invariant cardinality l) (hlive : s.Live) : s.after s.oracle s.reserves = s := by
  have hpath : (fun u => if u < s.clock then s.path u else s.reserves) = s.path := by
    funext u
    split_ifs with hu
    · rfl
    · exact (hlive u (not_lt.1 hu)).symm
  have hfirst : (if s.firstObservation = none ∧ s.oracle.state.cardinalityInitialized ≠ 0
      then some s.clock else s.firstObservation) = s.firstObservation := by
    refine if_neg fun ⟨hnone, hinit⟩ => ?_
    rcases h.recorded with ⟨rfl, -⟩ | ⟨t₀, last, hrec⟩
    · exact hinit h.retains.length.symm
    · rw [hrec.first] at hnone
      cases hnone
  unfold Timeline.after
  rw [hpath, hfirst]

/-- Every message but a growth records the reserves before it changes them. -/
theorem Served.records {p : PairStorage} {A : AbsBook} {q : Querier} {env : Env} {sender : Addr}
    {msg : ExecuteMsg} {out : PairStorage × Response} (h : Served p A q env sender msg out)
    (hcard : out.1.oracle.state.cardinality = p.oracle.state.cardinality) :
    p.oracle.update env.blockTime p.reserves.1 p.reserves.2 = .ok out.1.oracle ∨
      out.1.oracle = p.oracle ∧ out.1.reserves = p.reserves := by
  cases h with
  | swapped bps parts h => exact .inl h.oracle
  | provided d h => exact .inl h.oracle
  | withdrawn h => exact .inl h.oracle
  | booked h stored quiet => exact .inr ⟨by rw [stored], by rw [stored]⟩
  | grown h =>
      obtain ⟨-, hlt, rfl⟩ := increase_eq_ok.1 h
      exact absurd hcard hlt.ne'
  | swept h hexcess => exact .inr ⟨rfl, rfl⟩
  | governed hfactory incoming stored messages => exact .inr ⟨by rw [stored], by rw [stored]⟩

namespace Chart

variable {s s' : Chart} {p : PairStorage} {A : AbsBook} {cardinality : ℕ} {q : Querier}
  {env : Env} {sender : Addr} {msg : ExecuteMsg} {out : PairStorage × Response}

/-- What a chart keeps: a healthy pair, a pool that never empties, and a ring that follows the
timeline. -/
structure Charted (cardinality : ℕ) (s : Chart) : Prop where
  healthy : ∃ A, Healthy s.pool.storage A
  pool : s.pool.Empty ∨ s.pool.Funded
  invariant : ∃ l, s.timeline.Invariant cardinality l
  live : s.timeline.Live

theorem timeline_start (hp : Starts p) :
    (start p cardinality).timeline = Timeline.start cardinality := by
  obtain ⟨-, -, hreserves, -⟩ := hp.fresh
  simp only [timeline, start, Timeline.start, hreserves]

theorem charted_start (hp : Starts p) (hpos : 0 < cardinality)
    (hcard : cardinality ≤ maxObservationCardinality) :
    (start p cardinality).Charted cardinality where
  healthy := by
    obtain ⟨hrep, hbal, hbound, -⟩ := hp.healthy
    exact ⟨_, hrep, hbal, hbound, hpos, hcard, fun i x hx => by cases hx⟩
  pool := by
    obtain ⟨-, -, hreserves, htotal⟩ := hp.fresh
    exact .inl ⟨congrArg Prod.fst hreserves, congrArg Prod.snd hreserves, htotal, rfl⟩
  invariant := by
    rw [timeline_start hp]
    exact ⟨[], Timeline.invariant_start hpos hcard⟩
  live := by
    rw [timeline_start hp]
    exact fun _ _ => rfl

theorem Charted.pool_after (h : s.Charted cardinality)
    (hserved : Served s.pool.storage A q env sender msg out) (hburn : s.pool.Covered out) :
    ((s.pool.after out).Empty ∨ (s.pool.after out).Funded) ∧
      (s.pool.storage.reserves.1 ≠ 0 ∧ s.pool.storage.reserves.2 ≠ 0 →
        out.1.reserves.1 ≠ 0 ∧ out.1.reserves.2 ≠ 0) := by
  rcases h.pool with he | hf
  · exact ⟨he.after hserved.pool, fun hne => absurd he.reserveA hne.1⟩
  · have hafter := hf.after hserved.pool hburn
    exact ⟨.inr hafter, fun _ => ⟨Nat.one_le_iff_ne_zero.1 hafter.reserveA,
      Nat.one_le_iff_ne_zero.1 hafter.reserveB⟩⟩

/-- A step of the chart is a step of its timeline, or leaves the timeline alone. -/
theorem Advances.timeline (hs : s.Advances s') (h : s.Charted cardinality) :
    s.timeline.Leads s'.timeline := by
  cases hs with
  | tick clock ht => exact .single (.tick clock ht)
  | @call _ _ _ _ out hcall hburn htime hcard hspot =>
      obtain ⟨A, hA⟩ := h.healthy
      have hserved := (execute_spec hA.rep hA.balanced _).success hcall
      rcases hserved.records hcard with hu | ⟨horacle, hreserves⟩
      · rw [htime] at hu
        exact .single (.record _ _ hu hspot (h.pool_after hserved hburn).2)
      · obtain ⟨l, hinv⟩ := h.invariant
        have hafter : (s.after out).timeline = s.timeline := by
          change s.timeline.after out.1.oracle out.1.reserves = s.timeline
          rw [horacle, hreserves]
          exact Timeline.after_self hinv h.live
        rw [hafter]

theorem Advances.charted (hs : s.Advances s') (h : s.Charted cardinality) :
    s'.Charted cardinality := by
  have hlead := hs.timeline h
  have hinv := hlead.invariant h.invariant
  have hlive := hlead.live h.live
  cases hs with
  | tick clock ht => exact ⟨h.healthy, h.pool, hinv, hlive⟩
  | call hcall hburn htime hcard hspot =>
      obtain ⟨A, hA⟩ := h.healthy
      have hserved := (execute_spec hA.rep hA.balanced _).success hcall
      obtain ⟨acts, A', -, hA'⟩ := hserved.healthy hA
      exact ⟨⟨A', hA'⟩, (h.pool_after hserved hburn).1, hinv, hlive⟩

theorem Leads.charted (hs : s.Leads s') (h : s.Charted cardinality) : s'.Charted cardinality ∧
    s.timeline.Leads s'.timeline := by
  induction hs with
  | refl => exact ⟨h, .refl⟩
  | tail _ hstep ih => exact ⟨hstep.charted ih.1, ih.2.trans (hstep.timeline ih.1)⟩

/-- The `Observe` query of the pair at a block time. -/
def observe (s : Chart) (blockTime : ℕ) (secondsAgo : List ℕ) :
    Except ContractError (List (ℕ × ℕ)) :=
  s.pool.storage.oracle.queryObserve blockTime s.pool.storage.reserves.1
    s.pool.storage.reserves.2 secondsAgo

/-- `Observe` answers the integral for every target in the window, and what it answered for the
second of an earlier chart it answers still. -/
structure Exact (first s : Chart) : Prop where
  answers : s.timeline.Answers
  stable : ∀ r, first.Leads r → r.Leads s → r.firstObservation ≠ none → ∀ blockTime,
    s.clock ≤ blockTime → blockTime ≤ u64Max → s.timeline.Covers r.clock →
      r.observe r.clock [0] = s.observe blockTime [blockTime - r.clock]

/-- `Observe` is exact exactly while no position of the ring passes sixteen bits. -/
theorem observe_exact_iff (hp : Starts p) (hpos : 0 < cardinality)
    (hcard : cardinality ≤ maxObservationCardinality) (h : (start p cardinality).Leads s)
    (hmax : s.clock ≤ u64Max) :
    Exact (start p cardinality) s ↔ s.pool.storage.oracle.Addressable := by
  have hstart := charted_start hp hpos hcard
  obtain ⟨l, hinv⟩ := (h.charted hstart).1.invariant
  refine ⟨fun he => (hinv.answers_iff hmax).1 he.answers, fun hfit => ?_⟩
  have hanswers := (hinv.answers_iff hmax).2 hfit
  refine ⟨hanswers, fun r hr hrs hfirst blockTime hlater hbt hcov => ?_⟩
  obtain ⟨hcharted, -⟩ := hr.charted hstart
  obtain ⟨l', hr'⟩ := hcharted.invariant
  obtain ⟨t₀, ht₀⟩ := Option.ne_none_iff_exists'.1 hfirst
  exact hanswers.stable hr' (hrs.charted hcharted).2 ht₀ hcov hlater hbt

end Chart

/-- User 7 deposits two thousand of either token. -/
def evenDeposit : ExecuteMsg :=
  .provideLiquidity (⟨.token 1, 2000⟩, ⟨.token 2, 2000⟩) none none none

/-- The new pair after `k` of these deposits, with the ring that they left. -/
def evenPair (k : ℕ) (o : Oracle) : PairStorage :=
  { samplePair with
    oracle := o
    reserves := (k * 2000, k * 2000)
    totalLpSupply := k * 2000 }

theorem proportionalLp_even {k : ℕ} (hpos : 0 < k) (hk : k ≤ 100000) :
    proportionalLp 2000 2000 (k * 2000) (k * 2000) (k * 2000) = .ok 2000 := by
  have hfit : 2000 * (k * 2000) ≤ u256Max :=
    le_trans (Nat.mul_le_mul_left _ (Nat.mul_le_mul_right _ hk)) (by decide)
  have hne : k * 2000 ≠ 0 := by omega
  have hshare : ∀ ctx, floorShare 2000 (k * 2000) (k * 2000) ctx =
      .ok (2000 * (k * 2000), 2000) := by
    intro ctx
    have hdiv : divOrZero (2000 * (k * 2000)) (k * 2000) = .ok 2000 :=
      divOrZero_eq_ok.2 ⟨hne, (Nat.mul_div_cancel _ (Nat.pos_of_ne_zero hne)).symm⟩
    have hnarrow : narrowU128 2000 ctx = .ok 2000 := rfl
    simp only [floorShare, mul256_of_le hfit, ok_bind, hdiv, hnarrow]
    rfl
  have hcheck : ∀ reason, checkFloor (2000 * (k * 2000)) 2000 (k * 2000) reason =
      .ok () := by
    intro reason
    simp only [checkFloor, mul256_of_le hfit, ok_bind, Nat.sub_self, ensure_eq_ok]
    exact Nat.pos_of_ne_zero hne
  simp only [proportionalLp, hshare, hcheck, ok_bind, Nat.min_self]
  rfl

theorem firstDepositLp_even : firstDepositLp 2000 2000 = .ok 2000 := by
  have hok : (firstDepositLp 2000 2000).isOk = true := by decide +kernel
  cases h : firstDepositLp 2000 2000 with
  | error e =>
      rw [h] at hok
      cases hok
  | ok lp =>
      obtain ⟨hle, hlt⟩ := firstDepositLp_spec.success h
      have h1 : lp ≤ 2000 := by
        by_contra hgt
        exact absurd hle (not_le.2 (Nat.mul_self_lt_mul_self (not_le.1 hgt)))
      have h2 : 2000 ≤ lp := by
        by_contra hgt
        exact absurd hlt (not_lt.2 (Nat.mul_self_le_mul_self (not_le.1 hgt)))
      rw [le_antisymm h1 h2]

theorem lpTokensTotal_even {k : ℕ} (o : Oracle) (hk : k ≤ 100000) :
    lpTokensTotal (evenPair k o) .permissive 2000 2000 = .ok 2000 := by
  rcases Nat.eq_zero_or_pos k with rfl | hpos
  · have hdecimals : assertPairAssetsDecimalsAllowInitialMint .permissive (evenPair 0 o).pairInfo =
        .ok () := rfl
    have hfirst : isFirstDeposit (evenPair 0 o).reserves = true := rfl
    simp only [lpTokensTotal, hfirst, if_true, hdecimals, ok_bind, firstDepositLp_even]
  · have hfirst : isFirstDeposit (evenPair k o).reserves = false := by
      have hne : k * 2000 ≠ 0 := by omega
      simp only [isFirstDeposit, evenPair, hne, false_and, decide_false]
    simp only [lpTokensTotal, hfirst, Bool.false_eq_true, if_false]
    exact proportionalLp_even hpos hk

theorem evenDeposit_ok {o o' : Oracle} {t k : ℕ} (n : ℕ) (hk : k ≤ 100000)
    (hu : o.update t (k * 2000) (k * 2000) = .ok o') : ∃ response,
      execute (evenPair k o) .permissive (sampleEnv t) 7 evenDeposit =
        .ok (evenPair (k + 1) o', response) ∧
      Pool.Covered ⟨evenPair k o, n⟩ (evenPair (k + 1) o', response) := by
  have hamounts : matchAssetAmounts (evenPair k o).pairInfo
      (⟨.token 1, 2000⟩, ⟨.token 2, 2000⟩) = .ok (2000, 2000) := rfl
  have horacle : (evenPair k o).updateOracle (sampleEnv t) = .ok (evenPair k o') := by
    change (do
      let oracle ← o.update t (k * 2000) (k * 2000)
      return { evenPair k o with oracle := oracle }) = _
    rw [hu]
    rfl
  obtain ⟨toUser, toBurn, hsplit⟩ : ∃ toUser toBurn,
      splitMint (isFirstDeposit (k * 2000, k * 2000)) 2000 = .ok (toUser, toBurn) := by
    cases isFirstDeposit (k * 2000, k * 2000) with
    | false => exact ⟨_, _, rfl⟩
    | true => exact ⟨_, _, rfl⟩
  have hadd : addOrOverflow (k * 2000) 2000 = .ok ((k + 1) * 2000) := by
    rw [addOrOverflow_eq_ok, Nat.add_mul, Nat.one_mul]
    exact ⟨le_trans (Nat.add_le_add_right (Nat.mul_le_mul_right _ hk) _) (by decide), rfl⟩
  set messages : List CosmosMsg := [.transferFrom 1 7 9 2000, .transferFrom 2 7 9 2000,
    .mint 3 7 toUser] ++ burnMessages 9 3 toBurn with hmessages
  have hprovide : executeProvideLiquidity (evenPair k o) .permissive (sampleEnv t) 7
      (⟨.token 1, 2000⟩, ⟨.token 2, 2000⟩) none none = .ok (evenPair (k + 1) o',
        ⟨messages, [], .provideLiquidity 7 7 2000 2000 toUser toBurn⟩) := by
    simp only [executeProvideLiquidity, hamounts, ok_bind, horacle, lpTokensTotal_even o' hk]
    simp only [evenPair, hadd, ok_bind, hsplit]
    rfl
  refine ⟨_, hprovide, ?_⟩
  obtain ⟨h1, h2⟩ := lpAmounts_of_burnMessages 9 3 toBurn
  have hburned : totalOf (CosmosMsg.burned 3) messages = toBurn := by
    rw [hmessages, totalOf_append, h2]
    simp [CosmosMsg.burned]
  have hminted : totalOf (CosmosMsg.minted 3) messages = toUser + toBurn := by
    rw [hmessages, totalOf_append, h1]
    simp [CosmosMsg.minted]
  change totalOf (CosmosMsg.burned 3) messages ≤ n + totalOf (CosmosMsg.minted 3) messages
  omega

theorem spotPrices_even {m : ℕ} (hm : m ≠ 0) : spotPrices m m ≠ none := by
  have hone : m * Decimal.fractional / m = Decimal.fractional :=
    Nat.mul_div_cancel_left _ (Nat.pos_of_ne_zero hm)
  have hratio : Decimal.checkedFromRatio m m = some ⟨Decimal.fractional⟩ :=
    Decimal.checkedFromRatio_eq_some.2 (by simp [hm, hone]; decide)
  simp [spotPrices, hratio]

namespace Chart

/-- One deposit a second fills the ring and then goes round it. -/
theorem evenRun {c : ℕ} (hpos : 0 < c) (hcard : c ≤ maxObservationCardinality) (k : ℕ)
    (hk : k ≤ 100000) : ∃ s o l, (start samplePair c).Leads s ∧
      s.pool.storage = evenPair (k + 1) o ∧ s.clock = k ∧ o.Retains l ∧
      o.state.cardinality = c ∧ l.length = min k c ∧
      (k ≠ 0 → o.state.index = (k - 1) % c ∧ ∀ x ∈ l.getLast?, x.timestamp = k) := by
  induction k with
  | zero =>
      obtain ⟨response, hdeposit, hcovered⟩ :=
        evenDeposit_ok (o := ⟨⟨c, 0, 0⟩, fun _ => none⟩) (t := 0) 0 hk rfl
      refine ⟨_, _, _, .single (.call hdeposit hcovered rfl rfl ?_), rfl, rfl,
        Retains.initial hpos hcard, rfl, (Nat.min_eq_left (Nat.zero_le _)).symm,
        fun h => absurd rfl h⟩
      exact fun hne _ => spotPrices_even hne
  | succ k ih =>
      obtain ⟨⟨⟨_, n⟩, clock, path, first⟩, o, l, hlead, rfl, hclock, hr, hc, hlen, hlast⟩ :=
        ih (by omega)
      have hne : (k + 1) * 2000 ≠ 0 := by omega
      have hsmall : 100001 ≤ u64Max := by decide
      have hbefore : ∀ x ∈ l.getLast?, x.timestamp < k + 1 := by
        intro x hx
        rcases Nat.eq_zero_or_pos k with rfl | hk0
        · rw [Nat.zero_min, List.length_eq_zero_iff] at hlen
          subst hlen
          cases hx
        · rw [(hlast hk0.ne').2 x hx]
          exact Nat.lt_succ_self k
      obtain ⟨o', obs, hu, hw, hobs⟩ := hr.due (by omega) hbefore hne hne (spotPrices_even hne)
      obtain ⟨response, hdeposit, hcovered⟩ := evenDeposit_ok n hk hu
      have hslot : (oldestSlot o.state + l.length) % c = k % c := by
        by_cases hroom : k < c
        · rw [oldestSlot_of_room hr (by omega), hlen, Nat.min_eq_left hroom.le, Nat.zero_add]
        · rw [oldestSlot_of_full hr (by omega), (hlast (by omega)).1, hc, hlen,
            Nat.min_eq_right (not_lt.1 hroom), Nat.add_mod_right, Nat.mod_mod, Nat.mod_add_mod,
            Nat.sub_add_cancel (by omega)]
      have hstep := (hlead.tail (.tick (k + 1) (hclock.trans_le (Nat.le_succ k)))).tail
        (.call hdeposit hcovered rfl hw.cardinality fun hne' _ => spotPrices_even hne')
      refine ⟨_, o', _, hstep, rfl, rfl, hw.retains, hw.cardinality.trans hc, ?_, fun _ => ⟨?_, ?_⟩⟩
      · rw [length_push hr.pos hr.length_le, hlen, hc]
        split_ifs <;> omega
      · rw [hw.index, hc, hslot, Nat.add_sub_cancel]
      · rw [getLast?_push]
        rintro x ⟨⟩
        exact hobs

/-- In a ring of forty thousand slots the reader's positions pass sixteen bits. -/
theorem observe_not_exact : ¬∀ p cardinality s, Starts p → 0 < cardinality →
    cardinality ≤ maxObservationCardinality → (start p cardinality).Leads s → s.clock ≤ u64Max →
      Exact (start p cardinality) s := by
  intro hall
  have hmax : 40000 ≤ maxObservationCardinality := by decide
  obtain ⟨s, o, l, hlead, hpair, hclock, hr, hc, hlen, hlast⟩ :=
    evenRun (by decide : 0 < 40000) hmax 65537 (by decide)
  have hbound : s.clock ≤ u64Max := by
    rw [hclock]
    decide
  have hexact := hall _ _ _ samplePair_starts (by decide) hmax hlead hbound
  have hstart := charted_start samplePair_starts (show 0 < 40000 by decide) hmax
  obtain ⟨l', hinv⟩ := (hlead.charted hstart).1.invariant
  have hfit : s.pool.storage.oracle.Addressable := (hinv.answers_iff hbound).1 hexact.answers
  rw [hpair] at hfit
  have hfull : l.length = o.state.cardinality := by
    rw [hlen, hc]
    rfl
  change oldestSlot o.state + (o.state.cardinalityInitialized - 1) ≤ u16Max at hfit
  rw [oldestSlot_of_full hr hfull, (hlast (by decide)).1, hc, ← hr.length, hlen] at hfit
  exact absurd hfit (by decide)

theorem observe_exact_iff_sample : ∃ s, s.clock = 500 ∧ s.pool.storage.oracle.state.index = 139 ∧
    Exact (start samplePair 360) s := by
  obtain ⟨s, o, l, hlead, hpair, hclock, hr, hc, hlen, hlast⟩ :=
    evenRun (by decide : 0 < 360) (by decide) 500 (by decide)
  have hfull : l.length = o.state.cardinality := by
    rw [hlen, hc]
    rfl
  refine ⟨s, hclock, ?_, (observe_exact_iff samplePair_starts (by decide) (by decide) hlead
    (by rw [hclock]; decide)).2 ?_⟩
  · rw [hpair]
    exact (hlast (by decide)).1
  · rw [hpair]
    change oldestSlot o.state + (o.state.cardinalityInitialized - 1) ≤ u16Max
    rw [oldestSlot_of_full hr hfull, (hlast (by decide)).1, hc, ← hr.length, hlen]
    decide

end Chart

end Cl8yDex
