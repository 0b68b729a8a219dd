import Cl8yDex.DiscountLookups
import Cl8yDex.PairRuns

/-!
# Fees over runs of a pair

A run is told with the answers that the pair got from its registries, each with the fee in force
when it came. The cache holds the effective fee of the last usable answer, so a swap may charge a
fee that is no longer in force or rest on a registry that is no longer set.
-/

namespace Cl8yDex.FeeRuns

open Outcome

structure Call where
  q : Querier
  env : Env
  sender : Addr
  msg : ExecuteMsg

/-- A registry's answer to the pair. -/
structure Answer where
  registry : Addr
  trader : Addr
  sender : Addr
  time : ℕ
  feeBps : ℕ
  discount : DiscountResponse
  deriving DecidableEq

namespace Answer

def IsFor (a : Answer) (use : FeeUse) : Prop := a.trader = use.trader ∧ a.sender = use.sender

instance (a : Answer) (use : FeeUse) : Decidable (a.IsFor use) :=
  inferInstanceAs (Decidable (_ ∧ _))

/-- The answer still serves lookups. -/
def Usable (a : Answer) (now : ℕ) : Prop :=
  now < a.time + discountCacheTtlSeconds ∧ a.discount.needsDeregister = false

instance (a : Answer) (now : ℕ) : Decidable (a.Usable now) :=
  inferInstanceAs (Decidable (_ ∧ _))

/-- How the answer is cached. -/
def entry (a : Answer) : DiscountCacheEntry :=
  ⟨effectiveFeeBps a.feeBps a.discount.discountBps, a.discount, a.time⟩

end Answer

/-- The last answer for the wallets of a fee; answers are kept newest first. -/
def lastAnswer (answers : List Answer) (use : FeeUse) : Option Answer :=
  answers.find? fun a => a.IsFor use

theorem lastAnswer_cons (a : Answer) (answers : List Answer) (use : FeeUse) :
    lastAnswer (a :: answers) use = if a.IsFor use then some a else lastAnswer answers use := by
  unfold lastAnswer
  rw [List.find?_cons]
  by_cases h : a.IsFor use <;> simp [h]

/-- A call of a run, with the storage that it finds and the answers before it. -/
structure Moment where
  pair : PairStorage
  answers : List Answer
  call : Call

namespace Moment

variable (m : Moment)

def result : Except ContractError (PairStorage × Response) :=
  execute m.pair m.call.q m.call.env m.call.sender m.call.msg

def now : ℕ := m.call.env.blockTime

def feeBps : ℕ := m.pair.feeConfig.feeBps

def query (use : FeeUse) : Option (Addr × Option DiscountResponse) :=
  registryQuery m.call.q m.pair.discountCache m.now m.pair.discountRegistry use.trader use.sender

/-- What the registry answered in this call. -/
def newAnswer : Option Answer :=
  m.call.msg.feeUse.bind fun use =>
    match m.query use with
    | some (registry, some discount) =>
        some ⟨registry, use.trader, use.sender, m.now, m.feeBps, discount⟩
    | _ => none

/-- A failed call leaves storage and answers as they were. -/
def next : PairStorage × List Answer :=
  match m.result with
  | .ok out => (out.1, m.newAnswer.toList ++ m.answers)
  | .error _ => (m.pair, m.answers)

/-- The answer that the lookup of a fee takes at this moment. -/
def lookupAnswer (use : FeeUse) : Except ContractError (Option DiscountResponse) :=
  (lookupEffectiveFeeBpsCached m.call.q m.pair.discountCache m.now m.feeBps
    m.pair.discountRegistry use.trader use.sender).map (·.2.2)

/-- The fee that a quote takes at this moment. -/
def quotedFee (use : FeeUse) : ℕ :=
  lookupEffectiveFeeBpsReadonly m.call.q m.pair.discountCache m.now m.feeBps
    m.pair.discountRegistry use.trader use.sender

/-- The registry in force gave this answer for these wallets, now or recently; without an answer,
there is no registry or its query failed. -/
def RestsOn (use : FeeUse) : Option DiscountResponse → Prop
  | none => m.pair.discountRegistry = none ∨ ∃ registry, m.query use = some (registry, none)
  | some discount => ∃ registry, m.pair.discountRegistry = some registry ∧
      (m.query use = some (registry, some discount) ∨
        ∃ a ∈ m.answers, a.registry = registry ∧ a.IsFor use ∧ a.discount = discount ∧
          a.time ≤ m.now ∧ a.Usable m.now)

/-- The fee of an accepted call follows the fee in force. -/
def Follows : Prop :=
  ∀ use out, m.call.msg.feeUse = some use → m.result = .ok out →
    ∃ discount, m.lookupAnswer use = .ok discount ∧ m.RestsOn use discount ∧
      use.Reports m.feeBps (effectiveFeeBps m.feeBps (swapDiscountBps discount)) discount
        out.2.attributes ∧
      ∀ trader sender, use = .swap trader sender →
        m.quotedFee use = effectiveFeeBps m.feeBps (swapDiscountBps discount)

/-- While an accepted call can be served from the last answer for its wallets, the registry in
force is the one that gave it; a swap also finds a fee that the answer discounts alike. -/
def Undisturbed : Prop :=
  ∀ use out, m.call.msg.feeUse = some use → m.result = .ok out →
    ∀ a registry, lastAnswer m.answers use = some a → a.Usable m.now →
      m.pair.discountRegistry = some registry → a.registry = registry ∧
        ∀ trader sender, use = .swap trader sender →
          effectiveFeeBps a.feeBps a.discount.discountBps =
            effectiveFeeBps m.feeBps a.discount.discountBps

end Moment

def moments : PairStorage × List Answer → List Call → List Moment
  | _, [] => []
  | s, call :: calls =>
      let m : Moment := ⟨s.1, s.2, call⟩
      m :: moments m.next calls

/-- What the cache and the answers keep; `now` is the time of the last call. -/
structure Recorded (s : PairStorage × List Answer) (now : ℕ) : Prop where
  cached : ∀ use : FeeUse, s.1.discountCache use.trader use.sender =
    ((lastAnswer s.2 use).filter fun a => ¬a.discount.needsDeregister).map Answer.entry
  past : ∀ a ∈ s.2, a.time ≤ now
  /-- An answer is asked again only when the one before it serves no more. -/
  spaced : s.2.Pairwise fun newer older => ∀ use : FeeUse, newer.IsFor use →
    older.IsFor use → ¬older.Usable newer.time

theorem Recorded.start {p : PairStorage} (h : ∀ t s, p.discountCache t s = none) (now : ℕ) :
    Recorded (p, []) now :=
  ⟨fun _ => h _ _, fun _ ha => (List.not_mem_nil ha).elim, .nil⟩

/-- The one found first stands before every other that would do. -/
theorem eq_or_of_find? {α : Type} {R : α → α → Prop} {P : α → Bool} {l : List α} {x y : α}
    (hl : l.Pairwise R) (hx : l.find? P = some x) (hy : y ∈ l) (hP : P y) : y = x ∨ R x y := by
  induction l with
  | nil => cases hy
  | cons z l ih =>
      obtain ⟨hz, hl⟩ := List.pairwise_cons.1 hl
      rw [List.find?_cons] at hx
      cases hPz : P z with
      | true =>
          rw [hPz] at hx
          cases hx
          cases hy with
          | head => exact .inl rfl
          | tail _ hy => exact .inr (hz y hy)
      | false =>
          rw [hPz] at hx
          cases hy with
          | head => rw [hPz] at hP; cases hP
          | tail _ hy => exact ih hl hx hy

section Keeping

variable {m : Moment} {use : FeeUse}

/-- A lookup serves the last answer while it is usable. -/
theorem usableEntry_eq {now : ℕ} (h : Recorded (m.pair, m.answers) now) (hnow : now ≤ m.now) :
    usableEntry m.pair.discountCache m.now use.trader use.sender =
      ((lastAnswer m.answers use).filter fun a => a.Usable m.now).map Answer.entry := by
  unfold usableEntry
  rw [h.cached use]
  cases hlast : lastAnswer m.answers use with
  | none => rfl
  | some a =>
      have hpast : a.time ≤ now := h.past a (List.mem_of_find?_eq_some hlast)
      have hfresh : m.now - a.time < discountCacheTtlSeconds ↔
          m.now < a.time + discountCacheTtlSeconds := by omega
      cases hderegister : a.discount.needsDeregister with
      | true => simp [Option.filter_some, Answer.Usable, hderegister]
      | false =>
          simp only [Option.filter_some, Answer.Usable, hderegister, and_true,
            Bool.false_eq_true, not_false_eq_true, decide_true, if_true, Option.map_some,
            Answer.entry, DiscountCacheEntry.isFresh, hfresh, decide_eq_true_eq]
          split_ifs <;> rfl

/-- A call that asks leaves no usable answer behind it. -/
theorem not_usable_of_query {now : ℕ} (h : Recorded (m.pair, m.answers) now) (hnow : now ≤ m.now)
    {answer : Addr × Option DiscountResponse} (hquery : m.query use = some answer) {a : Answer}
    (ha : a ∈ m.answers) (hfor : a.IsFor use) : ¬a.Usable m.now := by
  have hnone : usableEntry m.pair.discountCache m.now use.trader use.sender = none := by
    obtain ⟨registry, -, hasked⟩ := Option.bind_eq_some_iff.1 hquery
    by_contra hsome
    rw [if_pos (Option.isSome_iff_ne_none.2 hsome)] at hasked
    cases hasked
  rw [usableEntry_eq h hnow, Option.map_eq_none_iff] at hnone
  cases hlast : lastAnswer m.answers use with
  | none => exact absurd hfor (by simpa using List.find?_eq_none.1 hlast a ha)
  | some b =>
      have hb : ¬b.Usable m.now := by
        rw [hlast, Option.filter_some] at hnone
        intro hb
        rw [if_pos (by simpa using hb)] at hnone
        cases hnone
      have hbfor : b.IsFor use := by simpa using List.find?_some hlast
      obtain rfl | hspaced := eq_or_of_find? h.spaced hlast ha (by simpa using hfor)
      · exact hb
      · have hpast : b.time ≤ now := h.past b (List.mem_of_find?_eq_some hlast)
        intro hused
        exact hspaced use hbfor hfor ⟨by have := hused.1; omega, hused.2⟩

/-- What an accepted call leaves in the cache is what its answer says. -/
theorem Recorded.answered {now : ℕ} (h : Recorded (m.pair, m.answers) now) (hnow : now ≤ m.now)
    {out : PairStorage × Response} {a : Answer} (hanswer : m.newAnswer = some a)
    (hout : m.result = .ok out) : Recorded (out.1, a :: m.answers) m.now := by
  obtain ⟨use, huse, hanswer⟩ := Option.bind_eq_some_iff.1 hanswer
  have hcharged := execute_fee huse hout
  split at hanswer
  case h_2 => cases hanswer
  case h_1 registry discount hquery =>
  cases hanswer
  constructor
  · intro use'
    have hcache := hcharged.cache
    unfold cacheAfter at hcache
    rw [show registryQuery m.call.q m.pair.discountCache m.call.env.blockTime
      m.pair.discountRegistry use.trader use.sender = some (registry, some discount) from hquery]
      at hcache
    dsimp only at hcache ⊢
    rw [hcache]
    rw [lastAnswer_cons]
    unfold DiscountCache.save
    by_cases hsame : use'.trader = use.trader ∧ use'.sender = use.sender
    · rw [if_pos hsame, if_pos (c := Answer.IsFor _ use') ⟨hsame.1.symm, hsame.2.symm⟩]
      cases hderegister : discount.needsDeregister with
      | true => simp [Option.filter_some, hderegister]
      | false => simp [Option.filter_some, hderegister, Answer.entry, Moment.feeBps, Moment.now]
    · rw [if_neg hsame, if_neg (c := Answer.IsFor _ use') fun hfor =>
        hsame ⟨hfor.1.symm, hfor.2.symm⟩]
      exact h.cached use'
  · intro b hb
    cases hb with
    | head => exact le_rfl
    | tail _ hb => exact (h.past b hb).trans hnow
  · refine List.pairwise_cons.2 ⟨fun b hb use' hnew hold => ?_, h.spaced⟩
    exact not_usable_of_query h hnow hquery hb ⟨hold.1.trans hnew.1.symm, hold.2.trans hnew.2.symm⟩

/-- A call without an answer leaves the cache as it was. -/
theorem cache_kept {out : PairStorage × Response} (hanswer : m.newAnswer = none)
    (hout : m.result = .ok out) : out.1.discountCache = m.pair.discountCache := by
  cases huse : m.call.msg.feeUse with
  | none => exact (keepsCache_execute huse).success hout
  | some use =>
      have hcache := (execute_fee huse hout).cache
      unfold cacheAfter at hcache
      unfold Moment.newAnswer at hanswer
      rw [huse, Option.bind_some] at hanswer
      unfold Moment.query at hanswer
      split at hcache
      case h_1 registry discount hquery =>
        rw [show registryQuery m.call.q m.pair.discountCache m.now m.pair.discountRegistry
          use.trader use.sender = some (registry, some discount) from hquery] at hanswer
        cases hanswer
      case h_2 => exact hcache

theorem Recorded.next {now : ℕ} (h : Recorded (m.pair, m.answers) now) (hnow : now ≤ m.now) :
    Recorded m.next m.now := by
  unfold Moment.next
  cases hout : m.result with
  | error e => exact ⟨h.cached, fun a ha => (h.past a ha).trans hnow, h.spaced⟩
  | ok out =>
      cases hanswer : m.newAnswer with
      | some a => exact h.answered hnow hanswer hout
      | none =>
          refine ⟨fun use => ?_, fun a ha => (h.past a ha).trans hnow, h.spaced⟩
          rw [show (out.1, none.toList ++ m.answers).1.discountCache = m.pair.discountCache from
            cache_kept hanswer hout]
          exact h.cached use

/-- The last answer serves, and it is the only usable one. -/
theorem last_of_usable {now : ℕ} (h : Recorded (m.pair, m.answers) now) (hnow : now ≤ m.now)
    {a b : Answer} (hlast : lastAnswer m.answers use = some a) (hb : b ∈ m.answers)
    (hfor : b.IsFor use) (hused : b.Usable m.now) : b = a := by
  have hafor : a.IsFor use := by simpa using List.find?_some hlast
  obtain rfl | hspaced := eq_or_of_find? h.spaced hlast hb (by simpa using hfor)
  · rfl
  · have hpast : a.time ≤ now := h.past a (List.mem_of_find?_eq_some hlast)
    exact absurd ⟨by have := hused.1; omega, hused.2⟩ (hspaced use hafor hfor)

/-- A lookup that is not served from the cache finds no usable answer. -/
theorem unserved {now : ℕ} (h : Recorded (m.pair, m.answers) now) (hnow : now ≤ m.now)
    {answer : Addr × Option DiscountResponse} (hquery : m.query use = some answer) {a : Answer}
    (hlast : lastAnswer m.answers use = some a) : ¬a.Usable m.now :=
  not_usable_of_query h hnow hquery (List.mem_of_find?_eq_some hlast)
    (by simpa using List.find?_some hlast)

theorem lookupAnswer_eq {looked : DiscountCache × ℕ × Option DiscountResponse}
    (h : lookupEffectiveFeeBpsCached m.call.q m.pair.discountCache m.call.env.blockTime
      m.pair.feeConfig.feeBps m.pair.discountRegistry use.trader use.sender = .ok looked) :
    m.lookupAnswer use = .ok looked.2.2 := by
  unfold Moment.lookupAnswer Moment.now Moment.feeBps
  rw [h]
  rfl

/-- A response reports the fee of its lookup, or the one that its answer gives. -/
theorem FeeUse.reports_iff {use : FeeUse} {feeBps bps bps' : ℕ}
    {discount : Option DiscountResponse} {attributes : Attributes}
    (h : use.Reports feeBps bps discount attributes) :
    use.Reports feeBps bps' discount attributes ↔
      ∀ trader sender, use = .swap trader sender → bps = bps' := by
  cases use with
  | swap trader sender =>
      cases attributes with
      | swap report =>
          constructor
          · intro h' _ _ _
            exact (h.symm.trans h' : bps = bps')
          · intro hbps
            exact (h.trans (hbps trader sender rfl) : report.effectiveFeeBps = bps')
      | _ => exact absurd h id
  | placement owner =>
      cases attributes with
      | placeLimitOrderBatch report =>
          constructor
          · intro _ _ _ huse
            cases huse
          · exact fun _ => h
      | _ => exact absurd h id

/-- One call follows the fee in force exactly when it is undisturbed. -/
theorem follows_iff {now : ℕ} (h : Recorded (m.pair, m.answers) now) (hnow : now ≤ m.now) :
    m.Follows ↔ m.Undisturbed := by
  refine forall_congr' fun use => forall_congr' fun out => forall_congr' fun huse =>
    forall_congr' fun hout => ?_
  obtain ⟨looked, hlooked, hreports⟩ := (execute_fee huse hout).fee
  have hanswer := lookupAnswer_eq hlooked
  obtain ⟨hspec, hreadonly, -⟩ := lookupEffectiveFeeBpsCached_eq_ok hlooked
  have hquoted : m.quotedFee use = looked.2.1 := hreadonly
  -- the answer of the lookup is the only one that the call can rest on
  have hsplit : (∃ discount, m.lookupAnswer use = .ok discount ∧ m.RestsOn use discount ∧
      use.Reports m.feeBps (effectiveFeeBps m.feeBps (swapDiscountBps discount)) discount
        out.2.attributes ∧ ∀ trader sender, use = .swap trader sender →
          m.quotedFee use = effectiveFeeBps m.feeBps (swapDiscountBps discount)) ↔
      m.RestsOn use looked.2.2 ∧ ∀ trader sender, use = .swap trader sender →
        looked.2.1 = effectiveFeeBps m.feeBps (swapDiscountBps looked.2.2) := by
    constructor
    · rintro ⟨discount, hdiscount, hrests, -, hfee⟩
      cases hanswer.symm.trans hdiscount
      exact ⟨hrests, fun t s hs => hquoted.symm.trans (hfee t s hs)⟩
    · rintro ⟨hrests, hfee⟩
      exact ⟨looked.2.2, hanswer, hrests, (FeeUse.reports_iff hreports).2 hfee,
        fun t s hs => hquoted.trans (hfee t s hs)⟩
  rw [hsplit]
  generalize looked.2.1 = bps at hspec ⊢
  generalize looked.2.2 = discount at hspec ⊢
  cases hspec with
  | noRegistry hnone =>
      constructor
      · intro _ a registry _ _ hregistry
        cases hnone.symm.trans hregistry
      · intro _
        exact ⟨.inl hnone, fun _ _ _ => (effectiveFeeBps_zero _).symm⟩
  | failed hquery =>
      constructor
      · intro _ a registry hlast hused _
        exact absurd hused (unserved h hnow hquery hlast)
      · intro _
        exact ⟨.inr ⟨_, hquery⟩, fun _ _ _ => (effectiveFeeBps_zero _).symm⟩
  | answered hquery =>
      constructor
      · intro _ a registry hlast hused _
        exact absurd hused (unserved h hnow hquery hlast)
      · intro _
        obtain ⟨registry, hregistry, hasked⟩ := Option.bind_eq_some_iff.1 hquery
        split_ifs at hasked
        obtain ⟨rfl, -⟩ := Prod.mk.inj (Option.some.inj hasked)
        exact ⟨⟨_, hregistry, .inl hquery⟩, fun _ _ _ => rfl⟩
  | @cached registry entry hregistry hentry =>
      have hnoquery : m.query use = none := by
        have hsome := congrArg Option.isSome hentry
        simp only [Option.isSome_some] at hsome
        unfold Moment.query registryQuery
        rw [hregistry, Option.bind_some]
        exact if_pos hsome
      obtain ⟨a, hused, rfl⟩ := Option.map_eq_some_iff.1 ((usableEntry_eq h hnow).symm.trans hentry)
      obtain ⟨hlast, hused⟩ := Option.filter_eq_some_iff.1 hused
      have hused : a.Usable m.now := of_decide_eq_true hused
      have ha : a ∈ m.answers := List.mem_of_find?_eq_some hlast
      have hfor : a.IsFor use := by simpa using List.find?_some hlast
      constructor
      · rintro ⟨⟨registry', hregistry', hrests⟩, hfee⟩ b registry'' hlast' - hregistry''
        cases hlast.symm.trans hlast'
        cases hregistry.symm.trans hregistry'
        cases hregistry.symm.trans hregistry''
        obtain hquery | ⟨b, hb, hbregistry, hbfor, -, -, hbused⟩ := hrests
        · cases hnoquery.symm.trans hquery
        · cases last_of_usable h hnow hlast hb hbfor hbused
          exact ⟨hbregistry, hfee⟩
      · intro hsteady
        obtain ⟨hsame, hfee⟩ := hsteady a registry hlast hused hregistry
        have hpast : a.time ≤ m.now := (h.past a ha).trans hnow
        exact ⟨⟨registry, hregistry, .inr ⟨a, ha, hsame, hfor, rfl, hpast, hused⟩⟩, hfee⟩

end Keeping

/-- The times of a run do not go back. -/
def Timely (now : ℕ) (calls : List Call) : Prop :=
  calls.Pairwise (fun c c' => c.env.blockTime ≤ c'.env.blockTime) ∧
    ∀ c ∈ calls, now ≤ c.env.blockTime

theorem recorded_of_mem_moments {s : PairStorage × List Answer} {now : ℕ} (h : Recorded s now)
    {calls : List Call} (htime : Timely now calls) :
    ∀ m ∈ moments s calls, ∃ before ≤ m.now, Recorded (m.pair, m.answers) before := by
  induction calls generalizing s now with
  | nil => exact fun m hm => (List.not_mem_nil hm).elim
  | cons call calls ih =>
      obtain ⟨hsorted, hle⟩ := htime
      obtain ⟨hfirst, hsorted⟩ := List.pairwise_cons.1 hsorted
      have hnow := hle call List.mem_cons_self
      intro m hm
      cases hm with
      | head => exact ⟨now, hnow, h⟩
      | tail _ hm =>
          exact ih (Recorded.next (m := ⟨s.1, s.2, call⟩) h hnow) ⟨hsorted, hfirst⟩ m hm

/-- The fees of a run follow the fee in force exactly when no accepted call is served an answer
that another registry or another fee has overtaken. -/
theorem fees_follow_iff {p : PairStorage} (hempty : ∀ t s, p.discountCache t s = none)
    {calls : List Call} (htime : calls.Pairwise fun c c' => c.env.blockTime ≤ c'.env.blockTime) :
    (∀ m ∈ moments (p, []) calls, m.Follows) ↔ ∀ m ∈ moments (p, []) calls, m.Undisturbed := by
  have hrecorded := recorded_of_mem_moments (Recorded.start hempty 0)
    ⟨htime, fun c _ => Nat.zero_le _⟩
  refine forall_congr' fun m => forall_congr' fun hm => ?_
  obtain ⟨before, hle, h⟩ := hrecorded m hm
  exact follows_iff h hle

section Sample

/-- Registry 20 gives everyone a tenth off; no other registry answers. -/
def sampleQuerier : Querier := { Querier.permissive with
  getDiscount := fun registry _ _ =>
    if registry = 20 then some ⟨1000, none, false, none⟩ else none }

def sampleSwap (blockTime : ℕ) : Call :=
  ⟨sampleQuerier, sampleEnv blockTime, 1,
    .receive ⟨7, 1000, .swap ⟨none, none, none, none, none, none, none⟩ none⟩⟩

/-- A first deposit and a registry, then two swaps of user 7 with a message of the factory between
them. -/
def sampleCalls (change : ExecuteMsg) : List Call :=
  [⟨sampleQuerier, sampleEnv 1000, 7, .provideLiquidity
      (⟨.token 1, 1000000⟩, ⟨.token 2, 3000000⟩) none none none⟩,
    ⟨sampleQuerier, sampleEnv 1006, 4, .setDiscountRegistry (some 20)⟩, sampleSwap 1012,
    ⟨sampleQuerier, sampleEnv 1018, 4, change⟩, sampleSwap 1024]

theorem fees_follow_sample :
    (∀ m ∈ moments (samplePair, []) (sampleCalls (.updateFee 100)), m.Follows) ↔
      ∀ m ∈ moments (samplePair, []) (sampleCalls (.updateFee 100)), m.Undisturbed :=
  fees_follow_iff (fun _ _ => rfl) (by simp [sampleCalls, sampleSwap, sampleEnv])

/-- The second swap of the sample run. -/
def sampleMoment (change : ExecuteMsg) : Moment :=
  let s := ((sampleCalls change).take 4).foldl (fun s call => (Moment.mk s.1 s.2 call).next)
    (samplePair, [])
  ⟨s.1, s.2, sampleSwap 1024⟩

def sampleAnswer : Answer := ⟨20, 7, 7, 1012, 30, ⟨1000, none, false, none⟩⟩

theorem sampleMoment_mem (change : ExecuteMsg) :
    sampleMoment change ∈ moments (samplePair, []) (sampleCalls change) :=
  .tail _ (.tail _ (.tail _ (.tail _ (.head _))))

theorem not_follows_of_overtaken (change : ExecuteMsg) (registry : Addr)
    (hok : Meets (sampleMoment change).result (fun _ => True) (fun _ => False))
    (hlast : lastAnswer (sampleMoment change).answers (.swap 7 7) = some sampleAnswer)
    (hregistry : (sampleMoment change).pair.discountRegistry = some registry)
    (hovertaken : 20 = registry → 27 ≠ effectiveFeeBps (sampleMoment change).feeBps 1000) :
    ¬∀ m ∈ moments (samplePair, []) (sampleCalls change), m.Follows := by
  intro hfollows
  have htime : (sampleCalls change).Pairwise fun c c' => c.env.blockTime ≤ c'.env.blockTime := by
    simp [sampleCalls, sampleSwap, sampleEnv]
  obtain ⟨before, hle, hrecorded⟩ := recorded_of_mem_moments
    (Recorded.start (p := samplePair) (fun _ _ => rfl) 0) ⟨htime, fun c _ => Nat.zero_le _⟩ _
    (sampleMoment_mem change)
  have hsteady := (follows_iff hrecorded hle).1 (hfollows _ (sampleMoment_mem change))
  obtain ⟨out, hout, -⟩ := hok.accepted
  obtain ⟨hsame, hfee⟩ := hsteady (.swap 7 7) out rfl hout sampleAnswer registry hlast
    ⟨show 1024 < 1012 + discountCacheTtlSeconds by decide, rfl⟩ hregistry
  exact hovertaken hsame (hfee 7 7 rfl)

/-- The fee rises from 30 to 100 and the next swap still pays 27 instead of 90. When the registry
gives way to one that does not answer, the swap still pays 27 instead of 30. -/
theorem stale_fee_charged :
    (¬∀ m ∈ moments (samplePair, []) (sampleCalls (.updateFee 100)), m.Follows) ∧
    ¬∀ m ∈ moments (samplePair, []) (sampleCalls (.setDiscountRegistry (some 21))), m.Follows := by
  constructor
  · exact not_follows_of_overtaken _ 20 (by decide +kernel) (by decide +kernel)
      (by decide +kernel) (by decide +kernel)
  · exact not_follows_of_overtaken _ 21 (by decide +kernel) (by decide +kernel)
      (by decide +kernel) (by decide +kernel)

end Sample

end Cl8yDex.FeeRuns
