import Cl8yDex.LocalLeg

/-!
# Exact-output sizing of local routes

A target is carried back hop by hop to a gross offer, and the whole route is then checked forwards.
Where the check fails, the search goes on behind the pool output of the first hop that it was at.
Every loop and every probe is counted against a budget.
-/

namespace Cl8yDex.LocalQuote

open Outcome Listing

inductive Rejection
  | missing
  | stale
  | unsupported
  | dust
  | liquidity
  | accounting
  | protection
  | tradingBlocked
  | noRoute
  | invalidRequest
  | amountLimit
  | fairDeviation
  | referencePolicyExcluded
  deriving DecidableEq

def maxForwardRefinements : ℕ := 64

def maxHopRefinements : ℕ := 64

def probe (work : ℕ) : Except Rejection ℕ := orThrow (checkedSub work 1) .accounting

/-- The least offer to a pool whose net output is `wanted`. -/
def inversePoolOffer (rin rout feeBps wanted : ℕ) : Option ℕ := do
  guard (¬(rin = 0 ∨ wanted = 0 ∨ 10000 ≤ feeBps ∨ rout ≤ wanted))
  let gross := (wanted - 1) * 10000 / (10000 - feeBps) + 1
  guard (gross ≤ u128Max)
  let denominator ← checkedSub rout gross
  guard (denominator ≠ 0)
  let offer := (rin * gross + denominator - 1) / denominator
  guard (offer ≤ u128Max)
  return offer

namespace PoolLeg

variable (wide : WideDivision) (leg : PoolLeg)

def originalTarget (postHookTarget lower : ℕ) : Option ℕ :=
  match leg.hooks with
  | none => some (max postHookTarget lower)
  | some hooks => (hooks.inverseReturnFrom leg.ask postHookTarget lower).toOption

/-- The most the pool can pay out at all. -/
def maximumNet : ℕ := leg.reserveOut - 1 - swapFeeAmount (leg.reserveOut - 1) leg.mirror.feeBps

/-- The offer that the next pool output in question needs. -/
def proposal (postHookTarget lower : ℕ) : Except Rejection ℕ := do
  let originalTarget ← orThrow (leg.originalTarget postHookTarget lower) .accounting
  ensure (originalTarget ≤ leg.maximumNet) .liquidity
  ensure (leg.mirror.feeBps < 10000) .dust
  orThrow (inversePoolOffer leg.reserveIn leg.reserveOut leg.mirror.feeBps originalTarget)
    .accounting

def inverseLoop (target postHookTarget : ℕ) : ℕ → ℕ → ℕ → Except Rejection (ℕ × ℕ)
  | 0, _, _ => .error .accounting
  | steps + 1, lower, work => do
      let work ← probe work
      let economic ← leg.proposal postHookTarget lower
      let original ← orThrow (leg.original wide economic) .accounting
      let delivered ← orThrow (leg.delivered original) .accounting
      if target ≤ delivered then do
        let gross ← orThrow (checkedAdd economic (taxAmount economic leg.sellBps)) .accounting
        return (gross, work)
      else do
        let lower ← orThrow (checkedAdd original 1) .accounting
        inverseLoop target postHookTarget steps lower work

/-- The first gross offer that delivers the target, among those whose pool output is at least
`lower`, and the probes that are left. -/
def inverse (hopSteps target lower work : ℕ) : Except Rejection (ℕ × ℕ) := do
  let postHookTarget ← orThrow (inverseBuy target leg.buyBps) .accounting
  leg.inverseLoop wide target postHookTarget hopSteps lower work

end PoolLeg

section Route

variable (wide : WideDivision) (hopSteps : ℕ)

/-- The hops are inverted from the last one back, and only the first has a lower bound. -/
def composeInverse : List PoolLeg → ℕ → ℕ → ℕ → Except Rejection (ℕ × ℕ)
  | [], target, _, work => .ok (target, work)
  | leg :: legs, target, firstOriginalLower, work => do
      let wanted ← composeInverse legs target 0 work
      leg.inverse wide hopSteps wanted.1 firstOriginalLower wanted.2

def forwardAll : List PoolLeg → ℕ → Option ℕ
  | [], output => some output
  | leg :: legs, output => do
      let hop ← leg.forward wide output
      forwardAll legs hop.1

def refine (leg : PoolLeg) (legs : List PoolLeg) (target : ℕ) :
    ℕ → ℕ → ℕ → Except Rejection (ℕ × ℕ)
  | 0, _, _ => .error .accounting
  | steps + 1, lower, work => do
      let required ← composeInverse wide hopSteps (leg :: legs) target lower work
      let first ← orThrow (leg.forward wide required.1) .accounting
      let output ← orThrow (forwardAll wide legs first.1) .accounting
      if target ≤ output then return required
      else do
        let lower ← orThrow (checkedAdd first.2 1) .accounting
        refine leg legs target steps lower required.2

end Route

structure Candidate where
  output : ℕ
  protectionBlocked : Bool

section Select

variable (wide : WideDivision)

/-- Whether a path may be quoted, and the full evaluation of an offer along it. -/
structure Admission where
  pathPrerequisiteRejection : Option Rejection
  evaluateWithPlan : ℕ → Except Rejection Candidate

def checkLegs (legs : List PoolLeg) (target : ℕ) : Except Rejection Unit :=
  ensure (¬((∃ leg ∈ legs, leg.reserveIn = 0 ∨ leg.reserveOut = 0) ∨
    ∃ leg ∈ legs.getLast?, leg.reserveOut ≤ target)) .liquidity

def admitted (candidate : Candidate) (target : ℕ) : Except Rejection Unit := do
  ensure (candidate.protectionBlocked = false) .protection
  ensure (target ≤ candidate.output) .accounting

def inverseCandidate (admission : Admission) (path : List PoolLeg) (target work : ℕ) :
    Except Rejection (ℕ × Candidate) :=
  match path with
  | [] => .error .noRoute
  | leg :: legs => do
      ensure (target ≠ 0) .noRoute
      ensure (admission.pathPrerequisiteRejection = none)
        (admission.pathPrerequisiteRejection.getD .noRoute)
      checkLegs (leg :: legs) target
      let required ← refine wide maxHopRefinements leg legs target maxForwardRefinements 0 work
      let candidate ← admission.evaluateWithPlan required.1
      admitted candidate target
      return (required.1, candidate)

end Select

end Cl8yDex.LocalQuote

/-!
## Inverting the hooks

Each hook rounds its own deduction down, so what is left does not rise with the pool output. It has
a period, however: the residue decides within one, and the inverse finds the first residue that
leaves enough.
-/

namespace Cl8yDex.LocalQuote

open Outcome

section Kept

variable {fees : List ℕ} {n q r : ℕ}

/-- What independent deductions leave of an amount. -/
def kept (fees : List ℕ) (n : ℕ) : ℕ := n - (fees.map fun f => n * f / 10000).sum

theorem sum_floors_le (fees : List ℕ) (n : ℕ) :
    (fees.map fun f => n * f / 10000).sum * 10000 ≤ n * fees.sum := by
  induction fees with
  | nil => simp
  | cons f fees ih =>
      have hone : n * f / 10000 * 10000 ≤ n * f := Nat.div_mul_le_self _ _
      rw [List.map_cons, List.sum_cons, List.sum_cons, Nat.add_mul, Nat.mul_add]
      exact Nat.add_le_add hone ih

theorem floors_le_self (h : fees.sum ≤ 10000) (n : ℕ) :
    (fees.map fun f => n * f / 10000).sum ≤ n := by
  have hfloors := sum_floors_le fees n
  have hle : n * fees.sum ≤ n * 10000 := Nat.mul_le_mul_left n h
  omega

theorem sum_floors_period (fees : List ℕ) (q r : ℕ) :
    (fees.map fun f => (10000 * q + r) * f / 10000).sum =
      q * fees.sum + (fees.map fun f => r * f / 10000).sum := by
  induction fees with
  | nil => simp
  | cons f fees ih =>
      have hone : (10000 * q + r) * f / 10000 = q * f + r * f / 10000 := by
        rw [show (10000 * q + r) * f = r * f + 10000 * (q * f) by ring,
          Nat.add_mul_div_left _ _ (by decide), Nat.add_comm]
      simp only [List.map_cons, List.sum_cons, Nat.mul_add, hone]
      omega

theorem kept_period (h : fees.sum ≤ 10000) (hr : r < 10000) :
    kept fees (10000 * q + r) = q * (10000 - fees.sum) + keptResidue fees r := by
  have hfloors := floors_le_self h r
  have hsplit : q * 10000 = q * (10000 - fees.sum) + q * fees.sum := by
    rw [← Nat.mul_add]
    congr 1
    omega
  rw [kept, sum_floors_period, keptResidue, if_pos hr]
  omega

theorem hookAmount_eq (original bps : ℕ) : hookAmount original bps = original * bps / 10000 := by
  have hsplit : original * bps = original % 10000 * bps + original / 10000 * bps * 10000 := by
    conv_lhs => rw [← Nat.div_add_mod original 10000]
    ring
  rw [hookAmount, hsplit, Nat.add_mul_div_right _ _ (by decide), Nat.add_comm]

theorem netLoop_eq_ok {original totalBps total : ℕ}
    (h : netLoop original fees totalBps total = .ok n) (hbps : totalBps ≤ 10000) :
    totalBps + fees.sum ≤ 10000 ∧
      n = original - (total + (fees.map fun f => original * f / 10000).sum) := by
  induction fees generalizing totalBps total with
  | nil =>
      rw [netLoop, orThrow_eq_ok, checkedSub_eq_some] at h
      exact ⟨by simpa using hbps, by simpa using h.2⟩
  | cons bps fees ih =>
      obtain ⟨_, hle, h⟩ := bind_eq_ok.1 h
      obtain ⟨sum, hsum, h⟩ := bind_eq_ok.1 h
      rw [ensure_eq_ok] at hle
      rw [orThrow_eq_ok, checkedAdd_eq_some, hookAmount_eq] at hsum
      obtain ⟨-, rfl⟩ := hsum
      obtain ⟨htotal, hn⟩ := ih h hle
      simp only [List.sum_cons, List.map_cons]
      exact ⟨by omega, by omega⟩

theorem netReturn_eq_ok {hooks : CachedHookPrices} {ask original : ℕ}
    (h : hooks.netReturn ask original = .ok n) :
    (hooks.fees ask).sum ≤ 10000 ∧ n = kept (hooks.fees ask) original := by
  obtain ⟨hsum, hn⟩ := netLoop_eq_ok h (Nat.zero_le _)
  rw [Nat.zero_add] at hsum hn
  exact ⟨hsum, hn⟩

end Kept

section First

variable {h : HookInverse} {lower target height start r : ℕ}

theorem kept_le_maxima (hstart : start ≤ r) (hr : r < start + 2 ^ height) :
    h.kept r ≤ h.maxima height start := by
  induction height generalizing start with
  | zero =>
      have heq : r = start := by
        rw [Nat.pow_zero] at hr
        omega
      rw [heq]
      exact le_rfl
  | succ height ih =>
      rw [Nat.pow_succ] at hr
      rw [HookInverse.maxima]
      by_cases hleft : r < start + 2 ^ height
      · exact (ih hstart hleft).trans (le_max_left _ _)
      · exact (ih (by omega) (by omega)).trans (le_max_right _ _)

theorem first_eq_none (hnone : h.first lower target height start = none) (hstart : start ≤ r)
    (hr : r < start + 2 ^ height) (hlower : lower ≤ r) (hlt : r < 10000) : h.kept r < target := by
  induction height generalizing start with
  | zero =>
      have heq : r = start := by
        rw [Nat.pow_zero] at hr
        omega
      unfold HookInverse.first at hnone
      split_ifs at hnone with hskip
      rw [Nat.pow_zero, HookInverse.maxima] at hskip
      rw [heq] at hlower hlt ⊢
      omega
  | succ height ih =>
      rw [HookInverse.first] at hnone
      by_cases hskip : start + 2 ^ (height + 1) ≤ lower ∨ 10000 ≤ start ∨
          h.maxima (height + 1) start < target
      · have hmax : h.kept r ≤ h.maxima (height + 1) start := kept_le_maxima hstart hr
        omega
      · rw [if_neg hskip] at hnone
        obtain ⟨hfirst, hsecond⟩ := Option.or_eq_none_iff.1 hnone
        rw [Nat.pow_succ] at hr
        by_cases hleft : r < start + 2 ^ height
        · exact ih hfirst hstart hleft
        · exact ih hsecond (by omega) (by omega)

theorem first_eq_some (hsome : h.first lower target height start = some r) :
    start ≤ r ∧ r < start + 2 ^ height ∧ lower ≤ r ∧ r < 10000 ∧
      ∀ s, start ≤ s → lower ≤ s → s < 10000 → target ≤ h.kept s → r ≤ s := by
  induction height generalizing start with
  | zero =>
      unfold HookInverse.first at hsome
      split_ifs at hsome with hskip
      cases hsome
      rw [Nat.pow_zero] at hskip ⊢
      exact ⟨le_rfl, by omega, by omega, by omega, fun s hs _ _ _ => hs⟩
  | succ height ih =>
      rw [HookInverse.first] at hsome
      by_cases hskip : start + 2 ^ (height + 1) ≤ lower ∨ 10000 ≤ start ∨
          h.maxima (height + 1) start < target
      · rw [if_pos hskip] at hsome
        cases hsome
      · rw [if_neg hskip] at hsome
        have hpow : 2 ^ (height + 1) = 2 ^ height + 2 ^ height := by
          rw [Nat.pow_succ]
          omega
        rcases Option.or_eq_some_iff.1 hsome with hfirst | ⟨hnone, hsecond⟩
        · obtain ⟨h1, h2, h3, h4, hleast⟩ := ih hfirst
          exact ⟨h1, by omega, h3, h4, hleast⟩
        · obtain ⟨h1, h2, h3, h4, hleast⟩ := ih hsecond
          refine ⟨by omega, by omega, h3, h4, ?_⟩
          intro s hs hlower hlt hkept
          apply hleast s _ hlower hlt hkept
          by_contra hleft
          exact absurd hkept (not_le.2 (first_eq_none hnone hs (by omega) hlower hlt))

end First

section Gross

variable {fees : List ℕ} {h : HookInverse} {target lower n g q r : ℕ}

theorem build_eq_some (hbuild : HookInverse.build fees = some h) :
    fees.sum ≤ 10000 ∧ h = ⟨10000 - fees.sum, keptResidue fees⟩ := by
  obtain ⟨retained, hretained, hbuild⟩ := Option.bind_eq_some_iff.1 hbuild
  rw [checkedSub_eq_some] at hretained
  cases hbuild
  exact ⟨hretained.1, by rw [hretained.2]⟩

/-- No smaller quotient can reach the target with any residue. -/
theorem firstQuotient_le {first : ℕ} (hfirst : h.firstQuotient target = some first)
    (hr : r < 10000) (hreach : target ≤ q * h.retainedBps + h.kept r) : first ≤ q := by
  have hmax : h.kept r ≤ h.maxima treeHeight 0 :=
    kept_le_maxima (Nat.zero_le r) (hr.trans (by decide))
  unfold HookInverse.firstQuotient at hfirst
  generalize h.maxima treeHeight 0 = most at hmax hfirst
  by_cases henough : target ≤ most
  · rw [if_pos henough] at hfirst
    cases hfirst
    exact Nat.zero_le q
  · rw [if_neg henough] at hfirst
    by_cases hz : h.retainedBps = 0
    · rw [if_pos hz] at hfirst
      cases hfirst
    · rw [if_neg hz] at hfirst
      cases hfirst
      have hdiff : target - most ≤ q * h.retainedBps := by omega
      have hquot : (target - most) / h.retainedBps ≤ q :=
        Nat.div_le_of_le_mul (by rw [Nat.mul_comm]; exact hdiff)
      by_cases hexact : (target - most) % h.retainedBps = 0
      · rw [if_neg (not_not.2 hexact)]
        exact hquot
      · rw [if_pos hexact]
        apply Nat.succ_le_of_lt
        apply lt_of_le_of_ne hquot
        intro heq
        have hmod := Nat.div_add_mod (target - most) h.retainedBps
        rw [heq, Nat.mul_comm] at hmod
        omega

theorem assemble_eq_some (hg : HookInverse.assemble q r = some g) : g = 10000 * q + r := by
  obtain ⟨whole, hwhole, hg⟩ := Option.bind_eq_some_iff.1 hg
  rw [checkedMul_eq_some] at hwhole
  rw [checkedAdd_eq_some] at hg
  omega

theorem checkedMul_paid {retained paid k : ℕ} (hpaid : checkedMul q retained = some paid)
    (hreach : target ≤ q * retained + k) : target - paid ≤ k := by
  rw [checkedMul_eq_some] at hpaid
  omega

/-- The answer is not below the bound, and no output from the bound on that leaves the target is
smaller. -/
theorem grossFrom_bound (hsum : fees.sum ≤ 10000)
    (hg : (HookInverse.mk (10000 - fees.sum) (keptResidue fees)).grossFrom target lower = some g) :
    lower ≤ g ∧ ∀ n, lower ≤ n → target ≤ kept fees n → g ≤ n := by
  obtain ⟨-, -, hg⟩ := Option.bind_eq_some_iff.1 hg
  obtain ⟨first, hfirst, hg⟩ := Option.bind_eq_some_iff.1 hg
  dsimp only at hg
  obtain ⟨paid, hpaid, hg⟩ := Option.bind_eq_some_iff.1 hg
  have hdigits (n : ℕ) : 10000 * (n / 10000) + n % 10000 = n ∧ n % 10000 < 10000 :=
    ⟨Nat.div_add_mod n 10000, Nat.mod_lt n (by decide)⟩
  have hlow := hdigits lower
  have hreach (n : ℕ) (hn : target ≤ kept fees n) :
      target ≤ n / 10000 * (10000 - fees.sum) + keptResidue fees (n % 10000) := by
    rw [← kept_period hsum (hdigits n).2, (hdigits n).1]
    exact hn
  have hquotient (n : ℕ) (hle : lower ≤ n) (hn : target ≤ kept fees n) :
      max first (lower / 10000) ≤ n / 10000 :=
    max_le (firstQuotient_le hfirst (hdigits n).2 (hreach n hn)) (Nat.div_le_div_right hle)
  have hge : lower / 10000 ≤ max first (lower / 10000) := le_max_right _ _
  generalize max first (lower / 10000) = q at *
  cases hres : (HookInverse.mk (10000 - fees.sum) (keptResidue fees)).first
      (if q = lower / 10000 then lower % 10000 else 0) (target - paid) treeHeight 0 with
  | some residue =>
      rw [hres] at hg
      have heq := assemble_eq_some hg
      obtain ⟨-, -, hstart, hlt, hleast⟩ := first_eq_some hres
      constructor
      · split_ifs at hstart with hsame
        · omega
        · omega
      · intro n hle hn
        have hd := hdigits n
        have hq := hquotient n hle hn
        by_cases hsameq : n / 10000 = q
        · have hstart' : (if q = lower / 10000 then lower % 10000 else 0) ≤ n % 10000 := by
            split_ifs
            · omega
            · exact Nat.zero_le _
          have hpaid' : target - paid ≤ keptResidue fees (n % 10000) := by
            apply checkedMul_paid hpaid
            rw [← hsameq]
            exact hreach n hn
          have hresidue := hleast (n % 10000) (Nat.zero_le _) hstart' hd.2 hpaid'
          omega
        · omega
  | none =>
      rw [hres] at hg
      obtain ⟨next, hnext, hg⟩ := Option.bind_eq_some_iff.1 hg
      obtain ⟨paidNext, hpaidNext, hg⟩ := Option.bind_eq_some_iff.1 hg
      obtain ⟨residue, hresidue, hg⟩ := Option.bind_eq_some_iff.1 hg
      have heq := assemble_eq_some hg
      rw [checkedAdd_eq_some] at hnext
      obtain ⟨-, rfl⟩ := hnext
      obtain ⟨-, -, -, hlt, hleast⟩ := first_eq_some hresidue
      constructor
      · omega
      · intro n hle hn
        have hd := hdigits n
        have hq := hquotient n hle hn
        have hneq : n / 10000 ≠ q := by
          intro hsameq
          have hstart' : (if q = lower / 10000 then lower % 10000 else 0) ≤ n % 10000 := by
            split_ifs
            · omega
            · exact Nat.zero_le _
          have hkept := first_eq_none hres (Nat.zero_le (n % 10000))
            (by rw [Nat.zero_add]; exact hd.2.trans (by decide)) hstart' hd.2
          have hpaid' : target - paid ≤ keptResidue fees (n % 10000) := by
            apply checkedMul_paid hpaid
            rw [← hsameq]
            exact hreach n hn
          exact absurd hpaid' (not_le.2 hkept)
        by_cases hsameq : n / 10000 = q + 1
        · have hpaid' : target - paidNext ≤ keptResidue fees (n % 10000) := by
            apply checkedMul_paid hpaidNext
            rw [← hsameq]
            exact hreach n hn
          have hle' := hleast (n % 10000) (Nat.zero_le _) (Nat.zero_le _) hd.2 hpaid'
          omega
        · omega

/-- The inverse of the hooks bounds every pool output that leaves the target. -/
theorem inverseReturnFrom_bound {hooks : CachedHookPrices} {ask : ℕ}
    (hg : hooks.inverseReturnFrom ask target lower = .ok g) :
    lower ≤ g ∧ ∀ n m, lower ≤ n → hooks.netReturn ask n = .ok m → target ≤ m → g ≤ n := by
  unfold CachedHookPrices.inverseReturnFrom at hg
  by_cases hfees : hooks.fees ask = []
  · rw [if_pos hfees] at hg
    obtain ⟨_, -, hg⟩ := bind_eq_ok.1 hg
    cases hg
    refine ⟨le_max_right _ _, fun n m hle hnet hm => max_le ?_ hle⟩
    obtain ⟨-, hkept⟩ := netReturn_eq_ok hnet
    rw [hfees] at hkept
    have hall : kept [] n = n := by simp [kept]
    omega
  · rw [if_neg hfees, orThrow_eq_ok] at hg
    obtain ⟨p, hp, hg⟩ := Option.bind_eq_some_iff.1 hg
    obtain ⟨hsum, rfl⟩ := build_eq_some hp
    obtain ⟨hle, hleast⟩ := grossFrom_bound hsum hg
    refine ⟨hle, fun n m hn hnet hm => hleast n hn ?_⟩
    rw [← (netReturn_eq_ok hnet).2]
    exact hm

end Gross

end Cl8yDex.LocalQuote
