import Cl8yDex.Arithmetic
import Cl8yDex.Types
import Cl8yDex.RoundedDeduction
import Mathlib.Order.Bounds.Basic

/-!
# The native wrapper in local quotes

A wrapped token is credited less a fee, and paid out in its native denomination less a fee and the
chain's capped tax. The indexer inverts both from a snapshot of the fees and the tax.
-/

namespace Cl8yDex.Wrapper

def scale : ℕ := 10 ^ 18

structure NativeMapping where
  cw20 : Addr
  maximum : Option ℕ
  used : ℕ
  taxCap : Option ℕ

structure WrapperSnapshot where
  observedAtMs : ℤ
  mappings : String → Option NativeMapping
  feeWrapBps : ℕ
  feeUnwrapBps : ℕ
  taxAtomics : Option ℕ
  routerUnwrapSupported : Option Bool

def ratio (a n d : ℕ) : Option ℕ := if a * n / d ≤ u128Max then some (a * n / d) else none

def netFee (a bps : ℕ) : Option ℕ := do
  let fee ← ratio a bps 10000
  checkedSub a fee

def inverseFee (target bps : ℕ) : Option ℕ :=
  if target = 0 ∨ 10000 ≤ bps then none
  else do
    let below ← ratio (target - 1) 10000 (10000 - bps)
    checkedAdd below 1

namespace WrapperSnapshot

variable (w : WrapperSnapshot) (denom : String) (now : ℤ)

def isFresh : Bool := w.observedAtMs ≤ now ∧ now - w.observedAtMs ≤ 20000

/-- The mapping of a denomination, unless the snapshot is stale or the amount exceeds its limit. -/
def mapping (amount : ℕ) : Option NativeMapping :=
  if ¬w.isFresh now ∨ amount = 0 then none
  else (w.mappings denom).filter fun m =>
    ¬m.maximum.any fun limit => (checkedAdd m.used amount).all fun used => limit < used

/-- What a gross amount is credited, once its mapping admits it. -/
def wrapCredit (gross : ℕ) : Option ℕ :=
  (netFee gross w.feeWrapBps).filter fun minted => 0 < minted

def wrapInput (gross : ℕ) : Option (Addr × ℕ) := do
  let m ← w.mapping denom now gross
  let minted ← w.wrapCredit gross
  return (m.cw20, minted)

/-- What a wrapped amount is paid out, once its mapping admits it: the net and the base of the
tax. -/
def unwrapAmounts (m : NativeMapping) (wrapped : ℕ) : Option (ℕ × ℕ) := do
  let base ← netFee wrapped w.feeUnwrapBps
  let rate ← w.taxAtomics
  let part ← ratio base rate scale
  let cap ← m.taxCap
  let net ← checkedSub base (min part cap)
  if 0 < net then some (net, base) else none

def unwrapOutputDirect (wrapped : ℕ) : Option (Addr × ℕ × ℕ) := do
  let m ← w.mapping denom now wrapped
  let (net, base) ← w.unwrapAmounts m wrapped
  return (m.cw20, net, base)

def unwrapOutput (wrapped : ℕ) : Option (Addr × ℕ × ℕ) :=
  if w.routerUnwrapSupported = some true then w.unwrapOutputDirect denom now wrapped else none

def inverseWrap (target : ℕ) : Option ℕ := inverseFee target w.feeWrapBps

/-- The smaller of two optional amounts, where a missing one is too large. -/
def smaller : Option ℕ → Option ℕ → Option ℕ
  | some a, some b => some (min a b)
  | some a, none => some a
  | none, some b => some b
  | none, none => none

def inverseUnwrap (target : ℕ) : Option ℕ :=
  if target = 0 then none
  else do
    let rate ← w.taxAtomics
    if scale ≤ rate then none
    else
      let m ← w.mappings denom
      let cap ← m.taxCap
      let below ← ratio (target - 1) scale (scale - rate)
      let base ← smaller (checkedAdd below 1) (checkedAdd target cap)
      inverseFee base w.feeUnwrapBps

end WrapperSnapshot

end Cl8yDex.Wrapper

/-!
## When the wrapper's inverses are exact

The gross amount for a credit and the wrapped amount for a payout are the least machine integers
that reach the target, and missing exactly when none does, unless the quotient of the uncapped tax
overflows while the capped tax alone would leave a representable amount.
-/

namespace Cl8yDex.Wrapper

open RoundedDeduction

/-- The answer is the least element, and there is none without elements. -/
structure Exact (answer : Option ℕ) (S : Set ℕ) : Prop where
  least : ∀ a, answer = some a → IsLeast S a
  missing : answer = none ↔ S = ∅

/-- The gross amounts whose credit reaches the target. -/
def WrapperSnapshot.wraps (w : WrapperSnapshot) (target : ℕ) : Set ℕ :=
  {a | a ≤ u128Max ∧ ∃ minted, w.wrapCredit a = some minted ∧ target ≤ minted}

/-- The wrapped amounts whose payout reaches the target. -/
def WrapperSnapshot.unwraps (w : WrapperSnapshot) (denom : String) (target : ℕ) : Set ℕ :=
  {a | a ≤ u128Max ∧ ∃ m out, w.mappings denom = some m ∧ w.unwrapAmounts m a = some out ∧
    target ≤ out.1}

/-- Both inverses of a target are exact, payouts are monotone, and what an inverse asks for never
exceeds an amount that meets the target. -/
structure WrapperSnapshot.Inverts (w : WrapperSnapshot) (target : ℕ) : Prop where
  wrap : Exact (w.inverseWrap target) (w.wraps target)
  unwrap : ∀ denom, Exact (w.inverseUnwrap denom target) (w.unwraps denom target)
  monotone : ∀ denom now now' a a' out out', a ≤ a' → a' ≤ u128Max →
    w.unwrapOutputDirect denom now a = some out →
    w.unwrapOutputDirect denom now' a' = some out' → out.2.1 ≤ out'.2.1
  credit : ∀ denom now a out, a ≤ u128Max → w.wrapInput denom now a = some out → target ≤ out.2 →
    ∃ gross, w.inverseWrap target = some gross ∧ gross ≤ a
  floor : ∀ denom now a out, a ≤ u128Max → w.unwrapOutput denom now a = some out →
    target ≤ out.2.1 → ∃ wrapped, w.inverseUnwrap denom target = some wrapped ∧ wrapped ≤ a

/-- The quotient of the uncapped tax overflows, though what the capped tax and the fee leave room
for is representable. -/
def WrapperSnapshot.Overflows (w : WrapperSnapshot) (denom : String) (target : ℕ) : Prop :=
  ∃ rate m cap, w.taxAtomics = some rate ∧ w.mappings denom = some m ∧ m.taxCap = some cap ∧
    u128Max < (target - 1) * scale / (scale - rate) ∧
    needed 10000 w.feeUnwrapBps (target + cap) ≤ u128Max

section Fees

variable {a n bps target : ℕ} {S : Set ℕ}

/-- Where every element from some number on reaches the target, an answer under a further condition
is exact if the condition holds of every representable one. -/
theorem exact_iff_of_threshold {c : Prop} [Decidable c] (h : ∀ a, a ∈ S ↔ a ≤ u128Max ∧ n ≤ a) :
    Exact (if c ∧ n ≤ u128Max then some n else none) S ↔ (n ≤ u128Max → c) := by
  by_cases hfits : n ≤ u128Max
  · have hmem : n ∈ S := (h n).2 ⟨hfits, le_rfl⟩
    by_cases hc : c
    · rw [if_pos ⟨hc, hfits⟩]
      refine iff_of_true ⟨?_, ?_⟩ fun _ => hc
      · rintro _ ⟨⟩
        exact ⟨hmem, fun a ha => ((h a).1 ha).2⟩
      · constructor
        · exact nofun
        · rintro rfl
          exact hmem.elim
    · rw [if_neg fun hboth => hc hboth.1]
      refine iff_of_false ?_ fun himp => hc (himp hfits)
      intro hexact
      have hempty := hexact.missing.1 rfl
      rw [hempty] at hmem
      exact hmem.elim
  · rw [if_neg fun hboth => hfits hboth.2]
    refine iff_of_true ⟨?_, ?_⟩ fun hle => absurd hle hfits
    · exact nofun
    · refine ⟨fun _ => ?_, fun _ => rfl⟩
      apply Set.eq_empty_of_forall_notMem
      intro a ha
      obtain ⟨hle, hn⟩ := (h a).1 ha
      exact hfits (hn.trans hle)

theorem exact_of_threshold (h : ∀ a, a ∈ S ↔ a ≤ u128Max ∧ n ≤ a) :
    Exact (if n ≤ u128Max then some n else none) S := by
  have hexact := (@exact_iff_of_threshold n S True _ h).2 fun _ => trivial
  simpa only [true_and] using hexact

theorem netFee_eq (hbps : bps ≤ 10000) (ha : a ≤ u128Max) :
    netFee a bps = some (kept 10000 bps a) := by
  have hle := deduction_le (a := a) hbps
  unfold netFee ratio
  rw [if_pos (hle.trans ha), Option.bind_eq_bind, Option.bind_some, checkedSub, if_pos hle]
  rfl

theorem le_needed {s b t : ℕ} (hb : b < s) (ht : 0 < t) : t ≤ needed s b t :=
  ((le_kept_iff hb ht).2 le_rfl).trans kept_le

/-- The two overflow checks of a floored quotient and its successor are one. -/
theorem successor_eq (s b t : ℕ) :
    ((ratio (t - 1) s (s - b)).bind fun below => checkedAdd below 1) =
      if needed s b t ≤ u128Max then some (needed s b t) else none := by
  unfold ratio needed checkedAdd
  generalize (t - 1) * s / (s - b) = below
  by_cases hfits : below + 1 ≤ u128Max
  · have hbelow : below ≤ u128Max := by omega
    rw [if_pos hbelow, Option.bind_some, if_pos hfits]
  · rw [if_neg hfits]
    by_cases hbelow : below ≤ u128Max
    · rw [if_pos hbelow, Option.bind_some, if_neg hfits]
    · rw [if_neg hbelow]
      rfl

theorem inverseFee_eq (hbps : bps < 10000) (ht : 0 < target) : inverseFee target bps =
    if needed 10000 bps target ≤ u128Max then some (needed 10000 bps target) else none := by
  have hgo : ¬(target = 0 ∨ 10000 ≤ bps) := by omega
  unfold inverseFee
  rw [if_neg hgo]
  exact successor_eq 10000 bps target

end Fees

section Amounts

variable {w : WrapperSnapshot} {m : NativeMapping} {denom : String} {a rate cap target : ℕ}

theorem wrapCredit_eq (hfee : w.feeWrapBps < 10000) (ha : a ≤ u128Max) :
    w.wrapCredit a = (some (kept 10000 w.feeWrapBps a)).filter fun minted => 0 < minted := by
  unfold WrapperSnapshot.wrapCredit
  rw [netFee_eq hfee.le ha]

theorem mem_wraps (hfee : w.feeWrapBps < 10000) (ht : 0 < target) :
    a ∈ w.wraps target ↔ a ≤ u128Max ∧ needed 10000 w.feeWrapBps target ≤ a := by
  unfold WrapperSnapshot.wraps
  constructor
  · rintro ⟨ha, minted, hcredit, hle⟩
    rw [wrapCredit_eq hfee ha, Option.filter_eq_some_iff] at hcredit
    obtain ⟨hminted, -⟩ := hcredit
    cases hminted
    exact ⟨ha, (le_kept_iff hfee ht).1 hle⟩
  · rintro ⟨ha, hneeded⟩
    have hle := (le_kept_iff hfee ht).2 hneeded
    refine ⟨ha, _, ?_, hle⟩
    rw [wrapCredit_eq hfee ha, Option.filter_eq_some_iff]
    exact ⟨rfl, decide_eq_true (ht.trans_le hle)⟩

/-- The net and its base in closed form. -/
theorem unwrapAmounts_eq (hfee : w.feeUnwrapBps < 10000) (ha : a ≤ u128Max)
    (hrate : w.taxAtomics = some rate) (hlt : rate < scale) (hcap : m.taxCap = some cap) :
    w.unwrapAmounts m a =
      if 0 < keptCapped scale rate cap (kept 10000 w.feeUnwrapBps a) then
        some (keptCapped scale rate cap (kept 10000 w.feeUnwrapBps a), kept 10000 w.feeUnwrapBps a)
      else none := by
  have hbase : kept 10000 w.feeUnwrapBps a ≤ u128Max := kept_le.trans ha
  have hpart := deduction_le (a := kept 10000 w.feeUnwrapBps a) hlt.le
  have hratio : ratio (kept 10000 w.feeUnwrapBps a) rate scale =
      some (kept 10000 w.feeUnwrapBps a * rate / scale) := if_pos (hpart.trans hbase)
  have hsub : checkedSub (kept 10000 w.feeUnwrapBps a)
      (min (kept 10000 w.feeUnwrapBps a * rate / scale) cap) =
      some (keptCapped scale rate cap (kept 10000 w.feeUnwrapBps a)) :=
    if_pos ((min_le_left _ _).trans hpart)
  unfold WrapperSnapshot.unwrapAmounts
  rw [netFee_eq hfee.le ha, hrate, hcap]
  simp only [Option.bind_eq_bind, Option.bind_some, hratio, hsub]

/-- Without a rate, a mapping or a cap nothing is paid out. -/
theorem unwrapAmounts_some {out : ℕ × ℕ} (h : w.unwrapAmounts m a = some out) :
    (∃ rate, w.taxAtomics = some rate) ∧ ∃ cap, m.taxCap = some cap := by
  unfold WrapperSnapshot.unwrapAmounts at h
  obtain ⟨_, _, h⟩ := Option.bind_eq_some_iff.1 h
  obtain ⟨rate, hrate, h⟩ := Option.bind_eq_some_iff.1 h
  obtain ⟨_, _, h⟩ := Option.bind_eq_some_iff.1 h
  obtain ⟨cap, hcap, h⟩ := Option.bind_eq_some_iff.1 h
  exact ⟨⟨rate, hrate⟩, cap, hcap⟩

theorem mem_unwraps (hfee : w.feeUnwrapBps < 10000) (hrate : w.taxAtomics = some rate)
    (hlt : rate < scale) (hm : w.mappings denom = some m) (hcap : m.taxCap = some cap)
    (ht : 0 < target) : a ∈ w.unwraps denom target ↔
      a ≤ u128Max ∧ needed 10000 w.feeUnwrapBps (neededCapped scale rate cap target) ≤ a := by
  have hpos : 0 < neededCapped scale rate cap target := neededCapped_pos ht
  have hiff : needed 10000 w.feeUnwrapBps (neededCapped scale rate cap target) ≤ a ↔
      target ≤ keptCapped scale rate cap (kept 10000 w.feeUnwrapBps a) := by
    rw [le_keptCapped_iff hlt ht, le_kept_iff hfee hpos]
  rw [hiff]
  constructor
  · rintro ⟨ha, m', out, hm', hout, hle⟩
    obtain rfl : m = m' := Option.some.inj (hm.symm.trans hm')
    rw [unwrapAmounts_eq hfee ha hrate hlt hcap] at hout
    split_ifs at hout
    cases hout
    exact ⟨ha, hle⟩
  · rintro ⟨ha, hle⟩
    refine ⟨ha, m, (keptCapped scale rate cap (kept 10000 w.feeUnwrapBps a),
      kept 10000 w.feeUnwrapBps a), hm, ?_, hle⟩
    rw [unwrapAmounts_eq hfee ha hrate hlt hcap, if_pos (ht.trans_le hle)]

theorem smaller_eq (x y : ℕ) :
    WrapperSnapshot.smaller (if x ≤ u128Max then some x else none)
      (if y ≤ u128Max then some y else none) =
      if min x y ≤ u128Max then some (min x y) else none := by
  by_cases hx : x ≤ u128Max
  · rw [if_pos hx, if_pos ((min_le_left x y).trans hx)]
    by_cases hy : y ≤ u128Max
    · rw [if_pos hy]
      rfl
    · have hle : x ≤ y := by omega
      rw [if_neg hy, min_eq_left hle]
      rfl
  · rw [if_neg hx]
    by_cases hy : y ≤ u128Max
    · have hle : y ≤ x := by omega
      rw [if_pos hy, min_eq_right hle, if_pos hy]
      rfl
    · have hmin : ¬min x y ≤ u128Max := by omega
      rw [if_neg hy, if_neg hmin]
      rfl

/-- The smaller of the two closed forms, sent through the inverse of the fee. An uncapped quotient
that overflows gives no answer. -/
theorem inverseChain_eq {s bps : ℕ} (hbps : bps < 10000) (ht : 0 < target) :
    ((ratio (target - 1) s (s - rate)).bind fun below =>
      (WrapperSnapshot.smaller (checkedAdd below 1) (checkedAdd target cap)).bind fun base =>
        inverseFee base bps) =
      if (target - 1) * s / (s - rate) ≤ u128Max ∧
          needed 10000 bps (neededCapped s rate cap target) ≤ u128Max then
        some (needed 10000 bps (neededCapped s rate cap target))
      else none := by
  have hpos : 0 < neededCapped s rate cap target := neededCapped_pos ht
  by_cases hbelow : (target - 1) * s / (s - rate) ≤ u128Max
  · have hratio : ratio (target - 1) s (s - rate) = some ((target - 1) * s / (s - rate)) :=
      if_pos hbelow
    have huncapped : checkedAdd ((target - 1) * s / (s - rate)) 1 =
        if needed s rate target ≤ u128Max then some (needed s rate target) else none := rfl
    have hcapped : checkedAdd target cap =
        if target + cap ≤ u128Max then some (target + cap) else none := rfl
    have hmin : min (needed s rate target) (target + cap) = neededCapped s rate cap target := rfl
    rw [hratio, Option.bind_some, huncapped, hcapped, smaller_eq, hmin]
    simp only [hbelow, true_and]
    by_cases hfits : neededCapped s rate cap target ≤ u128Max
    · rw [if_pos hfits, Option.bind_some, inverseFee_eq hbps hpos]
    · have hwide : ¬needed 10000 bps (neededCapped s rate cap target) ≤ u128Max :=
        fun hle => hfits ((le_needed hbps hpos).trans hle)
      rw [if_neg hfits, if_neg hwide]
      rfl
  · have hratio : ratio (target - 1) s (s - rate) = none := if_neg hbelow
    rw [hratio, if_neg fun hboth => hbelow hboth.1]
    rfl

theorem inverseUnwrap_eq (hfee : w.feeUnwrapBps < 10000) (hrate : w.taxAtomics = some rate)
    (hlt : rate < scale) (hm : w.mappings denom = some m) (hcap : m.taxCap = some cap)
    (ht : 0 < target) : w.inverseUnwrap denom target =
      if (target - 1) * scale / (scale - rate) ≤ u128Max ∧
          needed 10000 w.feeUnwrapBps (neededCapped scale rate cap target) ≤ u128Max then
        some (needed 10000 w.feeUnwrapBps (neededCapped scale rate cap target))
      else none := by
  unfold WrapperSnapshot.inverseUnwrap
  rw [if_neg ht.ne', hrate, Option.bind_eq_bind, Option.bind_some, if_neg (not_le.2 hlt), hm,
    Option.bind_eq_bind, Option.bind_some, hcap, Option.bind_some]
  exact inverseChain_eq hfee ht

/-- Once the uncapped quotient overflows, only the capped form can be representable. -/
theorem capped_of_overflow {s bps : ℕ} (hbps : bps < 10000) (ht : 0 < target)
    (hover : u128Max < (target - 1) * s / (s - rate)) :
    needed 10000 bps (neededCapped s rate cap target) ≤ u128Max ↔
      needed 10000 bps (target + cap) ≤ u128Max := by
  constructor
  · intro hle
    have hmin : min (needed s rate target) (target + cap) ≤ u128Max :=
      (le_needed hbps (neededCapped_pos ht)).trans hle
    have hwide : u128Max < needed s rate target := hover.trans (Nat.lt_succ_self _)
    have hcapped : neededCapped s rate cap target = target + cap := by
      unfold neededCapped
      omega
    rwa [hcapped] at hle
  · exact (needed_mono (min_le_right _ _)).trans

theorem inverseWrap_exact (hfee : w.feeWrapBps < 10000) (ht : 0 < target) :
    Exact (w.inverseWrap target) (w.wraps target) := by
  unfold WrapperSnapshot.inverseWrap
  rw [inverseFee_eq hfee ht]
  exact exact_of_threshold fun a => mem_wraps hfee ht

theorem inverseUnwrap_some (h : w.inverseUnwrap denom target = some a) :
    ∃ rate m cap, w.taxAtomics = some rate ∧ w.mappings denom = some m ∧ m.taxCap = some cap := by
  unfold WrapperSnapshot.inverseUnwrap at h
  split_ifs at h
  obtain ⟨rate, hrate, h⟩ := Option.bind_eq_some_iff.1 h
  split_ifs at h
  obtain ⟨m, hm, h⟩ := Option.bind_eq_some_iff.1 h
  obtain ⟨cap, hcap, h⟩ := Option.bind_eq_some_iff.1 h
  exact ⟨rate, m, cap, hrate, hm, hcap⟩

/-- The inverse of the payout is exact but for the overflow; without a rate, a mapping or a cap
there is neither an inverse nor a payout. -/
theorem inverseUnwrap_exact_iff (hfee : w.feeUnwrapBps < 10000)
    (hrate : ∀ rate, w.taxAtomics = some rate → rate < scale) (ht : 0 < target) (denom : String) :
    Exact (w.inverseUnwrap denom target) (w.unwraps denom target) ↔
      ¬w.Overflows denom target := by
  by_cases htaxed : ∃ rate m cap, w.taxAtomics = some rate ∧ w.mappings denom = some m ∧
      m.taxCap = some cap
  · obtain ⟨rate, m, cap, htax, hm, hcap⟩ := htaxed
    have hlt := hrate rate htax
    rw [inverseUnwrap_eq hfee htax hlt hm hcap ht, exact_iff_of_threshold
      fun a => mem_unwraps hfee htax hlt hm hcap ht]
    constructor
    · rintro hfits ⟨rate', m', cap', hr, hm', hc, hover, hle⟩
      obtain rfl : rate = rate' := Option.some.inj (htax.symm.trans hr)
      obtain rfl : m = m' := Option.some.inj (hm.symm.trans hm')
      obtain rfl : cap = cap' := Option.some.inj (hcap.symm.trans hc)
      exact absurd (hfits ((capped_of_overflow hfee ht hover).2 hle)) (not_le.2 hover)
    · intro hno hle
      by_contra hover
      have hlost := (capped_of_overflow hfee ht (not_le.1 hover)).1 hle
      exact hno ⟨rate, m, cap, htax, hm, hcap, not_le.1 hover, hlost⟩
  · have hnone : w.inverseUnwrap denom target = none :=
      Option.eq_none_iff_forall_ne_some.2 fun a h => htaxed (inverseUnwrap_some h)
    have hempty : w.unwraps denom target = ∅ := by
      apply Set.eq_empty_of_forall_notMem
      rintro a ⟨-, m, out, hm, hout, -⟩
      obtain ⟨⟨rate, hr⟩, cap, hc⟩ := unwrapAmounts_some hout
      exact htaxed ⟨rate, m, cap, hr, hm, hc⟩
    rw [hnone, hempty]
    refine iff_of_true ⟨nofun, iff_of_true rfl rfl⟩ ?_
    rintro ⟨rate, m, cap, hr, hm, hc, -⟩
    exact htaxed ⟨rate, m, cap, hr, hm, hc⟩

end Amounts

section Payouts

variable {w : WrapperSnapshot} {denom : String} {now now' : ℤ} {a a' : ℕ} {out out' : Addr × ℕ × ℕ}

/-- A payout is admitted by the mapping, whose token it names. -/
theorem unwrapOutputDirect_eq_some : w.unwrapOutputDirect denom now a = some out ↔
    ∃ m, w.mapping denom now a = some m ∧ out.1 = m.cw20 ∧
      w.unwrapAmounts m a = some out.2 := by
  unfold WrapperSnapshot.unwrapOutputDirect
  simp only [Option.bind_eq_bind, Option.bind_eq_some_iff, Option.pure_def, Option.some.injEq]
  constructor
  · rintro ⟨m, hm, ⟨net, base⟩, hout, rfl⟩
    exact ⟨m, hm, rfl, hout⟩
  · rintro ⟨m, hm, hcw, hout⟩
    exact ⟨m, hm, out.2, hout, Prod.ext hcw.symm rfl⟩

theorem mapping_eq_some {m : NativeMapping} (h : w.mapping denom now a = some m) :
    w.mappings denom = some m := by
  unfold WrapperSnapshot.mapping at h
  split_ifs at h
  exact (Option.filter_eq_some_iff.1 h).1

/-- More wrapped tokens are never paid out less. -/
theorem unwrap_mono (hfee : w.feeUnwrapBps < 10000)
    (hrate : ∀ rate, w.taxAtomics = some rate → rate < scale) (hle : a ≤ a') (ha : a' ≤ u128Max)
    (h : w.unwrapOutputDirect denom now a = some out)
    (h' : w.unwrapOutputDirect denom now' a' = some out') : out.2.1 ≤ out'.2.1 := by
  obtain ⟨m, hm, -, hout⟩ := unwrapOutputDirect_eq_some.1 h
  obtain ⟨m', hm', -, hout'⟩ := unwrapOutputDirect_eq_some.1 h'
  have hsame := (mapping_eq_some hm).symm.trans (mapping_eq_some hm')
  obtain rfl : m = m' := Option.some.inj hsame
  obtain ⟨⟨rate, htax⟩, cap, hcap⟩ := unwrapAmounts_some hout
  have hlt := hrate rate htax
  rw [unwrapAmounts_eq hfee (hle.trans ha) htax hlt hcap] at hout
  rw [unwrapAmounts_eq hfee ha htax hlt hcap] at hout'
  split_ifs at hout hout'
  have hnet := congrArg Prod.fst (Option.some.inj hout)
  have hnet' := congrArg Prod.fst (Option.some.inj hout')
  rw [← hnet, ← hnet']
  exact keptCapped_mono hlt (kept_mono hfee hle)

/-- A credit is minted by the wrap of an amount that its mapping admits. -/
theorem wrapCredit_of_input {credit : Addr × ℕ} (h : w.wrapInput denom now a = some credit) :
    w.wrapCredit a = some credit.2 := by
  unfold WrapperSnapshot.wrapInput at h
  obtain ⟨m, _, h⟩ := Option.bind_eq_some_iff.1 h
  obtain ⟨minted, hminted, h⟩ := Option.bind_eq_some_iff.1 h
  cases h
  exact hminted

/-- An exact inverse asks for no more than any amount that reaches the target. -/
theorem Exact.le_of_mem {answer : Option ℕ} {S : Set ℕ} (h : Exact answer S) (ha : a ∈ S) :
    ∃ least, answer = some least ∧ least ≤ a := by
  cases hanswer : answer with
  | none =>
      rw [h.missing.1 hanswer] at ha
      exact ha.elim
  | some least => exact ⟨least, rfl, (h.least least hanswer).2 ha⟩

/-- The wallet floor, converted back, is covered by every route output that already meets it. -/
theorem inverse_le_output {floor : ℕ} (ha : a ≤ u128Max)
    (hexact : Exact (w.inverseUnwrap denom floor) (w.unwraps denom floor))
    (h : w.unwrapOutput denom now a = some out) (hmeets : floor ≤ out.2.1) :
    ∃ wrapped, w.inverseUnwrap denom floor = some wrapped ∧ wrapped ≤ a := by
  unfold WrapperSnapshot.unwrapOutput at h
  split_ifs at h
  obtain ⟨m, hm, -, hout⟩ := unwrapOutputDirect_eq_some.1 h
  exact hexact.le_of_mem ⟨ha, m, out.2, mapping_eq_some hm, hout, hmeets⟩

end Payouts

section Exact

variable {w : WrapperSnapshot} {target : ℕ}

/-- The wrapper is inverted at a target exactly when the uncapped quotient of no denomination
overflows although the capped form is representable. -/
theorem wrapper_inverses_iff (hwrap : w.feeWrapBps < 10000) (hunwrap : w.feeUnwrapBps < 10000)
    (hrate : ∀ rate, w.taxAtomics = some rate → rate < scale) (ht : 0 < target) :
    w.Inverts target ↔ ∀ denom, ¬w.Overflows denom target := by
  constructor
  · intro h denom
    exact (inverseUnwrap_exact_iff hunwrap hrate ht denom).1 (h.unwrap denom)
  · intro hfits
    have hexact := inverseWrap_exact hwrap ht
    have hexacts : ∀ denom, Exact (w.inverseUnwrap denom target) (w.unwraps denom target) :=
      fun denom => (inverseUnwrap_exact_iff hunwrap hrate ht denom).2 (hfits denom)
    exact {
      wrap := hexact
      unwrap := hexacts
      monotone := fun _ _ _ _ _ _ _ hle ha h h' => unwrap_mono hunwrap hrate hle ha h h'
      credit := fun _ _ _ _ ha h hmeets =>
        hexact.le_of_mem ⟨ha, _, wrapCredit_of_input h, hmeets⟩
      floor := fun denom _ _ _ ha h hmeets => inverse_le_output ha (hexacts denom) h hmeets }

/-- A fee of 0.5 % to unwrap and a tax of 1 % of at most 30. -/
def sampleWrapper : WrapperSnapshot where
  observedAtMs := 0
  mappings denom := if denom = "uluna" then some ⟨5, none, 0, some 30⟩ else none
  feeWrapBps := 30
  feeUnwrapBps := 50
  taxAtomics := some (10 ^ 16)
  routerUnwrapSupported := some true

theorem wrapper_inverses_sample : IsLeast (sampleWrapper.wraps 1000) 1003 ∧
    IsLeast (sampleWrapper.unwraps "uluna" 9000) 9075 := by
  have hwrap : sampleWrapper.inverseWrap 1000 = some 1003 := by decide +kernel
  have hunwrap : sampleWrapper.inverseUnwrap "uluna" 9000 = some 9075 := by decide +kernel
  have hrate : ∀ rate, sampleWrapper.taxAtomics = some rate → rate < scale := by
    rintro _ ⟨⟩
    decide
  have hfits : ∀ target ≤ 9000, ∀ denom, ¬sampleWrapper.Overflows denom target := by
    rintro target hle denom ⟨_, m, cap, ⟨⟩, -, -, hover, -⟩
    have hsmall : (target - 1) * scale / (scale - 10 ^ 16) ≤ 9000 * scale :=
      (Nat.div_le_self _ _).trans (Nat.mul_le_mul_right _ ((Nat.sub_le _ _).trans hle))
    have hbound : 9000 * scale ≤ u128Max := by decide
    exact absurd (hsmall.trans hbound) (not_le.2 hover)
  constructor
  · have h := (wrapper_inverses_iff (by decide) (by decide) hrate (by decide)).2
      (hfits 1000 (by decide))
    exact h.wrap.least _ hwrap
  · have h := (wrapper_inverses_iff (by decide) (by decide) hrate (by decide)).2
      (hfits 9000 le_rfl)
    exact (h.unwrap _).least _ hunwrap

/-- No fee, and a tax of one half of at most 30. -/
def halvedWrapper : WrapperSnapshot where
  observedAtMs := 0
  mappings denom := if denom = "uluna" then some ⟨5, none, 0, some 30⟩ else none
  feeWrapBps := 0
  feeUnwrapBps := 0
  taxAtomics := some (5 * 10 ^ 17)
  routerUnwrapSupported := some true

/-- Twice the target is not representable, though the target and the capped tax are. -/
theorem wrapper_inverses_overflow : halvedWrapper.inverseUnwrap "uluna" (2 ^ 127 + 1) = none ∧
    halvedWrapper.unwrapOutput "uluna" 0 (2 ^ 127 + 31) = some (5, 2 ^ 127 + 1, 2 ^ 127 + 31) ∧
    ¬halvedWrapper.Inverts (2 ^ 127 + 1) := by
  have hnone : halvedWrapper.inverseUnwrap "uluna" (2 ^ 127 + 1) = none := by decide +kernel
  have hpaid : halvedWrapper.unwrapOutput "uluna" 0 (2 ^ 127 + 31) =
      some (5, 2 ^ 127 + 1, 2 ^ 127 + 31) := by decide +kernel
  refine ⟨hnone, hpaid, fun h => ?_⟩
  obtain ⟨wrapped, hwrapped, -⟩ := h.floor "uluna" 0 _ _ (by decide) hpaid le_rfl
  rw [hnone] at hwrapped
  cases hwrapped

end Exact

end Cl8yDex.Wrapper
