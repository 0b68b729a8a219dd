import Cl8yDex.LocalHooks

/-!
# The inverse of the hooks is the first reaching output

When some output of 128 bits from the bound on leaves the target, the inverse finds the first such
output, and otherwise none. Fees above the whole output stop both directions.
-/

namespace Cl8yDex.LocalQuote

open Outcome

section Found

variable {h : HookInverse} {lower target height start r : ℕ}

/-- A residue that is found keeps the target. -/
theorem first_reaches (hsome : h.first lower target height start = some r) :
    target ≤ h.kept r := by
  induction height generalizing start with
  | zero =>
    unfold HookInverse.first at hsome
    split_ifs at hsome with hskip
    cases hsome
    rw [HookInverse.maxima] at hskip
    omega
  | succ height ih =>
    rw [HookInverse.first] at hsome
    split_ifs at hsome with hskip
    rcases Option.or_eq_some_iff.1 hsome with hleft | ⟨-, hright⟩
    · exact ih hleft
    · exact ih hright

theorem exists_maxima (height start : ℕ) : ∃ r, h.kept r = h.maxima height start := by
  induction height generalizing start with
  | zero => exact ⟨start, rfl⟩
  | succ height ih =>
    obtain ⟨left, hleft⟩ := ih start
    obtain ⟨right, hright⟩ := ih (start + 2 ^ height)
    rw [HookInverse.maxima, ← hleft, ← hright]
    rcases Nat.le_total (h.kept left) (h.kept right) with hle | hle
    · exact ⟨right, (max_eq_right hle).symm⟩
    · exact ⟨left, (max_eq_left hle).symm⟩

theorem first_isSome (hr : r < 10000) (hlower : lower ≤ r) (hkept : target ≤ h.kept r) :
    (h.first lower target treeHeight 0).isSome = true := by
  cases hfirst : h.first lower target treeHeight 0 with
  | some residue => rfl
  | none =>
    have hlt : r < 2 ^ treeHeight := hr.trans (by decide)
    have hless := first_eq_none hfirst (Nat.zero_le r) (by rwa [Nat.zero_add]) hlower hr
    exact absurd hkept (not_le.2 hless)

/-- Without a bound, some residue keeps the most that the tree holds. -/
theorem first_isSome_of_le_maxima (hnone : ∀ r, 10000 ≤ r → h.kept r = 0)
    (htarget : target ≤ h.maxima treeHeight 0) :
    (h.first 0 target treeHeight 0).isSome = true := by
  obtain ⟨residue, hresidue⟩ := exists_maxima (h := h) treeHeight 0
  rw [← hresidue] at htarget
  by_cases hlt : residue < 10000
  · exact first_isSome hlt (Nat.zero_le residue) htarget
  · rw [hnone residue (not_lt.1 hlt)] at htarget
    exact first_isSome (by decide : 0 < 10000) (Nat.zero_le 0)
      (htarget.trans (Nat.zero_le _))

end Found

section Gross

variable {fees : List ℕ} {target lower n g q r : ℕ}

/-- The period and the residues of fees. -/
def inverseOf (fees : List ℕ) : HookInverse := ⟨10000 - fees.sum, keptResidue fees⟩

theorem keptResidue_beyond (h : 10000 ≤ r) : (inverseOf fees).kept r = 0 := if_neg (by omega)

/-- What an output leaves, by its quotient and its residue. -/
theorem kept_eq (hsum : fees.sum ≤ 10000) (n : ℕ) :
    kept fees n = n / 10000 * (10000 - fees.sum) + keptResidue fees (n % 10000) := by
  rw [← kept_period hsum (Nat.mod_lt n (by decide)), Nat.div_add_mod]

theorem assemble_of_le (h : 10000 * q + r ≤ u128Max) :
    HookInverse.assemble q r = some (10000 * q + r) := by
  unfold HookInverse.assemble
  have hmul : checkedMul q 10000 = some (q * 10000) := checkedMul_eq_some.2 ⟨by omega, rfl⟩
  rw [hmul, Option.bind_eq_bind, Option.bind_some, Nat.mul_comm q]
  exact checkedAdd_eq_some.2 ⟨h, rfl⟩

theorem assemble_le (h : HookInverse.assemble q r = some g) : g ≤ u128Max := by
  obtain ⟨whole, -, hadd⟩ := Option.bind_eq_some_iff.1 h
  obtain ⟨hle, rfl⟩ := checkedAdd_eq_some.1 hadd
  exact hle

theorem checkedMul_of_le (fees : List ℕ) (hq : q ≤ n / 10000) (hn : n ≤ u128Max) :
    checkedMul q (10000 - fees.sum) = some (q * (10000 - fees.sum)) := by
  apply checkedMul_eq_some.2
  refine ⟨?_, rfl⟩
  have hdiv : n / 10000 * 10000 ≤ n := Nat.div_mul_le_self n 10000
  calc q * (10000 - fees.sum) ≤ q * 10000 := Nat.mul_le_mul_left q (Nat.sub_le _ _)
    _ ≤ n / 10000 * 10000 := Nat.mul_le_mul_right 10000 hq
    _ ≤ u128Max := hdiv.trans hn

/-- A first quotient exists when some output reaches the target, and then its residues do. -/
theorem firstQuotient_of_reach (hsum : fees.sum ≤ 10000) (hreach : target ≤ kept fees n) :
    ∃ first, (inverseOf fees).firstQuotient target = some first ∧ first ≤ n / 10000 ∧
      target ≤ first * (10000 - fees.sum) + (inverseOf fees).maxima treeHeight 0 := by
  have hn := hreach
  rw [kept_eq hsum] at hn
  have hlt : n % 10000 < 10000 := Nat.mod_lt n (by decide)
  have hmax : (inverseOf fees).kept (n % 10000) ≤ (inverseOf fees).maxima treeHeight 0 :=
    kept_le_maxima (Nat.zero_le _) (hlt.trans (by decide))
  have hbound := @firstQuotient_le (inverseOf fees) target (n / 10000) (n % 10000)
  have hkept : target ≤ n / 10000 * (inverseOf fees).retainedBps +
      (inverseOf fees).kept (n % 10000) := hn
  unfold HookInverse.firstQuotient at hbound ⊢
  generalize (inverseOf fees).maxima treeHeight 0 = most at hmax hbound ⊢
  by_cases henough : target ≤ most
  · rw [if_pos henough]
    exact ⟨0, rfl, Nat.zero_le _, by omega⟩
  · rw [if_neg henough] at hbound ⊢
    by_cases hz : (inverseOf fees).retainedBps = 0
    · rw [hz, Nat.mul_zero] at hkept
      omega
    · rw [if_neg hz] at hbound ⊢
      refine ⟨_, rfl, hbound rfl hlt hkept, ?_⟩
      change target ≤ _ * (inverseOf fees).retainedBps + most
      generalize (inverseOf fees).retainedBps = retained at hz ⊢
      have hdivmod := Nat.div_add_mod (target - most) retained
      have hmod : (target - most) % retained < retained := Nat.mod_lt _ (by omega)
      rw [Nat.add_mul, Nat.mul_comm _ retained]
      split
      · rw [Nat.one_mul]
        omega
      · rw [Nat.zero_mul]
        omega

/-- The answer leaves the target and has 128 bits. -/
theorem grossFrom_reaches (hsum : fees.sum ≤ 10000)
    (hg : (inverseOf fees).grossFrom target lower = some g) :
    g ≤ u128Max ∧ target ≤ kept fees g := by
  have hfound : ∀ q r start paid, checkedMul q (10000 - fees.sum) = some paid →
      (inverseOf fees).first start (target - paid) treeHeight 0 = some r →
      HookInverse.assemble q r = some g → g ≤ u128Max ∧ target ≤ kept fees g := by
    intro q r start paid hpaid hfirst hassemble
    obtain ⟨-, hpaid⟩ := checkedMul_eq_some.1 hpaid
    obtain ⟨-, -, -, hlt, -⟩ := first_eq_some hfirst
    have hkept : target - paid ≤ keptResidue fees r := first_reaches hfirst
    refine ⟨assemble_le hassemble, ?_⟩
    rw [assemble_eq_some hassemble, kept_period hsum hlt]
    omega
  obtain ⟨-, -, hg⟩ := Option.bind_eq_some_iff.1 hg
  obtain ⟨first, -, hg⟩ := Option.bind_eq_some_iff.1 hg
  dsimp only at hg
  obtain ⟨paid, hpaid, hg⟩ := Option.bind_eq_some_iff.1 hg
  split at hg
  · rename_i residue hresidue
    exact hfound _ _ _ _ hpaid hresidue hg
  · obtain ⟨next, -, hg⟩ := Option.bind_eq_some_iff.1 hg
    obtain ⟨paidNext, hpaidNext, hg⟩ := Option.bind_eq_some_iff.1 hg
    obtain ⟨residue, hresidue, hg⟩ := Option.bind_eq_some_iff.1 hg
    exact hfound _ _ _ _ hpaidNext hresidue hg

/-- An output of 128 bits that leaves the target makes the inverse find one. -/
theorem grossFrom_isSome (hsum : fees.sum ≤ 10000) (htarget : 0 < target) (hlower : lower ≤ n)
    (hn : n ≤ u128Max) (hreach : target ≤ kept fees n) :
    ((inverseOf fees).grossFrom target lower).isSome = true := by
  obtain ⟨first, hfirst, hle, hmost⟩ := firstQuotient_of_reach hsum hreach
  have hq : max first (lower / 10000) ≤ n / 10000 :=
    max_le hle (Nat.div_le_div_right hlower)
  have hlt : n % 10000 < 10000 := Nat.mod_lt n (by decide)
  have hdigits := Nat.div_add_mod n 10000
  have hkept : target ≤ n / 10000 * (10000 - fees.sum) + (inverseOf fees).kept (n % 10000) := by
    rw [kept_eq hsum] at hreach
    exact hreach
  have hguard : (guard (target ≠ 0) : Option Unit) = some () :=
    if_pos (Nat.pos_iff_ne_zero.1 htarget)
  have hpaid := checkedMul_of_le fees hq hn
  unfold HookInverse.grossFrom
  rw [hguard, hfirst]
  simp only [Option.bind_eq_bind, Option.bind_some]
  have hstart : max first (lower / 10000) = n / 10000 →
      (if max first (lower / 10000) = lower / 10000 then lower % 10000 else 0) ≤
        n % 10000 := by
    intro hsame
    split_ifs with heq
    · have hlow := Nat.div_add_mod lower 10000
      omega
    · exact Nat.zero_le _
  have hfirstle : first ≤ max first (lower / 10000) := le_max_left _ _
  generalize max first (lower / 10000) = q at hq hpaid hstart hfirstle ⊢
  change checkedMul q (inverseOf fees).retainedBps = _ at hpaid
  rw [hpaid]
  dsimp only [Option.bind_some]
  have hmeets : q = n / 10000 →
      target - q * (10000 - fees.sum) ≤ (inverseOf fees).kept (n % 10000) := by
    intro hsame
    rw [hsame]
    omega
  cases hres : (inverseOf fees).first (if q = lower / 10000 then lower % 10000 else 0)
      (target - q * (10000 - fees.sum)) treeHeight 0 with
  | some residue =>
    obtain ⟨-, -, -, hless, hleast⟩ := first_eq_some hres
    have hfits : 10000 * q + residue ≤ n := by
      by_cases hsame : q = n / 10000
      · have hresidue := hleast (n % 10000) (Nat.zero_le _) (hstart hsame) hlt (hmeets hsame)
        omega
      · omega
    dsimp only
    rw [assemble_of_le (hfits.trans hn)]
    rfl
  | none =>
    have hother : q ≠ n / 10000 := by
      intro hsame
      have hsome := first_isSome hlt (hstart hsame) (hmeets hsame)
      rw [hres] at hsome
      cases hsome
    have hnext : q + 1 ≤ n / 10000 := by omega
    have hpaidNext := checkedMul_of_le fees hnext hn
    have hmax : target - (q + 1) * (10000 - fees.sum) ≤
        (inverseOf fees).maxima treeHeight 0 := by
      have hless : first * (10000 - fees.sum) ≤ (q + 1) * (10000 - fees.sum) :=
        Nat.mul_le_mul_right _ (by omega)
      omega
    have hsome := first_isSome_of_le_maxima (fun r hr => keptResidue_beyond hr) hmax
    obtain ⟨residue, hresidue⟩ := Option.isSome_iff_exists.1 hsome
    obtain ⟨-, -, -, hless, hleast⟩ := first_eq_some hresidue
    have hfits : 10000 * (q + 1) + residue ≤ n := by
      by_cases hsame : q + 1 = n / 10000
      · have hreaches : target - (q + 1) * (10000 - fees.sum) ≤
            (inverseOf fees).kept (n % 10000) := by
          rw [hsame]
          omega
        have hle' := hleast (n % 10000) (Nat.zero_le _) (Nat.zero_le _) hlt hreaches
        omega
      · omega
    have hadd : checkedAdd q 1 = some (q + 1) := checkedAdd_eq_some.2 ⟨by omega, rfl⟩
    change checkedMul (q + 1) (inverseOf fees).retainedBps = _ at hpaidNext
    dsimp only
    unfold HookInverse.grossAfter
    rw [hadd]
    simp only [Option.bind_eq_bind, Option.bind_some, hpaidNext, hresidue]
    rw [assemble_of_le (hfits.trans hn)]
    rfl

end Gross

section Net

variable {fees : List ℕ} {original totalBps total n m : ℕ} {hooks : CachedHookPrices} {ask : Addr}

theorem netLoop_ok (horiginal : original ≤ u128Max) (hbps : totalBps + fees.sum ≤ 10000)
    (htotal : total + (fees.map fun f => original * f / 10000).sum ≤ original) :
    netLoop original fees totalBps total =
      .ok (original - (total + (fees.map fun f => original * f / 10000).sum)) := by
  induction fees generalizing totalBps total with
  | nil =>
    rw [List.map_nil, List.sum_nil, Nat.add_zero] at htotal ⊢
    rw [netLoop, orThrow_eq_ok, checkedSub_eq_some]
    exact ⟨htotal, rfl⟩
  | cons bps fees ih =>
    rw [List.sum_cons] at hbps
    rw [List.map_cons, List.sum_cons] at htotal ⊢
    have hadd : checkedAdd total (hookAmount original bps) =
        some (total + original * bps / 10000) := by
      rw [hookAmount_eq]
      exact checkedAdd_eq_some.2 ⟨by omega, rfl⟩
    rw [netLoop, ensure_pos (by omega), ok_bind, hadd]
    change netLoop original fees (totalBps + bps) (total + original * bps / 10000) = _
    rw [ih (by omega) (by omega), Nat.add_assoc]

/-- The hooks leave something of every output unless they charge more than all of it. -/
theorem netReturn_iff (hn : n ≤ u128Max) :
    hooks.netReturn ask n = .ok m ↔
      (hooks.fees ask).sum ≤ 10000 ∧ m = kept (hooks.fees ask) n := by
  constructor
  · exact netReturn_eq_ok
  · intro ⟨hsum, hm⟩
    have hfloors := floors_le_self hsum n
    rw [hm, CachedHookPrices.netReturn, netLoop_ok hn (by omega) (by omega), Nat.zero_add]
    rfl

/-- The outputs from a bound on that leave the target, of 128 bits. -/
def CachedHookPrices.reaching (hooks : CachedHookPrices) (ask : Addr) (target lower : ℕ) : Set ℕ :=
  {n | lower ≤ n ∧ n ≤ u128Max ∧ ∃ m, hooks.netReturn ask n = .ok m ∧ target ≤ m}

theorem mem_reaching (hsum : (hooks.fees ask).sum ≤ 10000) {target lower : ℕ} :
    n ∈ hooks.reaching ask target lower ↔
      lower ≤ n ∧ n ≤ u128Max ∧ target ≤ kept (hooks.fees ask) n := by
  constructor
  · rintro ⟨hlower, hn, m, hm, htarget⟩
    rw [((netReturn_iff hn).1 hm).2] at htarget
    exact ⟨hlower, hn, htarget⟩
  · rintro ⟨hlower, hn, htarget⟩
    exact ⟨hlower, hn, _, (netReturn_iff hn).2 ⟨hsum, rfl⟩, htarget⟩

end Net

/-- With fees of at most the whole output the inverse is the least output, of 128 bits and not
below the bound, that leaves the target, and none when there is no such output. With higher fees
nothing is computed in either direction. -/
theorem hook_inverse_first_reaching (hooks : CachedHookPrices) (ask : Addr) (target lower : ℕ)
    (htarget : 0 < target) :
    ((hooks.fees ask).sum ≤ 10000 → ∃ p, HookInverse.build (hooks.fees ask) = some p ∧
      (∀ g, p.grossFrom target lower = some g ↔ IsLeast (hooks.reaching ask target lower) g) ∧
      (p.grossFrom target lower = none ↔ hooks.reaching ask target lower = ∅)) ∧
    (10000 < (hooks.fees ask).sum → HookInverse.build (hooks.fees ask) = none ∧
      (∃ e, hooks.inverseReturnFrom ask target lower = .error e) ∧
      ∀ n, ∃ e, hooks.netReturn ask n = .error e) := by
  constructor
  · intro hsum
    have hbuild : HookInverse.build (hooks.fees ask) = some (inverseOf (hooks.fees ask)) := by
      unfold HookInverse.build
      rw [checkedSub_eq_some.2 ⟨hsum, rfl⟩]
      rfl
    have hleast : ∀ g, (inverseOf (hooks.fees ask)).grossFrom target lower = some g →
        IsLeast (hooks.reaching ask target lower) g := by
      intro g hg
      obtain ⟨hle, hfirst⟩ := grossFrom_bound hsum hg
      obtain ⟨hg128, hreaches⟩ := grossFrom_reaches hsum hg
      constructor
      · exact (mem_reaching hsum).2 ⟨hle, hg128, hreaches⟩
      · intro n hn
        obtain ⟨hlower, -, hnet⟩ := (mem_reaching hsum).1 hn
        exact hfirst n hlower hnet
    have hfound : ∀ n ∈ hooks.reaching ask target lower,
        ∃ g, (inverseOf (hooks.fees ask)).grossFrom target lower = some g := by
      intro n hn
      obtain ⟨hlower, hn128, hnet⟩ := (mem_reaching hsum).1 hn
      exact Option.isSome_iff_exists.1 (grossFrom_isSome hsum htarget hlower hn128 hnet)
    refine ⟨_, hbuild, ?_, ?_⟩
    · intro g
      refine ⟨hleast g, fun hg => ?_⟩
      obtain ⟨g', hg'⟩ := hfound g hg.1
      rw [hg', (hleast g' hg').unique hg]
    · constructor
      · intro hnone
        apply Set.eq_empty_of_forall_notMem
        intro n hn
        obtain ⟨g, hg⟩ := hfound n hn
        rw [hnone] at hg
        cases hg
      · intro hempty
        cases hgross : (inverseOf (hooks.fees ask)).grossFrom target lower with
        | none => rfl
        | some g =>
          have hmem := (hleast g hgross).1
          rw [hempty] at hmem
          exact hmem.elim
  · intro hsum
    have hbuild : HookInverse.build (hooks.fees ask) = none := by
      unfold HookInverse.build
      have hsub : checkedSub 10000 (hooks.fees ask).sum = none := if_neg (by omega)
      rw [hsub]
      rfl
    refine ⟨hbuild, ?_, ?_⟩
    · unfold CachedHookPrices.inverseReturnFrom
      rw [if_neg (by intro hnil; rw [hnil] at hsum; cases hsum), hbuild]
      exact ⟨_, rfl⟩
    · intro n
      cases hnet : hooks.netReturn ask n with
      | ok m => exact absurd (netReturn_eq_ok hnet).1 (by omega)
      | error e => exact ⟨e, rfl⟩

/-- Three hooks of a third each: four units leave one, and three leave three. -/
theorem hook_inverse_first_reaching_sample :
    let hooks : CachedHookPrices := ⟨[⟨1, 3333⟩, ⟨1, 3333⟩, ⟨1, 3333⟩]⟩
    ∃ p, HookInverse.build (hooks.fees 1) = some p ∧
      ∀ g, p.grossFrom 3 0 = some g ↔ IsLeast (hooks.reaching 1 3 0) g := by
  intro hooks
  obtain ⟨p, hp, hleast, -⟩ := (hook_inverse_first_reaching hooks 1 3 0 (by decide)).1 (by decide)
  exact ⟨p, hp, hleast⟩

end Cl8yDex.LocalQuote
