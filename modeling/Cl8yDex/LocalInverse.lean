import Cl8yDex.LocalPool

/-!
# The exact-output search on one hop

A hop's level is its pool output before the hooks. The search proposes the least offer of the next
level in question, and skips a level whose delivery falls short, so it ends at the first offer that
delivers.
-/

namespace Cl8yDex.LocalQuote

open Outcome FirstReaching Router

variable {wide : WideDivision}

section Hop

variable {leg : PoolLeg} {target lower gross o : ℕ}

/-- The pool output of a machine-sized offer, before the hooks. -/
def PoolLeg.level (wide : WideDivision) (leg : PoolLeg) (gross : ℕ) : Option ℕ :=
  if gross ≤ u128Max then (sell gross leg.sellBps).bind fun sold => leg.original wide sold.1
  else none

/-- The level leaves at least the target after the hooks and the purchase tax. -/
def PoolLeg.Delivers (leg : PoolLeg) (target o : ℕ) : Prop :=
  ∃ d, leg.delivered o = some d ∧ target ≤ d

theorem PoolLeg.delivered_eq_some {d : ℕ} (h : leg.delivered o = some d) :
    ∃ post b, leg.postHook o = some post ∧ buy post leg.buyBps = some b ∧ d = b.1 := by
  obtain ⟨post, hpost, h⟩ := Option.bind_eq_some_iff.1 h
  obtain ⟨b, hb, h⟩ := Option.bind_eq_some_iff.1 h
  cases h
  exact ⟨post, b, hpost, hb, rfl⟩

theorem PoolLeg.postHook_le {post : ℕ} (h : leg.postHook o = some post) : post ≤ o := by
  unfold PoolLeg.postHook at h
  cases hhooks : leg.hooks with
  | none =>
      rw [hhooks] at h
      cases h
      exact le_rfl
  | some hooks =>
      rw [hhooks] at h
      rw [(netReturn_eq_ok (toOption_eq_some.1 h)).2]
      exact Nat.sub_le _ _

theorem PoolLeg.delivered_le {d : ℕ} (h : leg.delivered o = some d) : d ≤ o := by
  obtain ⟨post, b, hpost, hb, rfl⟩ := PoolLeg.delivered_eq_some h
  rw [(buy_eq_some hb).2]
  exact (Nat.sub_le _ _).trans (PoolLeg.postHook_le hpost)

/-- The level that the hooks and the purchase tax ask for bounds every level that delivers. -/
theorem PoolLeg.originalTarget_bound {post n : ℕ} (hpost : inverseBuy target leg.buyBps = some post)
    (hn : leg.originalTarget post lower = some n) :
    lower ≤ n ∧ ∀ o, lower ≤ o → leg.Delivers target o → n ≤ o := by
  unfold PoolLeg.originalTarget at hn
  cases hhooks : leg.hooks with
  | none =>
      rw [hhooks] at hn
      cases hn
      refine ⟨le_max_right _ _, ?_⟩
      rintro o hlower ⟨d, hd, hreach⟩
      obtain ⟨left, b, hleft, hb, rfl⟩ := PoolLeg.delivered_eq_some hd
      apply max_le _ hlower
      exact (inverseBuy_bound hpost hb hreach).trans (PoolLeg.postHook_le hleft)
  | some hooks =>
      rw [hhooks] at hn
      obtain ⟨hle, hbound⟩ := inverseReturnFrom_bound (toOption_eq_some.1 hn)
      refine ⟨hle, ?_⟩
      rintro o hlower ⟨d, hd, hreach⟩
      obtain ⟨left, b, hleft, hb, rfl⟩ := PoolLeg.delivered_eq_some hd
      unfold PoolLeg.postHook at hleft
      rw [hhooks] at hleft
      exact hbound o left hlower (toOption_eq_some.1 hleft) (inverseBuy_bound hpost hb hreach)

/-- The proposed offer reaches the lower bound, and no offer that delivers is smaller. -/
theorem PoolLeg.proposal_bound {post e : ℕ} (hf : leg.Funded)
    (hpost : inverseBuy target leg.buyBps = some post)
    (he : leg.proposal post lower = .ok e) (ho : leg.original wide e = some o) :
    lower ≤ o ∧ e ∈ lowerBounds (good (leg.original wide) (leg.Delivers target) lower) := by
  obtain ⟨n, hn, he⟩ := bind_eq_ok.1 he
  obtain ⟨_, -, he⟩ := bind_eq_ok.1 he
  obtain ⟨_, -, he⟩ := bind_eq_ok.1 he
  rw [orThrow_eq_ok] at hn he
  obtain ⟨hle, hbound⟩ := PoolLeg.originalTarget_bound hpost hn
  obtain ⟨-, hleast⟩ := inversePoolOffer_eq_some he
  obtain ⟨-, rfl⟩ := (original_eq_some hf).1 ho
  constructor
  · exact hle.trans ((hleast e).2 le_rfl)
  · rintro x ⟨level, hx, hlower, hdelivers⟩
    have hnlevel := hbound level hlower hdelivers
    obtain ⟨-, rfl⟩ := (original_eq_some hf).1 hx
    exact (hleast x).1 hnlevel

/-- The loop over the levels of one hop ends at the least offer that delivers. -/
theorem PoolLeg.inverseLoop_spec {post steps work : ℕ} {out : ℕ × ℕ} (hf : leg.Funded)
    (hpost : inverseBuy target leg.buyBps = some post)
    (h : leg.inverseLoop wide target post steps lower work = .ok out) :
    ∃ e, IsLeast (good (leg.original wide) (leg.Delivers target) lower) e ∧
      checkedAdd e (taxAmount e leg.sellBps) = some out.1 ∧ out.2 < work := by
  induction steps generalizing lower work with
  | zero => cases h
  | succ steps ih =>
      obtain ⟨left, hleft, h⟩ := bind_eq_ok.1 h
      obtain ⟨e, he, h⟩ := bind_eq_ok.1 h
      obtain ⟨o, ho, h⟩ := bind_eq_ok.1 h
      obtain ⟨d, hd, h⟩ := bind_eq_ok.1 h
      rw [probe, orThrow_eq_ok, checkedSub_eq_some] at hleft
      rw [orThrow_eq_ok] at ho hd
      obtain ⟨hlower, hbound⟩ := PoolLeg.proposal_bound hf hpost he ho
      by_cases hreach : target ≤ d
      · rw [if_pos hreach] at h
        obtain ⟨gross, hgross, h⟩ := bind_eq_ok.1 h
        rw [orThrow_eq_ok] at hgross
        cases h
        refine ⟨e, isLeast_of_good ho hlower ⟨d, hd, hreach⟩ hbound, hgross, ?_⟩
        change left < work
        omega
      · rw [if_neg hreach] at h
        obtain ⟨next, hnext, h⟩ := bind_eq_ok.1 h
        rw [orThrow_eq_ok, checkedAdd_eq_some] at hnext
        obtain ⟨-, rfl⟩ := hnext
        obtain ⟨e', hleast, hgross, hwork⟩ := ih h
        have hfails : ¬leg.Delivers target o := by
          rintro ⟨d', hd', hreach'⟩
          rw [hd] at hd'
          cases hd'
          exact hreach hreach'
        rw [good_skip (original_rising hf) ho hlower hfails hbound] at hleast
        exact ⟨e', hleast, hgross, by omega⟩

theorem PoolLeg.level_eq_some (h : leg.level wide gross = some o) :
    gross ≤ u128Max ∧ leg.sellBps ≤ 10000 ∧
      ∃ s, IsGreatest {s | charged s leg.sellBps ≤ gross} s ∧ leg.original wide s = some o := by
  unfold PoolLeg.level at h
  split_ifs at h with hgross
  obtain ⟨sold, hsold, h⟩ := Option.bind_eq_some_iff.1 h
  have hbps : leg.sellBps ≤ 10000 := by
    unfold sell at hsold
    split_ifs at hsold with hgt
    · exact not_lt.1 hgt
    · exact not_lt.1 hgt
  obtain ⟨s, tax, left, hsell, hgreatest⟩ := sell_eq hgross hbps
  rw [hsell] at hsold
  cases hsold
  exact ⟨hgross, hbps, s, hgreatest, h⟩

theorem PoolLeg.level_of_greatest {s : ℕ} (hgross : gross ≤ u128Max) (hbps : leg.sellBps ≤ 10000)
    (hs : IsGreatest {s | charged s leg.sellBps ≤ gross} s) :
    leg.level wide gross = leg.original wide s := by
  obtain ⟨s', tax, left, hsell, hgreatest⟩ := sell_eq hgross hbps
  rw [PoolLeg.level, if_pos hgross, hsell, Option.bind_some, hgreatest.unique hs]

theorem level_rising (hf : leg.Funded) : Rising (leg.level wide) := by
  intro x y b hxy hy
  obtain ⟨hgross, hbps, s, hs, ho⟩ := PoolLeg.level_eq_some hy
  obtain ⟨t, tax, left, -, ht⟩ := sell_eq (hxy.trans hgross) hbps
  have hts : t ≤ s := hs.2 (ht.1.trans hxy)
  obtain ⟨a, hab, ha⟩ := original_rising hf t s b hts ho
  exact ⟨a, hab, (PoolLeg.level_of_greatest (hxy.trans hgross) hbps ht).trans ha⟩

/-- The gross offer of the least sale bounds every gross offer that delivers, and is the least of
them wherever the hop can be sold to at all. -/
theorem PoolLeg.inverse_spec {hopSteps work : ℕ} {out : ℕ × ℕ} (hf : leg.Funded)
    (h : leg.inverse wide hopSteps target lower work = .ok out) :
    out.1 ∈ lowerBounds (good (leg.level wide) (leg.Delivers target) lower) ∧
      (∀ o, leg.level wide out.1 = some o → lower ≤ o) ∧ out.1 ≤ u128Max ∧ out.2 < work := by
  obtain ⟨post, hpost, h⟩ := bind_eq_ok.1 h
  rw [orThrow_eq_ok] at hpost
  obtain ⟨e, ⟨⟨n, hn, hlower, hdelivers⟩, hleast⟩, hgross, hwork⟩ :=
    PoolLeg.inverseLoop_spec hf hpost h
  rw [checkedAdd_eq_some] at hgross
  obtain ⟨hfits, hout⟩ := hgross
  refine ⟨?_, ?_, by omega, hwork⟩
  · rintro x ⟨o, hx, hlo, hd⟩
    obtain ⟨-, hbps, s, hs, ho⟩ := PoolLeg.level_eq_some hx
    have hes : e ≤ s := hleast ⟨o, ho, hlo, hd⟩
    rw [hout, taxAmount_eq hbps]
    exact (charged_mono hes).trans hs.1
  · intro o ho
    obtain ⟨-, hbps, s, hs, ho⟩ := PoolLeg.level_eq_some ho
    rw [taxAmount_eq hbps] at hout
    have hse : s = e := by
      apply hs.unique
      rw [hout]
      exact ⟨le_refl (charged e leg.sellBps), fun t ht => charged_le_iff.1 ht⟩
    rw [hse, hn] at ho
    cases ho
    exact hlower

end Hop

end Cl8yDex.LocalQuote

/-!
## The exact-output search is minimal

Over a route the search skips levels of the first hop, as it does on one hop. The targets that are
carried back from the last hop bound what the first must deliver, and the forward check of the whole
route decides.
-/

namespace Cl8yDex.LocalQuote

open Outcome FirstReaching

variable {wide : WideDivision}

section Route

variable {leg : PoolLeg} {legs : List PoolLeg} {target lower hopSteps work gross : ℕ}

/-- What the route delivers for a machine-sized offer. -/
def route (wide : WideDivision) : List PoolLeg → ℕ → Option ℕ
  | [], output => some output
  | leg :: legs, gross =>
      (leg.level wide gross).bind fun o => (leg.delivered o).bind (route wide legs)

theorem PoolLeg.forward_eq (hgross : gross ≤ u128Max) : leg.forward wide gross =
    (leg.level wide gross).bind fun o => (leg.delivered o).map fun d => (d, o) := by
  rw [PoolLeg.level, if_pos hgross, PoolLeg.forward]
  cases hsell : sell gross leg.sellBps with
  | none => rfl
  | some sold =>
      simp only [Option.bind_eq_bind, Option.bind_some]
      cases leg.original wide sold.1 with
      | none => rfl
      | some o =>
          simp only [Option.bind_some]
          cases leg.delivered o with
          | none => rfl
          | some d => rfl

theorem level_le (hf : leg.Funded) {o : ℕ} (h : leg.level wide gross = some o) : o ≤ u128Max := by
  obtain ⟨-, -, s, -, ho⟩ := PoolLeg.level_eq_some h
  exact original_le hf ho

/-- Forwards the route is the code's own composition. -/
theorem forwardAll_eq (hf : ∀ l ∈ legs, l.Funded) (hgross : gross ≤ u128Max) :
    forwardAll wide legs gross = route wide legs gross := by
  induction legs generalizing gross with
  | nil => rfl
  | cons leg legs ih =>
      rw [forwardAll, route, PoolLeg.forward_eq hgross]
      cases hlevel : leg.level wide gross with
      | none => rfl
      | some o =>
          simp only [Option.bind_eq_bind, Option.bind_some]
          cases hd : leg.delivered o with
          | none => rfl
          | some d =>
              simp only [Option.map_some, Option.bind_some]
              apply ih fun l hl => hf l (List.mem_cons_of_mem leg hl)
              exact (PoolLeg.delivered_le hd).trans
                (level_le (hf leg List.mem_cons_self) hlevel)

/-- The level of the first hop from which the rest of the route reaches the target. -/
def Passes (wide : WideDivision) (leg : PoolLeg) (legs : List PoolLeg) (target o : ℕ) : Prop :=
  ∃ d, leg.delivered o = some d ∧ d ∈ reaching (route wide legs) target

theorem reaching_route : reaching (route wide (leg :: legs)) target =
    good (leg.level wide) (Passes wide leg legs target) 0 := by
  ext gross
  constructor
  · rintro ⟨out, hout, hreach⟩
    obtain ⟨o, ho, hout⟩ := Option.bind_eq_some_iff.1 hout
    obtain ⟨d, hd, hout⟩ := Option.bind_eq_some_iff.1 hout
    exact ⟨o, ho, Nat.zero_le o, d, hd, out, hout, hreach⟩
  · rintro ⟨o, ho, -, d, hd, out, hout, hreach⟩
    refine ⟨out, ?_, hreach⟩
    rw [route, ho, Option.bind_some, hd, Option.bind_some, hout]

theorem Passes.delivers {wanted o : ℕ} (h : Passes wide leg legs target o)
    (hw : wanted ∈ lowerBounds (reaching (route wide legs) target)) : leg.Delivers wanted o := by
  obtain ⟨d, hd, hreach⟩ := h
  exact ⟨d, hd, hw hreach⟩

/-- The composed inverse bounds every offer from which the route reaches the target, and takes a
probe on each hop. -/
theorem composeInverse_spec {out : ℕ × ℕ} (hf : ∀ l ∈ leg :: legs, l.Funded)
    (h : composeInverse wide hopSteps (leg :: legs) target lower work = .ok out) :
    out.1 ∈ lowerBounds (good (leg.level wide) (Passes wide leg legs target) lower) ∧
      (∀ o, leg.level wide out.1 = some o → lower ≤ o) ∧ out.1 ≤ u128Max ∧
      out.2 + (leg :: legs).length ≤ work := by
  induction legs generalizing leg lower work out with
  | nil =>
      obtain ⟨wanted, hwanted, h⟩ := bind_eq_ok.1 h
      cases hwanted
      obtain ⟨hbound, hlower, hle, hwork⟩ :=
        PoolLeg.inverse_spec (hf leg List.mem_cons_self) h
      refine ⟨?_, hlower, hle, hwork⟩
      rintro x ⟨o, ho, hlo, d, hd, out', hout, hreach⟩
      cases hout
      exact hbound ⟨o, ho, hlo, d, hd, hreach⟩
  | cons next legs ih =>
      obtain ⟨wanted, hwanted, h⟩ := bind_eq_ok.1 h
      have htail : ∀ l ∈ next :: legs, l.Funded := fun l hl => hf l (List.mem_cons_of_mem leg hl)
      obtain ⟨hwbound, -, -, hwork'⟩ := ih htail hwanted
      rw [← reaching_route] at hwbound
      obtain ⟨hbound, hlower, hle, hwork⟩ :=
        PoolLeg.inverse_spec (hf leg List.mem_cons_self) h
      refine ⟨?_, hlower, hle, ?_⟩
      · intro x hx
        exact hbound (good_subset (fun o ho => ho.delivers hwbound) hx)
      · simp only [List.length_cons] at hwork' ⊢
        omega

/-- The refinement ends at the least offer from which the whole route reaches the target. -/
theorem refine_spec {steps : ℕ} {out : ℕ × ℕ} (hf : ∀ l ∈ leg :: legs, l.Funded)
    (h : refine wide hopSteps leg legs target steps lower work = .ok out) :
    IsLeast (good (leg.level wide) (Passes wide leg legs target) lower) out.1 ∧
      out.2 + (leg :: legs).length ≤ work := by
  induction steps generalizing lower work with
  | zero => cases h
  | succ steps ih =>
      obtain ⟨required, hrequired, h⟩ := bind_eq_ok.1 h
      obtain ⟨first, hfirst, h⟩ := bind_eq_ok.1 h
      obtain ⟨output, houtput, h⟩ := bind_eq_ok.1 h
      rw [orThrow_eq_ok] at hfirst houtput
      obtain ⟨hbound, hlower, hle, hwork⟩ := composeInverse_spec hf hrequired
      have hleg := hf leg List.mem_cons_self
      rw [PoolLeg.forward_eq hle] at hfirst
      obtain ⟨o, ho, hfirst⟩ := Option.bind_eq_some_iff.1 hfirst
      obtain ⟨d, hd, hpair⟩ := Option.map_eq_some_iff.1 hfirst
      subst hpair
      have htail : ∀ l ∈ legs, l.Funded := fun l hl => hf l (List.mem_cons_of_mem leg hl)
      rw [forwardAll_eq htail ((PoolLeg.delivered_le hd).trans (level_le hleg ho))] at houtput
      by_cases hreach : target ≤ output
      · rw [if_pos hreach] at h
        cases h
        exact ⟨isLeast_of_good ho (hlower o ho) ⟨d, hd, output, houtput, hreach⟩ hbound, hwork⟩
      · rw [if_neg hreach] at h
        obtain ⟨next, hnext, h⟩ := bind_eq_ok.1 h
        rw [orThrow_eq_ok, checkedAdd_eq_some] at hnext
        obtain ⟨-, rfl⟩ := hnext
        obtain ⟨hleast, hwork'⟩ := ih h
        have hfails : ¬Passes wide leg legs target o := by
          rintro ⟨d', hd', out', hout', hreach'⟩
          rw [hd] at hd'
          cases hd'
          rw [houtput] at hout'
          cases hout'
          exact hreach hreach'
        dsimp only at hleast
        rw [good_skip (level_rising hleg) ho (hlower o ho) hfails hbound] at hleast
        exact ⟨hleast, by omega⟩

/-- The offers from which the code's own forward quote of the route reaches the target. -/
def sufficient (wide : WideDivision) (legs : List PoolLeg) (target : ℕ) : Set ℕ :=
  {gross | gross ≤ u128Max ∧ gross ∈ reaching (forwardAll wide legs) target}

theorem sufficient_eq (hf : ∀ l ∈ leg :: legs, l.Funded) : sufficient wide (leg :: legs) target =
    good (leg.level wide) (Passes wide leg legs target) 0 := by
  rw [← reaching_route]
  ext gross
  constructor
  · rintro ⟨hgross, out, hout, hreach⟩
    rw [forwardAll_eq hf hgross] at hout
    exact ⟨out, hout, hreach⟩
  · rintro ⟨out, hout, hreach⟩
    obtain ⟨o, ho, -⟩ := Option.bind_eq_some_iff.1 hout
    have hgross := (PoolLeg.level_eq_some ho).1
    refine ⟨hgross, out, ?_, hreach⟩
    rw [forwardAll_eq hf hgross]
    exact hout

theorem refine_isLeast {steps : ℕ} {out : ℕ × ℕ} (hf : ∀ l ∈ leg :: legs, l.Funded)
    (h : refine wide hopSteps leg legs target steps 0 work = .ok out) :
    IsLeast (sufficient wide (leg :: legs) target) out.1 := by
  rw [sufficient_eq hf]
  exact (refine_spec hf h).1

theorem funded_of_checkLegs (h : checkLegs (leg :: legs) target = .ok ()) :
    ∀ l ∈ leg :: legs, l.Funded := by
  intro l hl
  rw [checkLegs, ensure_eq_ok] at h
  have hzero : ¬(l.reserveIn = 0 ∨ l.reserveOut = 0) := fun hz => h (Or.inl ⟨l, hl, hz⟩)
  exact ⟨by omega, by omega⟩

theorem inverseCandidate_isLeast {admission : Admission} {required : ℕ} {candidate : Candidate}
    (h : inverseCandidate wide admission (leg :: legs) target work = .ok (required, candidate)) :
    IsLeast (sufficient wide (leg :: legs) target) required ∧ target ≤ candidate.output := by
  obtain ⟨_, -, h⟩ := bind_eq_ok.1 h
  obtain ⟨_, -, h⟩ := bind_eq_ok.1 h
  obtain ⟨_, hchecked, h⟩ := bind_eq_ok.1 h
  obtain ⟨out, hout, h⟩ := bind_eq_ok.1 h
  obtain ⟨found, -, h⟩ := bind_eq_ok.1 h
  obtain ⟨_, hadmitted, h⟩ := bind_eq_ok.1 h
  cases h
  obtain ⟨_, -, hoffer⟩ := bind_eq_ok.1 hadmitted
  exact ⟨refine_isLeast (funded_of_checkLegs hchecked) hout, ensure_eq_ok.1 hoffer⟩

/-- With fewer probes than hops there is no answer. -/
theorem refine_of_few_probes {steps : ℕ} (hf : ∀ l ∈ leg :: legs, l.Funded)
    (hwork : work < (leg :: legs).length) :
    ∃ e, refine wide hopSteps leg legs target steps lower work = .error e := by
  cases h : refine wide hopSteps leg legs target steps lower work with
  | error e => exact ⟨e, rfl⟩
  | ok out =>
      have hused := (refine_spec hf h).2
      omega

end Route

/-- Over pools that hold something, whatever their commissions, taxes and hooks: a required input
that the refinement ends at, within any budgets, is the least sufficient one, and so is the one of
a published candidate. A budget that runs out is an error. -/
theorem local_inverse_minimal (wide : WideDivision) (leg : PoolLeg) (legs : List PoolLeg)
    (target : ℕ) (hf : ∀ l ∈ leg :: legs, l.Funded) :
    (∀ hopSteps steps work out, refine wide hopSteps leg legs target steps 0 work = .ok out →
      IsLeast (sufficient wide (leg :: legs) target) out.1) ∧
    (∀ admission work required candidate,
      inverseCandidate wide admission (leg :: legs) target work = .ok (required, candidate) →
      IsLeast (sufficient wide (leg :: legs) target) required ∧ target ≤ candidate.output) ∧
    (∀ hopSteps lower work,
      refine wide hopSteps leg legs target 0 lower work = .error .accounting) ∧
    (∀ hopSteps steps lower work, work < (leg :: legs).length →
      ∃ e, refine wide hopSteps leg legs target steps lower work = .error e) ∧
    ∀ l ∈ leg :: legs, ∀ wanted post lower n,
      l.inverseLoop wide wanted post 0 lower n = .error .accounting ∧
        l.inverseLoop wide wanted post n lower 0 = .error .accounting := by
  refine ⟨fun _ _ _ _ => refine_isLeast hf, fun _ _ _ _ => inverseCandidate_isLeast,
    fun _ _ _ => rfl, fun _ _ _ _ => refine_of_few_probes hf, ?_⟩
  intro l _ wanted post lower n
  constructor
  · rfl
  · cases n with
    | zero => rfl
    | succ n => rfl

section Sample

def exactDivision : WideDivision := ⟨fun n d => n / d, fun _ _ _ _ _ => rfl⟩

/-- A hop from the token 1 to the token 2 with a sale tax of 1 % and a commission of 0.3 %. -/
def firstLeg : PoolLeg where
  mirror := ⟨1, 2, 1000, 6000, 30, .fresh, by decide, by decide⟩
  offer := 1
  ask := 2
  hooks := none
  sellBps := 100
  buyBps := 0
  reserveIn := 1000
  reserveOut := 6000
  oriented := rfl

/-- A hop from the token 2 to the token 3, whose purchase is taxed by 2 %. -/
def secondLeg : PoolLeg where
  mirror := ⟨3, 2, 1002, 1000, 0, .fresh, by decide, by decide⟩
  offer := 2
  ask := 3
  hooks := some ⟨[⟨4, 2500⟩]⟩
  sellBps := 0
  buyBps := 200
  reserveIn := 1000
  reserveOut := 1002
  oriented := rfl

def admitsAll : Admission := ⟨none, fun _ => .ok ⟨40, false⟩⟩

set_option linter.constructorNameAsVariable false in
theorem local_inverse_minimal_sample : ∃ out,
    inverseCandidate exactDivision admitsAll [firstLeg, secondLeg] 40 512 = .ok out ∧
      IsLeast (sufficient exactDivision [firstLeg, secondLeg] 40) out.1 := by
  have hf : ∀ l ∈ [firstLeg, secondLeg], l.Funded := by
    intro l hl
    rcases List.mem_pair.1 hl with rfl | rfl
    · exact ⟨by decide, by decide⟩
    · exact ⟨by decide, by decide⟩
  have h : Meets (inverseCandidate exactDivision admitsAll [firstLeg, secondLeg] 40 512)
      (fun out => out.1 = 8) (fun _ => False) := by
    decide +kernel
  obtain ⟨out, hout, -⟩ := h.accepted
  exact ⟨out, hout,
    ((local_inverse_minimal exactDivision firstLeg [secondLeg] 40 hf).2.1 _ _ _ _ hout).1⟩

end Sample

end Cl8yDex.LocalQuote
