import Cl8yDex.PoolInverse

/-!
# The declared reverse search is sound

The search keeps an insufficient offer below a sufficient one, both of them quoted. Probes only have
to lie strictly inside this bracket, so nothing is asked of the formulas that propose them or of the
forward quote.
-/

namespace Cl8yDex

open Outcome

variable {maxOffer target : ℕ} {pool : ReversePoolSnapshot} {hybrid : HybridSwapParams}
  {simulate : ℕ → Except ContractError HybridSimulationResponse} {sim : HybridSimulationResponse}
  {total n m : ℕ}

def Returns {α : Type} (x : Except ContractError α) : Prop := ∃ a, x = .ok a

theorem Returns.bind {α β : Type} {x : Except ContractError α} {f : α → Except ContractError β}
    (hx : Returns x) (hf : ∀ a, x = .ok a → Returns (f a)) : Returns (x >>= f) := by
  obtain ⟨a, ha⟩ := hx
  rw [ha, ok_bind]
  exact hf a ha

theorem returns_answered {x : Except ContractError ℕ} (h : ∀ site, x ≠ .error (.abort site)) :
    Returns (answered x) := by
  cases x with
  | ok a => exact ⟨some a, rfl⟩
  | error e =>
      cases e with
      | abort site => exact absurd rfl (h site)
      | _ => exact ⟨none, rfl⟩

theorem answered_eq_some {x : Except ContractError ℕ} (h : answered x = .ok (some n)) :
    x = .ok n := by
  cases x with
  | ok a =>
      cases h
      rfl
  | error e =>
      cases e with
      | _ => cases h

theorem returns_ceilDiv (hm : m ≠ 0) : Returns (ceilDivOrAbort n m) :=
  ⟨_, ceilDivOrAbort_eq (Nat.pos_of_ne_zero hm)⟩

theorem returns_allocatedBook {offer bookInput : ℕ} (htotal : total ≠ 0) :
    Returns (allocatedBook offer bookInput total) := by
  unfold allocatedBook
  split
  · exact ⟨_, rfl⟩
  · rw [divOrAbort_eq htotal]
    exact ⟨_, rfl⟩

theorem returns_declaredPoolInverse {needed poolInput : ℕ} (hneeded : needed ≠ 0)
    (hmax : needed ≤ u128Max) (htotal : total ≤ u128Max) (hpool : poolInput ≠ 0) :
    Returns (declaredPoolInverse needed total poolInput) := by
  unfold declaredPoolInverse
  rw [subOrAbort_eq (Nat.one_le_iff_ne_zero.2 hneeded), ok_bind]
  split
  · exact ⟨_, rfl⟩
  · rename_i product hproduct
    have hle : product ≤ u128Max * u128Max := by
      unfold checkedMul256 at hproduct
      split_ifs at hproduct
      cases hproduct
      exact Nat.mul_le_mul ((Nat.sub_le needed 1).trans hmax) htotal
    have hquotient : product / poolInput + 1 ≤ u256Max :=
      (Nat.add_le_add_right ((Nat.div_le_self _ _).trans hle) 1).trans (by decide)
    rw [divOrAbort_eq hpool, ok_bind, add256OrAbort_eq hquotient]
    exact ⟨_, rfl⟩

/-- The inputs of a search as the source types them. -/
structure SearchInputs (maxOffer target : ℕ) (pool : ReversePoolSnapshot)
    (hybrid : HybridSwapParams) : Prop where
  maxOffer_le : maxOffer ≤ u128Max
  target_le : target ≤ u128Max
  inputReserve_le : pool.inputReserve ≤ u128Max
  outputReserve_le : pool.outputReserve ≤ u128Max
  total_le : hybrid.poolInput + hybrid.bookInput ≤ u128Max

theorem SearchInputs.candidate_returns (hin : SearchInputs maxOffer target pool hybrid)
    (htotal : hybrid.poolInput + hybrid.bookInput ≠ 0) (offer : ℕ)
    (sim : HybridSimulationResponse) : Returns (pool.candidate target offer hybrid sim) := by
  have ht : target - sim.bookReturnAmount ≤ u128Max := (Nat.sub_le _ _).trans hin.target_le
  unfold ReversePoolSnapshot.candidate
  apply Returns.bind
  · exact returns_answered (minPoolInput_no_abort hin.inputReserve_le hin.outputReserve_le ht)
  intro needed hneeded
  cases needed with
  | none => exact ⟨_, rfl⟩
  | some needed =>
      have hmin := minPoolInput_isLeast hin.inputReserve_le hin.outputReserve_le ht
        (answered_eq_some hneeded)
      have hmax : needed ≤ u128Max := (Nat.le_add_left _ _).trans hmin.1.1
      have hsum : checkedAdd hybrid.poolInput hybrid.bookInput =
          some (hybrid.poolInput + hybrid.bookInput) := if_pos hin.total_le
      dsimp only
      split_ifs
      · exact ⟨_, rfl⟩
      rw [hsum]
      apply Returns.bind
      · exact returns_allocatedBook htotal
      intro allocated _
      cases allocated with
      | none => exact ⟨_, rfl⟩
      | some allocated =>
          dsimp only
          split_ifs with hdeclared
          · exact returns_declaredPoolInverse hdeclared.2.2 hmax hin.total_le hdeclared.2.1
          · exact ⟨_, rfl⟩

theorem bookPlateauProbe_returns {scaledGross : ℕ} {rate : Decimal} (hrate : rate.atomics ≠ 0)
    (hbook : hybrid.bookInput ≠ 0) : Returns (bookPlateauProbe scaledGross rate hybrid) := by
  apply Returns.bind (returns_ceilDiv hrate)
  intro bookNeeded _
  unfold offerForBookInput
  cases (checkedAdd hybrid.poolInput hybrid.bookInput).bind (checkedMul256 bookNeeded) with
  | none => exact ⟨none, rfl⟩
  | some product =>
      apply Returns.bind (returns_ceilDiv hbook)
      exact fun offer _ => ⟨narrow? offer, rfl⟩

theorem bookCandidate_returns (pool : ReversePoolSnapshot) (hybrid : HybridSwapParams)
    (sim : HybridSimulationResponse) : Returns (pool.bookCandidate hybrid sim) := by
  unfold ReversePoolSnapshot.bookCandidate
  cases pool.bookOutputRate with
  | none => exact ⟨none, rfl⟩
  | some rate =>
      dsimp only
      split_ifs with hprobe
      · exact ⟨none, rfl⟩
      obtain ⟨hrate, hbook⟩ := not_or.1 hprobe
      cases (checkedAdd sim.bookReturnAmount sim.bookCommissionAmount).bind
          fun gross => checkedMul256 gross Decimal.one.atomics with
      | none => exact ⟨none, rfl⟩
      | some scaledGross =>
          apply bookPlateauProbe_returns _ hbook
          intro hzero
          exact hrate (decide_eq_true hzero)

/-- A bracket between two quoted offers; the lower one is 0 as long as none was insufficient. -/
structure Bracket.Valid (b : Bracket) (maxOffer target : ℕ)
    (simulate : ℕ → Except ContractError HybridSimulationResponse) (tried : List ℕ) : Prop where
  lt : b.lo < b.hi
  hi_le : b.hi ≤ maxOffer
  lower : b.lowerOutput < target
  upper : target ≤ b.sufficient.returnAmount
  quoted : simulate b.hi = .ok b.sufficient
  hi_tried : b.hi ∈ tried
  lo_tried : b.lo = 0 ∨ b.lo ∈ tried ∧ ∃ r, simulate b.lo = .ok r ∧ r.returnAmount < target

theorem interpolate_inside {b : Bracket} {tried : List ℕ}
    (hb : b.Valid maxOffer target simulate tried) (hin : SearchInputs maxOffer target pool hybrid)
    (hwidth : 1 < b.hi - b.lo) :
    ∃ probe, interpolate target b (b.hi - b.lo) = .ok probe ∧ b.lo < probe ∧ probe < b.hi := by
  have hlower := hb.lower
  have hupper := hb.upper
  have hhi := hb.hi_le.trans hin.maxOffer_le
  have hpos : b.sufficient.returnAmount - b.lowerOutput ≠ 0 := by omega
  have hgap : target - b.lowerOutput ≤ b.sufficient.returnAmount - b.lowerOutput := by omega
  have hproduct : (b.hi - b.lo) * (target - b.lowerOutput) ≤ u256Max :=
    (Nat.mul_le_mul ((Nat.sub_le _ _).trans hhi) ((Nat.sub_le _ _).trans hin.target_le)).trans
      (by decide)
  have hdelta : (b.hi - b.lo) * (target - b.lowerOutput) /
      (b.sufficient.returnAmount - b.lowerOutput) ≤ b.hi - b.lo := by
    apply Nat.div_le_of_le_mul
    rw [Nat.mul_comm]
    exact Nat.mul_le_mul_right _ hgap
  set delta := (b.hi - b.lo) * (target - b.lowerOutput) /
      (b.sufficient.returnAmount - b.lowerOutput) with hdef
  have hnarrow : delta ≤ u128Max := by omega
  have hsum : b.lo + min (max delta 1) (b.hi - b.lo - 1) ≤ u128Max := by omega
  refine ⟨b.lo + min (max delta 1) (b.hi - b.lo - 1), ?_, by omega, by omega⟩
  unfold interpolate
  rw [subOrOverflow_of_le (by omega), ok_bind, subOrOverflow_of_le hlower.le, ok_bind,
    mul256_of_le hproduct, ok_bind, divOrAbort_eq hpos, ok_bind, ← hdef, narrowStd_eq hnarrow,
    ok_bind, subOrAbort_eq hwidth.le, ok_bind]
  exact addOrOverflow_eq_ok.2 ⟨hsum, rfl⟩

/-- Whatever the formulas propose, the next probe lies strictly inside the bracket. -/
theorem nextProbe_inside {b : Bracket} {tried : List ℕ}
    (hb : b.Valid maxOffer target simulate tried) (hin : SearchInputs maxOffer target pool hybrid)
    (htotal : hybrid.poolInput + hybrid.bookInput ≠ 0) (hwidth : 1 < b.hi - b.lo) :
    ∃ probe, nextProbe target pool hybrid b (hybrid.poolInput + hybrid.bookInput) = .ok probe ∧
      b.lo < probe ∧ probe < b.hi := by
  have hhi := hb.hi_le.trans hin.maxOffer_le
  have hproduct : b.hi * hybrid.bookInput ≤ u256Max :=
    (Nat.mul_le_mul hhi ((Nat.le_add_left _ _).trans hin.total_le)).trans (by decide)
  have hshare : b.hi * hybrid.bookInput / (hybrid.poolInput + hybrid.bookInput) ≤ u128Max := by
    apply le_trans _ hhi
    apply Nat.div_le_of_le_mul
    rw [Nat.mul_comm]
    exact Nat.mul_le_mul_right _ (Nat.le_add_left _ _)
  obtain ⟨poolCandidate, hpool⟩ : Returns (poolCandidateFor target pool hybrid b
      (b.hi * hybrid.bookInput / (hybrid.poolInput + hybrid.bookInput))) := by
    unfold poolCandidateFor
    split_ifs
    · exact hin.candidate_returns htotal _ _
    · exact ⟨_, rfl⟩
  obtain ⟨bookCandidate, hbook⟩ := bookCandidate_returns pool hybrid b.sufficient
  unfold nextProbe
  rw [subOrOverflow_of_le hb.lt.le, ok_bind, mul256_of_le hproduct, ok_bind, divOrAbort_eq htotal,
    ok_bind, narrowStd_eq hshare, ok_bind, hpool, ok_bind, hbook, ok_bind]
  dsimp only
  split
  · rename_i c hc
    have hinside := (Option.filter_eq_some_iff.1 hc).2
    exact ⟨c, rfl, of_decide_eq_true hinside⟩
  · split_ifs
    · have hlt := hb.lt
      exact ⟨b.hi - 1, subOrOverflow_of_le (by omega), by omega, by omega⟩
    · exact interpolate_inside hb hin hwidth

/-- A sufficient offer that was quoted, with an insufficient one right below. -/
structure FoundOffer (maxOffer target : ℕ)
    (simulate : ℕ → Except ContractError HybridSimulationResponse) (tried : List ℕ) (x : ℕ)
    (r : HybridSimulationResponse) : Prop where
  pos : 1 ≤ x
  le : x ≤ maxOffer
  quoted : simulate x = .ok r
  sufficient : target ≤ r.returnAmount
  mem : x ∈ tried
  minimal : x = 1 ∨ x - 1 ∈ tried ∧ ∃ r', simulate (x - 1) = .ok r' ∧ r'.returnAmount < target

/-- What the rest of a search promises after the offers that were tried, with a number of calls
left. -/
structure SoundRest (maxOffer target : ℕ)
    (simulate : ℕ → Except ContractError HybridSimulationResponse) (tried : List ℕ) (left : ℕ)
    (out : List ℕ × Except ContractError (ℕ × HybridSimulationResponse)) : Prop where
  calls : out.1.length ≤ left
  found : ∀ x r, out.2 = .ok (x, r) → FoundOffer maxOffer target simulate (tried ++ out.1) x r
  failed : ∀ e, out.2 = .error e → e = infeasibleOffer ∨ e = iterationCap ∨
    ∃ x, out.1.getLast? = some x ∧ simulate x = .error e
  stops : ∀ x ∈ out.1, ∀ e, simulate x = .error e → out.1.getLast? = some x ∧ out.2 = .error e

theorem getLast?_cons_of_some {x y : ℕ} {l : List ℕ} (h : l.getLast? = some y) :
    (x :: l).getLast? = some y := by
  rw [List.getLast?_cons, h]
  rfl

section Rest

variable {tried : List ℕ} {left x : ℕ} {e : ContractError}
  {out : List ℕ × Except ContractError (ℕ × HybridSimulationResponse)}

/-- A call that was answered goes in front of the rest. -/
theorem SoundRest.cons (hsim : simulate x = .ok sim)
    (hrest : SoundRest maxOffer target simulate (tried ++ [x]) left out) :
    SoundRest maxOffer target simulate tried (left + 1) (x :: out.1, out.2) := by
  constructor
  · exact Nat.succ_le_succ hrest.calls
  · intro y r hy
    have hfound := hrest.found y r hy
    rw [List.append_assoc] at hfound
    exact hfound
  · intro e he
    rcases hrest.failed e he with hinf | hcap | ⟨y, hlast, hy⟩
    · exact .inl hinf
    · exact .inr (.inl hcap)
    · exact .inr (.inr ⟨y, getLast?_cons_of_some hlast, hy⟩)
  · intro y hy e he
    rcases List.mem_cons.1 hy with rfl | hy
    · rw [hsim] at he
      cases he
    · obtain ⟨hlast, hout⟩ := hrest.stops y hy e he
      exact ⟨getLast?_cons_of_some hlast, hout⟩

/-- A call that failed is the last one. -/
theorem SoundRest.of_error (he : simulate x = .error e) :
    SoundRest maxOffer target simulate tried (left + 1) ([x], .error e) := by
  constructor
  · exact Nat.succ_le_succ (Nat.zero_le left)
  · intro y r hy
    cases hy
  · intro e' he'
    cases he'
    exact .inr (.inr ⟨x, rfl, he⟩)
  · intro y hy e' he'
    obtain rfl := List.mem_singleton.1 hy
    rw [he] at he'
    cases he'
    exact ⟨rfl, rfl⟩

theorem SoundRest.of_stop (he : e = infeasibleOffer ∨ e = iterationCap) :
    SoundRest maxOffer target simulate tried left ([], .error e) := by
  constructor
  · exact Nat.zero_le left
  · intro y r hy
    cases hy
  · intro e' he'
    cases he'
    rcases he with hinf | hcap
    · exact .inl hinf
    · exact .inr (.inl hcap)
  · intro y hy
    cases hy

end Rest

theorem Bracket.Valid.refine {b : Bracket} {tried : List ℕ} {probe : ℕ}
    (hb : b.Valid maxOffer target simulate tried) (hlo : b.lo < probe) (hhi : probe < b.hi)
    (hsim : simulate probe = .ok sim) :
    (b.refine target probe sim).Valid maxOffer target simulate (tried ++ [probe]) := by
  have hmem : probe ∈ tried ++ [probe] := List.mem_append_right _ (List.mem_singleton_self _)
  unfold Bracket.refine
  split_ifs with hsuff
  · constructor
    · exact hlo
    · exact hhi.le.trans hb.hi_le
    · exact hb.lower
    · exact hsuff
    · exact hsim
    · exact hmem
    · rcases hb.lo_tried with hzero | ⟨htried, hlow⟩
      · exact .inl hzero
      · exact .inr ⟨List.mem_append_left _ htried, hlow⟩
  · constructor
    · exact hhi
    · exact hb.hi_le
    · exact not_le.1 hsuff
    · exact hb.upper
    · exact hb.quoted
    · exact List.mem_append_left _ hb.hi_tried
    · exact .inr ⟨hmem, sim, hsim, not_le.1 hsuff⟩

theorem Bracket.Valid.found {b : Bracket} {tried : List ℕ}
    (hb : b.Valid maxOffer target simulate tried) (hwidth : b.hi - b.lo ≤ 1) :
    FoundOffer maxOffer target simulate tried b.hi b.sufficient := by
  have hlt := hb.lt
  have hadjacent : b.hi - 1 = b.lo := by omega
  constructor
  · omega
  · exact hb.hi_le
  · exact hb.quoted
  · exact hb.upper
  · exact hb.hi_tried
  · rw [hadjacent]
    rcases hb.lo_tried with hzero | hlow
    · exact .inl (by omega)
    · exact .inr hlow

theorem narrowBracket_sound (hin : SearchInputs maxOffer target pool hybrid)
    (htotal : hybrid.poolInput + hybrid.bookInput ≠ 0) {left : ℕ} {b : Bracket} {tried : List ℕ}
    (hb : b.Valid maxOffer target simulate tried) :
    SoundRest maxOffer target simulate tried left
      (narrowBracket target pool hybrid simulate (hybrid.poolInput + hybrid.bookInput) left b) := by
  have hsub : checkedSub b.hi b.lo = some (b.hi - b.lo) := if_pos hb.lt.le
  induction left generalizing b tried with
  | zero =>
      unfold narrowBracket
      rw [hsub]
      dsimp only
      split_ifs with hwidth
      · constructor
        · exact Nat.zero_le 0
        · intro x r hx
          cases hx
          rw [List.append_nil]
          exact hb.found hwidth
        · intro e he
          cases he
        · intro x hx
          cases hx
      · obtain ⟨probe, hprobe, -, -⟩ := nextProbe_inside hb hin htotal (not_le.1 hwidth)
        rw [hprobe]
        exact .of_stop (.inr rfl)
  | succ left ih =>
      unfold narrowBracket
      rw [hsub]
      dsimp only
      split_ifs with hwidth
      · constructor
        · exact Nat.zero_le _
        · intro x r hx
          cases hx
          rw [List.append_nil]
          exact hb.found hwidth
        · intro e he
          cases he
        · intro x hx
          cases hx
      · obtain ⟨probe, hprobe, hlo, hhi⟩ := nextProbe_inside hb hin htotal (not_le.1 hwidth)
        rw [hprobe]
        dsimp only
        cases hsim : simulate probe with
        | error e => exact .of_error hsim
        | ok sim =>
            have hnext := hb.refine hlo hhi hsim
            exact (ih hnext (if_pos hnext.lt.le)).cons hsim

/-- A larger candidate, the doubled offer or the largest offer: in each case a larger bound. -/
theorem nextUpper_above (hin : SearchInputs maxOffer target pool hybrid)
    (htotal : hybrid.poolInput + hybrid.bookInput ≠ 0) {hi : ℕ} (hpos : 0 < hi)
    (hlt : hi < maxOffer) (sim : HybridSimulationResponse) :
    ∃ hi', nextUpper maxOffer target pool hybrid hi sim = .ok hi' ∧ hi < hi' ∧ hi' ≤ maxOffer := by
  obtain ⟨candidate, hcandidate⟩ := hin.candidate_returns htotal hi sim
  have hdouble : hi < (checkedMul hi 2).getD maxOffer := by
    cases hmul : checkedMul hi 2 with
    | none => exact hlt
    | some c =>
        obtain ⟨-, rfl⟩ := checkedMul_eq_some.1 hmul
        change hi < hi * 2
        omega
  have habove : hi < (candidate.filter fun c => hi < c).getD ((checkedMul hi 2).getD maxOffer) := by
    cases hfilter : candidate.filter fun c => hi < c with
    | none => exact hdouble
    | some c => exact of_decide_eq_true (Option.filter_eq_some_iff.1 hfilter).2
  refine ⟨_, ?_, lt_min habove hlt, min_le_right _ _⟩
  unfold nextUpper
  rw [hcandidate]
  rfl

/-- The search after its checks: raise the upper bound, then narrow the bracket. -/
def searchFrom (maxOffer target : ℕ) (pool : ReversePoolSnapshot) (hybrid : HybridSwapParams)
    (simulate : ℕ → Except ContractError HybridSimulationResponse) (templateTotal left lo
    lowerOutput hi : ℕ) : List ℕ × Except ContractError (ℕ × HybridSimulationResponse) :=
  match raiseUpper maxOffer target pool hybrid simulate left lo lowerOutput hi with
  | (tried, .error e) => (tried, .error e)
  | (tried, .ok (left, b)) =>
      let rest := narrowBracket target pool hybrid simulate templateTotal left b
      (tried ++ rest.1, rest.2)

theorem searchFrom_sound (hin : SearchInputs maxOffer target pool hybrid)
    (htotal : hybrid.poolInput + hybrid.bookInput ≠ 0) {left lo lowerOutput hi : ℕ}
    {tried : List ℕ} (hlt : lo < hi) (hle : hi ≤ maxOffer) (hlower : lowerOutput < target)
    (hlo : lo = 0 ∨ lo ∈ tried ∧ ∃ r, simulate lo = .ok r ∧ r.returnAmount < target) :
    SoundRest maxOffer target simulate tried left
      (searchFrom maxOffer target pool hybrid simulate (hybrid.poolInput + hybrid.bookInput) left lo
        lowerOutput hi) := by
  induction left generalizing lo lowerOutput hi tried with
  | zero => exact .of_stop (.inr rfl)
  | succ left ih =>
      have hmem : hi ∈ tried ++ [hi] := List.mem_append_right _ (List.mem_singleton_self _)
      unfold searchFrom raiseUpper
      cases hsim : simulate hi with
      | error e => exact .of_error hsim
      | ok sim =>
          dsimp only
          by_cases hsuff : target ≤ sim.returnAmount
          · rw [if_pos hsuff]
            have hb : Bracket.Valid ⟨lo, lowerOutput, hi, sim⟩ maxOffer target simulate
                (tried ++ [hi]) := by
              constructor
              · exact hlt
              · exact hle
              · exact hlower
              · exact hsuff
              · exact hsim
              · exact hmem
              · rcases hlo with hzero | ⟨htried, hlow⟩
                · exact .inl hzero
                · exact .inr ⟨List.mem_append_left _ htried, hlow⟩
            exact (narrowBracket_sound hin htotal hb).cons hsim
          rw [if_neg hsuff]
          by_cases hmax : hi = maxOffer
          · rw [if_pos hmax]
            exact SoundRest.cons hsim (.of_stop (.inl rfl))
          rw [if_neg hmax]
          obtain ⟨hi', hnext, habove, hle'⟩ := nextUpper_above hin htotal (Nat.zero_lt_of_lt hlt)
            (lt_of_le_of_ne hle hmax) sim
          have hrest := (ih habove hle' (not_le.1 hsuff)
            (.inr ⟨hmem, sim, hsim, not_le.1 hsuff⟩)).cons hsim
          unfold searchFrom at hrest
          rw [hnext]
          dsimp only
          cases hraise : raiseUpper maxOffer target pool hybrid simulate left hi sim.returnAmount
              hi' with
          | mk tail result =>
              rw [hraise] at hrest
              cases result with
              | error e => exact hrest
              | ok found => exact hrest

/-- The promises of a search to its caller. -/
structure SearchSound (maxOffer target : ℕ)
    (simulate : ℕ → Except ContractError HybridSimulationResponse)
    (out : List ℕ × Except ContractError (ℕ × HybridSimulationResponse)) : Prop where
  calls : out.1.length ≤ 32
  quoted : ∀ x r, out.2 = .ok (x, r) → simulate x = .ok r
  found : 0 < target → ∀ x r, out.2 = .ok (x, r) → FoundOffer maxOffer target simulate out.1 x r
  failed : ∀ e, out.2 = .error e → e = infeasibleOffer ∨ e = iterationCap ∨ e = emptyTemplate ∨
    ∃ x, out.1.getLast? = some x ∧ simulate x = .error e
  stops : ∀ x ∈ out.1, ∀ e, simulate x = .error e → out.1.getLast? = some x ∧ out.2 = .error e

theorem SearchSound.of_rest {out : List ℕ × Except ContractError (ℕ × HybridSimulationResponse)}
    (hrest : SoundRest maxOffer target simulate [] 32 out) :
    SearchSound maxOffer target simulate out := by
  constructor
  · exact hrest.calls
  · exact fun x r hx => (hrest.found x r hx).quoted
  · exact fun _ x r hx => hrest.found x r hx
  · intro e he
    rcases hrest.failed e he with hinf | hcap | hquote
    · exact .inl hinf
    · exact .inr (.inl hcap)
    · exact .inr (.inr (.inr hquote))
  · exact hrest.stops

/-- The bounded search is sound for every forward quote. -/
theorem bounded_search_sound (seed : ℕ) (hin : SearchInputs maxOffer target pool hybrid) :
    SearchSound maxOffer target simulate
      (boundedHybridReverseSearch seed maxOffer target pool hybrid simulate) := by
  have hsum : checkedAdd hybrid.poolInput hybrid.bookInput =
      some (hybrid.poolInput + hybrid.bookInput) := if_pos hin.total_le
  unfold boundedHybridReverseSearch
  rw [hsum]
  dsimp only
  split_ifs with htotal htarget hmax
  · constructor
    · exact Nat.zero_le _
    · intro x r hx
      cases hx
    · intro _ x r hx
      cases hx
    · intro e he
      cases he
      exact .inr (.inr (.inl rfl))
    · intro x hx
      cases hx
  · constructor
    · exact Nat.succ_le_succ (Nat.zero_le 31)
    · intro x r hx
      cases hsim : simulate 0 with
      | error e =>
          rw [hsim] at hx
          cases hx
      | ok sim =>
          rw [hsim] at hx
          cases hx
          exact hsim
    · exact fun hpos => absurd htarget hpos.ne'
    · intro e he
      cases hsim : simulate 0 with
      | error e' =>
          rw [hsim] at he
          cases he
          exact .inr (.inr (.inr ⟨0, rfl, hsim⟩))
      | ok sim =>
          rw [hsim] at he
          cases he
    · intro x hx e he
      obtain rfl := List.mem_singleton.1 hx
      rw [he]
      exact ⟨rfl, rfl⟩
  · exact .of_rest (.of_stop (.inl rfl))
  · apply SearchSound.of_rest
    apply searchFrom_sound hin htotal
    · exact lt_min (lt_max_of_lt_right one_pos) (Nat.pos_of_ne_zero hmax)
    · exact min_le_right _ _
    · exact Nat.pos_of_ne_zero htarget
    · exact .inl rfl

/-- A forward quote that gives one unit for every third unit of the offer. -/
def sampleForward (offer : ℕ) : Except ContractError HybridSimulationResponse :=
  .ok { HybridSimulationResponse.zero with returnAmount := offer / 3 }

theorem bounded_search_sound_sample :
    SearchSound 1000 5 sampleForward
        (boundedHybridReverseSearch 2 1000 5 ⟨100, 100, 30, none⟩ ⟨1, 1, 1, none⟩ sampleForward) ∧
      (boundedHybridReverseSearch 2 1000 5 ⟨100, 100, 30, none⟩ ⟨1, 1, 1, none⟩
        sampleForward).2.toOption.map Prod.fst = some 15 :=
  ⟨bounded_search_sound 2 ⟨by decide, by decide, by decide, by decide, by decide⟩,
    by decide +kernel⟩

end Cl8yDex
