import Cl8yDex.OracleRing
import Cl8yDex.SwapLegsSpec

/-!
# The settlement of a swap

The total return splits exactly into the hooks' shares and the receiver's net. Where the quote of
the same legs settles, only a limit that the user or the pair set can stop the execution.
-/

namespace Cl8yDex

open Outcome

/-- The ways a user's limits and the pair's policy stop a swap. -/
def ContractError.SwapGate : ContractError → Prop
  | hookNetMinimumRequired | zeroAmount | maxSpreadAssertion .. | insufficientPoolLegForHybrid ..
  | zeroPoolNetForHybrid .. | bookHybridRequiresSlippageFloor .. | invalidBeliefPrice ..
  | minReturnAssertion .. => True
  | std (.genericErr msg) => msg = "invalid address"
  | abort site => site = .beliefReturn ∨ site = .spreadRatio
  | _ => False

theorem ContractError.SwapGate.noUnderflow {e : ContractError} (h : e.SwapGate) : ¬e.Underflow := by
  rintro ⟨_, _, rfl⟩
  exact h

theorem ContractError.InvalidAddress.gate {e : ContractError} (h : e.InvalidAddress) :
    e.SwapGate := by
  obtain rfl := h
  exact rfl

section Spread

def CheckMaxSpreadError.Expected : CheckMaxSpreadError → Prop
  | abort site => site = .beliefReturn ∨ site = .spreadRatio
  | _ => True

theorem CheckMaxSpreadError.Expected.gate {e : CheckMaxSpreadError} (h : e.Expected) :
    e.toContract.SwapGate := by
  cases e with
  | abort site => exact h
  | _ => exact trivial

theorem meets_liftSpread {α : Type} {x : Except CheckMaxSpreadError α} {Q : α → Prop}
    (h : Meets x Q CheckMaxSpreadError.Expected) :
    Meets (liftSpread x) Q ContractError.SwapGate := by
  cases x with
  | ok a => exact h
  | error e => exact CheckMaxSpreadError.Expected.gate h

theorem ensure_expected {P : Prop} [Decidable P] {e : CheckMaxSpreadError} (h : e.Expected) :
    Meets (ensure P e) (fun _ => True) CheckMaxSpreadError.Expected :=
  (meets_ensure fun _ => h).weaken fun _ _ => trivial

theorem orThrow_expected {α : Type} {x : Option α} {e : CheckMaxSpreadError} (h : e.Expected) :
    Meets (orThrow x e) (fun _ => True) CheckMaxSpreadError.Expected :=
  (meets_orThrow fun _ => h).weaken fun _ _ => trivial

theorem floor_expected (bookInput : ℕ) (beliefPrice : Option Decimal) (minReturn : Option ℕ) :
    Meets (validateHybridBookRequiresSlippageFloor bookInput beliefPrice minReturn)
      (fun _ => True) CheckMaxSpreadError.Expected := by
  unfold validateHybridBookRequiresSlippageFloor
  split_ifs
  · exact trivial
  · cases beliefPrice with
    | some bp => exact ensure_expected (by exact trivial)
    | none => exact ensure_expected (by exact trivial)

theorem checkRatio_expected (spread total : ℕ) (maxAllowed : Decimal) :
    Meets (checkRatio spread total maxAllowed) (fun _ => True) CheckMaxSpreadError.Expected :=
  (orThrow_expected (by exact .inr rfl)).bind fun _ _ => ensure_expected (by exact trivial)

theorem beliefPriceReciprocal_expected (bp : Decimal) :
    Meets (beliefPriceReciprocal bp) (fun inv => beliefPriceReciprocal bp = .ok inv)
      CheckMaxSpreadError.Expected := by
  have h : Meets (beliefPriceReciprocal bp) (fun _ => True) CheckMaxSpreadError.Expected := by
    unfold beliefPriceReciprocal
    refine (ensure_expected (by exact trivial)).bind fun _ _ => ?_
    refine (orThrow_expected (by exact .inl rfl)).bind fun _ _ => ?_
    exact (ensure_expected (by exact trivial)).bind fun _ _ => trivial
  cases hinv : beliefPriceReciprocal bp with
  | ok inv => exact rfl
  | error e => exact h.failure hinv

/-- A passed belief check has a usable reciprocal. -/
theorem checkMaxSpread_spec (beliefPrice maxSpread : Option Decimal) (inputs : MaxSpreadInputs) :
    Meets (checkMaxSpread beliefPrice maxSpread inputs)
      (fun _ => ∀ bp, beliefPrice = some bp → ∃ inv, beliefPriceReciprocal bp = .ok inv)
      CheckMaxSpreadError.Expected := by
  unfold checkMaxSpread
  cases beliefPrice with
  | some bp =>
      simp only [checkBelief, expectedReturnFromBelief]
      refine Meets.bind (Q := fun _ => ∃ inv, beliefPriceReciprocal bp = .ok inv) ?_ ?_
      · refine (beliefPriceReciprocal_expected bp).bind fun inv hinv => ?_
        refine (orThrow_expected (by exact .inl rfl)).bind fun _ _ => ?_
        exact (ensure_expected (by exact trivial)).bind fun _ _ => ⟨inv, hinv⟩
      · rintro expected ⟨inv, hinv⟩
        refine (orThrow_expected (by exact trivial)).bind fun _ _ => ?_
        refine (orThrow_expected (by exact trivial)).bind fun _ _ => ?_
        refine (checkRatio_expected _ _ _).weaken fun _ _ bp' hbp => ?_
        rw [← Option.some.inj hbp]
        exact ⟨inv, hinv⟩
  | none =>
      simp only [checkNoBelief, checkMaterialPool, bookShortfall]
      refine Meets.bind (Q := fun _ => True) ?_ fun _ _ => ?_
      · split_ifs
        · exact trivial
        · exact (ensure_expected (by exact trivial)).bind fun _ _ =>
            ensure_expected (by exact trivial)
      refine (orThrow_expected (by exact trivial)).bind fun _ _ => ?_
      refine (orThrow_expected (by exact trivial)).bind fun _ _ => ?_
      refine Meets.bind (Q := fun _ => True) ?_ fun _ _ => ?_
      · split_ifs
        · exact trivial
        · exact (orThrow_expected (by exact trivial)).bind fun _ _ => trivial
      refine (orThrow_expected (by exact trivial)).bind fun _ _ => ?_
      split_ifs
      · simp
      · exact (checkRatio_expected _ _ _).weaken fun _ _ => by simp

end Spread

section Hooks

variable {q : Querier} {hooks : List Addr} {ask total : ℕ} {ds : List HookFeeDeduction}

theorem addOrOverflow_comm (a b : ℕ) : addOrOverflow a b = addOrOverflow b a := by
  rw [addOrOverflow, addOrOverflow, checkedAdd, checkedAdd, Nat.add_comm]

theorem sumDeductions_spec (acc : ℕ) (ds : List HookFeeDeduction) : Meets (sumDeductions acc ds)
    (fun t => t = acc + totalOf HookFeeDeduction.amount ds) (fun e => ¬e.Underflow) := by
  induction ds generalizing acc with
  | nil => exact rfl
  | cons d ds ih =>
      refine (add_noUnderflow acc d.amount).bind fun acc' hacc => ?_
      refine (ih acc').weaken fun t ht => ?_
      rw [ht, hacc.1, totalOf_cons, Nat.add_assoc]

/-- Every charge of a hook is in the output token. -/
theorem hookDeduction_spec (totalBps : ℕ) (hook : Addr) :
    Meets (hookDeduction q ask total totalBps hook) (fun out => ∀ d ∈ out.2, d.token = ask)
      (fun e => ¬e.Underflow) := by
  have hbps : ∀ amount bps, Meets (bpsOfAmount amount bps) (fun _ => True)
      (fun e => ¬e.Underflow) := fun amount bps =>
    (ensure_noUnderflow (by rintro ⟨_, _, ⟨⟩⟩)).bind fun _ _ => trivial
  have hpricing : ∀ cfg, Meets (hookPricing q hook cfg) (fun _ => True)
      (fun e => ¬e.Underflow) := by
    intro cfg
    unfold hookPricing
    simp only
    split
    · refine (orThrow_noUnderflow (by rintro ⟨_, _, ⟨⟩⟩)).bind fun _ _ => ?_
      refine (addrValidate_noUnderflow q _).bind fun _ _ => ?_
      refine (orThrow_noUnderflow (by rintro ⟨_, _, ⟨⟩⟩)).bind fun _ _ => ?_
      refine (orThrow_noUnderflow (by rintro ⟨_, _, ⟨⟩⟩)).bind fun _ _ => ?_
      exact (addrValidate_noUnderflow q _).bind fun _ _ => trivial
    · refine (orThrow_noUnderflow (by rintro ⟨_, _, ⟨⟩⟩)).bind fun _ _ => ?_
      refine (addrValidate_noUnderflow q _).bind fun _ _ => ?_
      exact (orThrow_noUnderflow (by rintro ⟨_, _, ⟨⟩⟩)).bind fun _ _ => trivial
    · refine (orThrow_noUnderflow (by rintro ⟨_, _, ⟨⟩⟩)).bind fun _ _ => ?_
      refine (addrValidate_noUnderflow q _).bind fun _ _ => ?_
      refine (orThrow_noUnderflow (by rintro ⟨_, _, ⟨⟩⟩)).bind fun _ _ => ?_
      refine (addrValidate_noUnderflow q _).bind fun _ _ => ?_
      refine (orThrow_noUnderflow (by rintro ⟨_, _, ⟨⟩⟩)).bind fun _ _ => ?_
      exact (hbps _ _).bind fun _ _ => trivial
    · rintro ⟨_, _, ⟨⟩⟩
  unfold hookDeduction
  refine (orThrow_noUnderflow (by rintro ⟨_, _, ⟨⟩⟩)).bind fun cfg _ => ?_
  refine (hpricing cfg).bind fun pricing _ => ?_
  cases pricing with
  | lpBurn => exact fun d hd => by cases hd
  | fee token bps kind =>
      refine (hbps total bps).bind fun amount _ => ?_
      by_cases htoken : token = ask
      · rw [if_pos htoken]
        refine (ensure_noUnderflow (by rintro ⟨_, _, ⟨⟩⟩)).bind fun _ _ d hd => ?_
        split_ifs at hd
        · cases hd
        · rw [List.mem_singleton.1 hd]
          exact htoken
      · rw [if_neg htoken]
        exact fun d hd => by cases hd

theorem collectDeductions_spec (totalBps : ℕ) :
    Meets (collectDeductions q ask total hooks totalBps) (fun ds => ∀ d ∈ ds, d.token = ask)
      (fun e => ¬e.Underflow) := by
  induction hooks generalizing totalBps with
  | nil => exact fun d hd => by cases hd
  | cons hook hooks ih =>
      refine (hookDeduction_spec totalBps hook).bind fun out hout => ?_
      refine (ih out.1).bind fun rest hrest d hd => ?_
      exact (List.mem_append.1 hd).elim (hout d) (hrest d)

theorem validateStoredHooks_noUnderflow (hooks : List Addr) :
    Meets (validateStoredHooks hooks) (fun _ => validateStoredHooks hooks = .ok ())
      (fun e => ¬e.Underflow) := by
  have h : Meets (validateStoredHooks hooks) (fun _ => True) (fun e => ¬e.Underflow) := by
    unfold validateStoredHooks validateHookCount
    refine (ensure_noUnderflow (by rintro ⟨_, _, ⟨⟩⟩)).bind fun _ _ => ?_
    cases firstDuplicate [] hooks with
    | none => exact trivial
    | some x => rintro ⟨_, _, ⟨⟩⟩
  cases hv : validateStoredHooks hooks with
  | ok u => exact rfl
  | error e => exact h.failure hv

theorem collectFeeHookDeductions_spec :
    Meets (collectFeeHookDeductions q hooks ask total) (fun ds => ∀ d ∈ ds, d.token = ask)
      (fun e => ¬e.Underflow) := by
  unfold collectFeeHookDeductions
  refine (validateStoredHooks_noUnderflow hooks).bind fun _ _ => ?_
  cases hask : q.addrValidate ask with
  | error e => exact (addrValidate_noUnderflow q ask).failure hask
  | ok a =>
      obtain rfl := (addrValidate_spec q ask).success hask
      exact collectDeductions_spec 0

end Hooks

section Settle

variable {q : Querier} {hooks : List Addr} {ask : Addr} {args : SwapArgs} {inputAmount : ℕ}
  {plan : SwapPlan} {legs : SwapLegs}

/-- The quote of the same legs goes through, fee hooks included. -/
def QuotedLegs.Settles (q : Querier) (hooks : List Addr) (ask : Addr) (legs : QuotedLegs) : Prop :=
  ∃ r ds net, legs.response = .ok r ∧
    collectFeeHookDeductions q hooks ask r.returnAmount = .ok ds ∧
    netReturnAfterHooks r.returnAmount ds = .ok net

/-- What a settlement says, in terms of the legs. -/
structure Settlement.Exact (q : Querier) (hooks : List Addr) (ask : Addr) (args : SwapArgs)
    (legs : SwapLegs) (s : Settlement) : Prop where
  total : addOrOverflow legs.bookMatch.returnNet legs.pool.returnAmount = .ok s.totalReturn
  commission :
    addOrOverflow legs.bookMatch.commissionTotal legs.pool.commissionAmount = .ok s.totalCommission
  collected : collectFeeHookDeductions q hooks ask s.totalReturn = .ok s.deductions
  hookFee : sumDeductions 0 s.deductions = .ok s.hookFeeTotal
  net : s.netReturn + s.hookFeeTotal = s.totalReturn
  belief : ∀ bp, args.beliefPrice = some bp → ∃ inv, beliefPriceReciprocal bp = .ok inv

theorem assertMinReturn_gate (minReturn : Option ℕ) (net : ℕ) :
    Meets (assertMinReturn minReturn net) (fun _ => True) ContractError.SwapGate := by
  unfold assertMinReturn
  cases minReturn with
  | none => exact trivial
  | some m => exact (meets_ensure (fun _ => trivial)).weaken fun _ _ => trivial

/-- A settlement fails at a limit of the user, or where the quote fails as well. -/
theorem settleSwap_spec : Meets (settleSwap q hooks ask args inputAmount plan legs)
    (Settlement.Exact q hooks ask args legs)
    (fun e => ¬e.Underflow ∧ (e.SwapGate ∨ ¬legs.quoted.Settles q hooks ask)) := by
  unfold settleSwap
  cases htotal : addOrOverflow legs.bookMatch.returnNet legs.pool.returnAmount with
  | error e =>
      refine ⟨(add_noUnderflow _ _).failure htotal, .inr ?_⟩
      rintro ⟨r, ds, net, hr, -⟩
      obtain ⟨t, ht, -⟩ := bind_eq_ok.1 hr
      cases htotal.symm.trans ht
  | ok total =>
  cases hcomm : addOrOverflow legs.bookMatch.commissionTotal legs.pool.commissionAmount with
  | error e =>
      refine ⟨(add_noUnderflow _ _).failure hcomm, .inr ?_⟩
      rintro ⟨r, ds, net, hr, -⟩
      obtain ⟨t, -, hr⟩ := bind_eq_ok.1 hr
      obtain ⟨c, hc, -⟩ := bind_eq_ok.1 hr
      rw [addOrOverflow_comm] at hc
      cases hcomm.symm.trans hc
  | ok commission =>
  have hquote : ∀ r, legs.quoted.response = .ok r → r.returnAmount = total := by
    intro r hr
    obtain ⟨t, ht, hr⟩ := bind_eq_ok.1 hr
    obtain ⟨c, -, hr⟩ := bind_eq_ok.1 hr
    cases hr
    exact Except.ok.inj (ht.symm.trans htotal)
  simp only [ok_bind]
  refine Meets.bind ((meets_liftSpread (checkMaxSpread_spec _ _ _)).mono (fun _ h => h) fun e he =>
    ⟨he.noUnderflow, .inl he⟩) fun _ hbelief => ?_
  cases hds : collectFeeHookDeductions q hooks ask total with
  | error e =>
      refine ⟨collectFeeHookDeductions_spec.failure hds, .inr ?_⟩
      rintro ⟨r, ds, net, hr, hds', -⟩
      rw [hquote r hr] at hds'
      cases hds.symm.trans hds'
  | ok ds =>
  rw [ok_bind]
  have hnet : ∀ e, netReturnAfterHooks total ds = .error e →
      ¬legs.quoted.Settles q hooks ask := by
    rintro e he ⟨r, ds', net, hr, hds', hnet⟩
    rw [hquote r hr] at hds' hnet
    obtain rfl := Except.ok.inj (hds.symm.trans hds')
    cases he.symm.trans hnet
  cases hsum : sumDeductions 0 ds with
  | error e =>
      rw [error_bind]
      refine ⟨(sumDeductions_spec 0 ds).failure hsum, .inr (hnet e ?_)⟩
      rw [netReturnAfterHooks, hsum, error_bind]
  | ok fee =>
  simp only [ok_bind]
  refine Meets.bind (Q := fun _ => fee ≤ total) (meets_ensure fun hgt => ⟨?_, .inr ?_⟩) ?_
  · rintro ⟨_, _, ⟨⟩⟩
  · refine hnet .overflow ?_
    rw [netReturnAfterHooks, hsum, ok_bind, subOrOverflow, orThrow_eq_error]
    exact ⟨checkedSub_eq_none.2 (not_le.1 hgt), rfl⟩
  intro _ hle
  rw [subOrOverflow_eq_ok.2 ⟨hle, rfl⟩, ok_bind]
  refine Meets.bind ((assertMinReturn_gate _ _).mono (fun _ h => h) fun e he =>
    ⟨he.noUnderflow, .inl he⟩) fun _ _ => ?_
  exact ⟨htotal, hcomm, hds, hsum, Nat.sub_add_cancel hle, hbelief⟩

end Settle

end Cl8yDex
