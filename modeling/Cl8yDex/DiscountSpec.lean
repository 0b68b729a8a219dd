import Cl8yDex.Effects

/-!
# Discounts and the messages they cause

Looking up a fee fails only at a malformed address, and the only message it can cause asks the
registry to drop a wallet.
-/

namespace Cl8yDex

open Outcome

section Discount

variable (q : Querier) (c : DiscountCache)

/-- The message only tells the registry to drop a wallet. -/
def CosmosMsg.Deregisters : CosmosMsg → Prop
  | deregisterWallet .. => True
  | _ => False

/-- A malformed address in the request. -/
def ContractError.InvalidAddress (e : ContractError) : Prop :=
  e = .std (.genericErr "invalid address")

theorem ContractError.InvalidAddress.noUnderflow {e : ContractError} (h : e.InvalidAddress) :
    ¬e.Underflow := by
  rintro ⟨_, _, rfl⟩
  cases h

theorem addrValidate_spec (a : Addr) :
    Meets (q.addrValidate a) (fun a' => a' = a) ContractError.InvalidAddress := by
  unfold Querier.addrValidate
  split_ifs
  · exact rfl
  · exact rfl

theorem addrValidate_noUnderflow (a : Addr) :
    Meets (q.addrValidate a) (fun a' => a' = a) (fun e => ¬e.Underflow) :=
  (addrValidate_spec q a).mono (fun _ h => h) fun _ h => h.noUnderflow

theorem lookupEffectiveFeeBpsCached_spec (blockTime feeBps : ℕ)
    (discountRegistry : Option Addr) (trader sender : Addr) :
    Meets (lookupEffectiveFeeBpsCached q c blockTime feeBps discountRegistry trader sender)
      (fun _ => True) ContractError.InvalidAddress := by
  unfold lookupEffectiveFeeBpsCached
  cases discountRegistry with
  | none => exact trivial
  | some registry =>
      have hhit : Meets (tryDiscountCacheHit q c blockTime trader sender) (fun _ => True)
          ContractError.InvalidAddress := by
        unfold tryDiscountCacheHit
        exact (addrValidate_spec q trader).bind fun _ _ =>
          (addrValidate_spec q sender).bind fun _ _ => trivial
      refine hhit.bind fun hit _ => ?_
      cases hit with
      | some hit => exact trivial
      | none =>
          simp only [lookupRegistry]
          cases q.getDiscount registry trader sender with
          | none => exact trivial
          | some discount => exact (addrValidate_spec q trader).bind fun _ _ =>
              (addrValidate_spec q sender).bind fun _ _ => trivial

theorem settleDiscount_spec (discountRegistry : Option Addr) (trader sender : Addr)
    (discount : Option DiscountResponse) :
    Meets (settleDiscount q c discountRegistry trader sender discount)
      (fun out => ∀ m ∈ out.2, m.Deregisters) ContractError.InvalidAddress := by
  have hmsgs : ∀ registry (d : DiscountResponse), ∀ m ∈ deregisterMsgsForDiscount registry trader d,
      m.Deregisters := by
    intro registry d m hm
    unfold deregisterMsgsForDiscount at hm
    split_ifs at hm
    · rw [List.mem_singleton.1 hm]
      exact trivial
    · cases hm
  unfold settleDiscount
  cases discountRegistry with
  | none => exact fun m hm => by cases hm
  | some registry =>
      cases discount with
      | none => exact fun m hm => by cases hm
      | some d =>
          simp only
          split_ifs with hnil
          · exact hmsgs registry d
          · exact (addrValidate_spec q trader).bind fun _ _ =>
              (addrValidate_spec q sender).bind fun _ _ => hmsgs registry d

theorem effectiveFeeBpsWithDiscountMsgs_spec (blockTime feeBps : ℕ)
    (discountRegistry : Option Addr) (owner : Addr) :
    Meets (effectiveFeeBpsWithDiscountMsgs q c blockTime feeBps discountRegistry owner)
      (fun out => ∀ m ∈ out.2.2, m.Deregisters) ContractError.InvalidAddress := by
  unfold effectiveFeeBpsWithDiscountMsgs
  refine (lookupEffectiveFeeBpsCached_spec q c _ _ _ _ _).bind fun out _ => ?_
  exact (settleDiscount_spec q _ _ _ _ _).bind fun out h => h

theorem effectiveFeeBpsWithDeregisterMsgs_spec (blockTime feeBps : ℕ)
    (discountRegistry : Option Addr) (trader sender : Addr) :
    Meets (effectiveFeeBpsWithDeregisterMsgs q c blockTime feeBps discountRegistry trader sender)
      (fun out => ∀ m ∈ out.2.2, m.Deregisters) ContractError.InvalidAddress := by
  unfold effectiveFeeBpsWithDeregisterMsgs
  refine (lookupEffectiveFeeBpsCached_spec q c _ _ _ _ _).bind fun out _ => ?_
  exact (settleDiscount_spec q _ _ _ _ _).bind fun out h => h

/-- Deregistrations move no token. -/
theorem amounts_of_deregisters {msgs : List CosmosMsg} (h : ∀ m ∈ msgs, m.Deregisters)
    (token : Addr) : totalOf (CosmosMsg.sent token) msgs = 0 ∧
      totalOf (CosmosMsg.pulled token) msgs = 0 := by
  have hm : ∀ m ∈ msgs, m.sent token = 0 ∧ m.pulled token = 0 := by
    intro m hm
    have hd := h m hm
    cases m with
    | deregisterWallet r w e => exact ⟨rfl, rfl⟩
    | _ => exact absurd hd id
  exact ⟨totalOf_eq_zero fun m h => (hm m h).1, totalOf_eq_zero fun m h => (hm m h).2⟩

end Discount

end Cl8yDex
