import Cl8yDex.DiscountRegistry
import Mathlib.Logic.Relation

/-!
# When a registration is revoked

Each accepted call is inverted once: a registration changes by governance, by the wallet itself, or
by anybody once its tier is gone or asks for more than the wallet has.
-/

namespace Cl8yDex.DiscountRegistry

open Outcome Relation

variable {s s' : Storage} {host : Host} {sender wallet w : Addr} {tierId t : ℕ}
  {msg : ExecuteMsg}

/-- The registration that a message asks for. -/
def ExecuteMsg.registers (sender : Addr) : ExecuteMsg → Option (Addr × ℕ)
  | .register tierId => some (sender, tierId)
  | .registerWallet wallet tierId => some (wallet, tierId)
  | _ => none

/-- The storage with the wallet registered under the next epoch. -/
def registered (s : Storage) (wallet : Addr) (tierId : ℕ) : Storage :=
  { s with
    registrations := Function.update s.registrations wallet (some tierId)
    epochCounter := s.epochCounter + 1
    registrationEpochs := Function.update s.registrationEpochs wallet (some (s.epochCounter + 1)) }

/-- The wallet's tier is gone, or it asks for a balance that the wallet does not have. -/
def Revocable (s : Storage) (host : Host) (wallet : Addr) : Prop :=
  ∃ tierId, s.registrations wallet = some tierId ∧ ∀ tier ∈ s.tiers tierId,
    0 < tier.minCl8yBalance ∧
      ∃ balance, host.balance s.config.cl8yToken wallet = some balance ∧
        balance < tier.minCl8yBalance

/-- The wallet is in a tier that only governance assigns. -/
def Locked (s : Storage) (wallet : Addr) : Prop :=
  ∃ tierId ∈ s.registrations wallet, isGovernanceTier s tierId

/-- What an accepted call does, with what gave it the right to. -/
inductive Effect (s : Storage) (host : Host) (sender : Addr) : ExecuteMsg → Storage → Prop
  | governed {msg : ExecuteMsg} {s' : Storage} (hgov : sender = s.config.governance)
      (hmsg : msg.registers sender = none) (hreg : s'.registrations = s.registrations)
      (hepochs : s'.registrationEpochs = s.registrationEpochs)
      (hcounter : s'.epochCounter = s.epochCounter) : Effect s host sender msg s'
  | registered {msg : ExecuteMsg} {wallet tierId : ℕ}
      (hmsg : msg.registers sender = some (wallet, tierId))
      (hcaller : sender = s.config.governance ∨ wallet = sender ∧ ¬Locked s sender) :
      Effect s host sender msg (registered s wallet tierId)
  | skipped {wallet : Addr} {epoch : Option ℕ} :
      Effect s host sender (.deregisterWallet wallet epoch) s
  | deregistered (hunlocked : ¬Locked s sender) :
      Effect s host sender .deregister (removeRegistration s sender)
  | revoked {wallet : Addr} {epoch : Option ℕ}
      (hepoch : ∀ expected ∈ epoch, (s.registrationEpochs wallet).getD 0 = expected)
      (hcaller : sender = s.config.governance ∨ ¬Locked s wallet ∧ Revocable s host wallet) :
      Effect s host sender (.deregisterWallet wallet epoch) (removeRegistration s wallet)

theorem addrValidate_eq_ok {a b : Addr} (h : addrValidate host a = .ok b) : b = a := by
  unfold addrValidate at h
  split_ifs at h
  cases h
  rfl

theorem saveRegistration_eq_ok (h : saveRegistration s wallet tierId = .ok s') :
    s' = registered s wallet tierId := by
  obtain ⟨_, _, h⟩ := bind_eq_ok.1 h
  cases h
  rfl

theorem executeRegister_effect (h : executeRegister s host sender tierId = .ok s') :
    Effect s host sender (.register tierId) s' := by
  obtain ⟨_, _, h⟩ := bind_eq_ok.1 h
  obtain ⟨tier, _, h⟩ := bind_eq_ok.1 h
  obtain ⟨_, _, h⟩ := bind_eq_ok.1 h
  obtain ⟨_, hunlocked, h⟩ := bind_eq_ok.1 h
  obtain ⟨_, _, h⟩ := bind_eq_ok.1 h
  rw [ensure_eq_ok] at hunlocked
  rw [saveRegistration_eq_ok h]
  exact .registered rfl (.inr ⟨rfl, hunlocked⟩)

theorem executeRegisterWallet_effect
    (h : executeRegisterWallet s host sender wallet tierId = .ok s') :
    Effect s host sender (.registerWallet wallet tierId) s' := by
  obtain ⟨_, hgov, h⟩ := bind_eq_ok.1 h
  obtain ⟨_, _, h⟩ := bind_eq_ok.1 h
  obtain ⟨_, hwallet, h⟩ := bind_eq_ok.1 h
  rw [addrValidate_eq_ok hwallet] at h
  rw [saveRegistration_eq_ok h]
  exact .registered rfl (.inl (ensure_eq_ok.1 hgov))

theorem executeDeregister_effect (h : executeDeregister s sender = .ok s') :
    Effect s host sender .deregister s' := by
  obtain ⟨current, hcurrent, h⟩ := bind_eq_ok.1 h
  obtain ⟨_, hopen, h⟩ := bind_eq_ok.1 h
  cases h
  rw [orThrow_eq_ok] at hcurrent
  rw [ensure_eq_ok] at hopen
  apply Effect.deregistered
  intro ⟨locked, hlocked, hgovernance⟩
  rw [Option.mem_unique hlocked hcurrent] at hgovernance
  exact hopen hgovernance

theorem ensureBelowMinimum_eq_ok (hcurrent : s.registrations wallet = some tierId)
    (h : ensureBelowMinimum s host wallet tierId = .ok ()) : Revocable s host wallet := by
  refine ⟨tierId, hcurrent, ?_⟩
  intro tier htier
  unfold ensureBelowMinimum at h
  rw [show s.tiers tierId = some tier from htier] at h
  obtain ⟨_, hzero, h⟩ := bind_eq_ok.1 h
  obtain ⟨balance, hbalance, h⟩ := bind_eq_ok.1 h
  rw [ensure_eq_ok] at hzero h
  exact ⟨Nat.pos_of_ne_zero hzero, balance, orThrow_eq_ok.1 hbalance, not_le.1 h⟩

theorem deregisterCurrent_eq_ok (h : deregisterCurrent s host sender wallet = .ok s') :
    s' = removeRegistration s wallet ∧
      (sender = s.config.governance ∨ ¬Locked s wallet ∧ Revocable s host wallet) := by
  obtain ⟨current, hcurrent, h⟩ := bind_eq_ok.1 h
  obtain ⟨_, hopen, h⟩ := bind_eq_ok.1 h
  rw [orThrow_eq_ok] at hcurrent
  rw [ensure_eq_ok] at hopen
  split_ifs at h with hgov
  · cases h
    exact ⟨rfl, .inl hgov⟩
  · obtain ⟨_, hbelow, h⟩ := bind_eq_ok.1 h
    cases h
    refine ⟨rfl, .inr ⟨?_, ensureBelowMinimum_eq_ok hcurrent hbelow⟩⟩
    intro ⟨locked, hlocked, hgovernance⟩
    rw [Option.mem_unique hlocked hcurrent] at hgovernance
    exact hopen ⟨hgovernance, hgov⟩

/-- Either the epoch is another one and nothing happens, or the registration is removed. -/
theorem executeDeregisterWallet_eq_ok {epoch : Option ℕ}
    (h : executeDeregisterWallet s host sender wallet epoch = .ok s') :
    s' = s ∨ s' = removeRegistration s wallet ∧
      (∀ expected ∈ epoch, (s.registrationEpochs wallet).getD 0 = expected) ∧
      (sender = s.config.governance ∨ ¬Locked s wallet ∧ Revocable s host wallet) := by
  obtain ⟨_, hwallet, h⟩ := bind_eq_ok.1 h
  rw [addrValidate_eq_ok hwallet] at h
  split_ifs at h with hmismatch
  · cases h
    exact .inl rfl
  · obtain ⟨hs', hcaller⟩ := deregisterCurrent_eq_ok h
    refine .inr ⟨hs', ?_, hcaller⟩
    intro expected hexpected
    by_contra hne
    exact hmismatch ⟨expected, hexpected, hne⟩

theorem executeDeregisterWallet_effect {epoch : Option ℕ}
    (h : executeDeregisterWallet s host sender wallet epoch = .ok s') :
    Effect s host sender (.deregisterWallet wallet epoch) s' := by
  obtain rfl | ⟨rfl, hepoch, hcaller⟩ := executeDeregisterWallet_eq_ok h
  · exact .skipped
  · exact .revoked hepoch hcaller

theorem setTrustedRouter_effect {router : Addr} {trusted : Bool}
    (hmsg : msg.registers sender = none)
    (h : setTrustedRouter s host sender router trusted = .ok s') : Effect s host sender msg s' := by
  obtain ⟨_, hgov, h⟩ := bind_eq_ok.1 h
  obtain ⟨_, _, h⟩ := bind_eq_ok.1 h
  cases h
  exact .governed (ensure_eq_ok.1 hgov) hmsg rfl rfl rfl

theorem execute_effect (h : execute s host sender msg = .ok s') :
    Effect s host sender msg s' := by
  cases msg with
  | addTier tierId tier =>
      obtain ⟨_, hgov, h⟩ := bind_eq_ok.1 h
      obtain ⟨_, _, h⟩ := bind_eq_ok.1 h
      obtain ⟨_, _, h⟩ := bind_eq_ok.1 h
      obtain ⟨_, _, h⟩ := bind_eq_ok.1 h
      cases h
      exact .governed (ensure_eq_ok.1 hgov) rfl rfl rfl rfl
  | updateTier tierId u =>
      obtain ⟨_, hgov, h⟩ := bind_eq_ok.1 h
      obtain ⟨_, _, h⟩ := bind_eq_ok.1 h
      obtain ⟨_, _, h⟩ := bind_eq_ok.1 h
      obtain ⟨_, _, h⟩ := bind_eq_ok.1 h
      cases h
      exact .governed (ensure_eq_ok.1 hgov) rfl rfl rfl rfl
  | removeTier tierId =>
      obtain ⟨_, hgov, h⟩ := bind_eq_ok.1 h
      obtain ⟨_, _, h⟩ := bind_eq_ok.1 h
      cases h
      exact .governed (ensure_eq_ok.1 hgov) rfl rfl rfl rfl
  | register tierId => exact executeRegister_effect h
  | registerWallet wallet tierId => exact executeRegisterWallet_effect h
  | deregister => exact executeDeregister_effect h
  | deregisterWallet wallet epoch => exact executeDeregisterWallet_effect h
  | addTrustedRouter router => exact setTrustedRouter_effect rfl h
  | removeTrustedRouter router => exact setTrustedRouter_effect rfl h
  | updateConfig governance cl8yToken =>
      obtain ⟨_, hgov, h⟩ := bind_eq_ok.1 h
      obtain ⟨_, _, h⟩ := bind_eq_ok.1 h
      obtain ⟨_, _, h⟩ := bind_eq_ok.1 h
      cases h
      exact .governed (ensure_eq_ok.1 hgov) rfl rfl rfl rfl

section Step

/-- The wallet's registration is another one, or none. -/
def Changed (s s' : Storage) (wallet : Addr) : Prop :=
  s'.registrations wallet ≠ s.registrations wallet ∨
    s'.registrationEpochs wallet ≠ s.registrationEpochs wallet

theorem changed_registered (h : Changed s (registered s wallet tierId) w) : w = wallet := by
  by_contra hw
  rcases h with h | h
  · exact h (Function.update_of_ne hw ..)
  · exact h (Function.update_of_ne hw ..)

theorem changed_removeRegistration (h : Changed s (removeRegistration s wallet) w) :
    w = wallet := by
  by_contra hw
  rcases h with h | h
  · exact h (Function.update_of_ne hw ..)
  · exact h (Function.update_of_ne hw ..)

theorem not_changed_self : ¬Changed s s w := by
  rintro (h | h) <;> exact h rfl

/-- Neither governance nor the wallet: the registration is removed, and it was due. -/
theorem Effect.of_other (h : Effect s host sender msg s') (hgov : sender ≠ s.config.governance)
    (hw : w ≠ sender) (hchanged : Changed s s' w) :
    s'.registrations w = none ∧ Revocable s host w := by
  cases h with
  | governed hg => exact absurd hg hgov
  | registered _ hcaller =>
      obtain hg | ⟨hwallet, -⟩ := hcaller
      · exact absurd hg hgov
      · exact absurd ((changed_registered hchanged).trans hwallet) hw
  | skipped => exact absurd hchanged not_changed_self
  | deregistered => exact absurd (changed_removeRegistration hchanged) hw
  | revoked _ hcaller =>
      obtain hg | ⟨-, hrevocable⟩ := hcaller
      · exact absurd hg hgov
      · rw [changed_removeRegistration hchanged]
        exact ⟨Function.update_self .., hrevocable⟩

theorem Effect.of_locked (h : Effect s host sender msg s') (hgov : sender ≠ s.config.governance)
    (hlocked : Locked s w) : ¬Changed s s' w := by
  intro hchanged
  cases h with
  | governed hg => exact hgov hg
  | registered _ hcaller =>
      obtain hg | ⟨hwallet, hunlocked⟩ := hcaller
      · exact hgov hg
      · rw [changed_registered hchanged, hwallet] at hlocked
        exact hunlocked hlocked
  | skipped => exact not_changed_self hchanged
  | deregistered hunlocked =>
      rw [changed_removeRegistration hchanged] at hlocked
      exact hunlocked hlocked
  | revoked _ hcaller =>
      obtain hg | ⟨hunlocked, -⟩ := hcaller
      · exact hgov hg
      · rw [changed_removeRegistration hchanged] at hlocked
        exact hunlocked hlocked

theorem Effect.tiers (h : Effect s host sender msg s') (hgov : sender ≠ s.config.governance) :
    s'.tiers = s.tiers := by
  cases h with
  | governed hg => exact absurd hg hgov
  | registered => rfl
  | skipped => rfl
  | deregistered => rfl
  | revoked => rfl

end Step

end Cl8yDex.DiscountRegistry
