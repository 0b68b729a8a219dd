import Cl8yDex.DiscountRevocation

/-!
# Epochs of registrations

A run of the registry next to the list of all registrations ever made. Epochs increase along the
list, so a deregistration that carries an old answer's epoch finds the registration of that answer
or nothing.
-/

namespace Cl8yDex.DiscountRegistry

open Outcome Relation

structure Registration where
  wallet : Addr
  tierId : ℕ
  epoch : ℕ

structure State where
  storage : Storage
  assigned : List Registration

/-- The registrations after an accepted call. -/
def record (assigned : List Registration) (sender : Addr) (msg : ExecuteMsg) (s' : Storage) :
    List Registration :=
  match msg.registers sender with
  | some (wallet, tierId) =>
      assigned ++ [⟨wallet, tierId, (s'.registrationEpochs wallet).getD 0⟩]
  | none => assigned

/-- An accepted call; balances and all other answers may differ from call to call. -/
inductive Step : State → State → Prop
  | call {s s' : Storage} {assigned : List Registration} {host : Host} {sender : Addr}
      {msg : ExecuteMsg} (h : execute s host sender msg = .ok s') :
      Step ⟨s, assigned⟩ ⟨s', record assigned sender msg s'⟩

variable {s s' : Storage} {host host' : Host} {sender wallet w : Addr} {tierId e : ℕ}
  {msg : ExecuteMsg} {st st' : State} {assigned : List Registration} {r r' : Registration}

/-- The two maps have the same keys, and epochs are handed out in order. -/
structure Ordered (st : State) : Prop where
  keys : ∀ w, (st.storage.registrations w).isSome = (st.storage.registrationEpochs w).isSome
  increasing : (st.assigned.map Registration.epoch).Pairwise (· < ·)
  bounded : ∀ r ∈ st.assigned, 0 < r.epoch ∧ r.epoch ≤ st.storage.epochCounter
  current : ∀ w tierId e, st.storage.registrations w = some tierId →
    st.storage.registrationEpochs w = some e → ⟨w, tierId, e⟩ ∈ st.assigned

theorem eq_of_epoch_eq (hlt : (assigned.map Registration.epoch).Pairwise (· < ·))
    (hr : r ∈ assigned) (hr' : r' ∈ assigned) (heq : r.epoch = r'.epoch) : r = r' := by
  have hnodup : (assigned.map Registration.epoch).Nodup := hlt.imp fun hab => Nat.ne_of_lt hab
  exact List.inj_on_of_nodup_map hnodup hr hr' heq

theorem instantiate_ordered {governance cl8yToken : Addr}
    (h : instantiate host governance cl8yToken = .ok s) : Ordered ⟨s, []⟩ := by
  obtain ⟨_, _, h⟩ := bind_eq_ok.1 h
  obtain ⟨_, _, h⟩ := bind_eq_ok.1 h
  cases h
  constructor
  · exact fun _ => rfl
  · exact List.Pairwise.nil
  · intro r hr
    cases hr
  · intro w tierId e hw
    cases hw

theorem Ordered.congr (h : Ordered ⟨s, assigned⟩) (hreg : s'.registrations = s.registrations)
    (hepochs : s'.registrationEpochs = s.registrationEpochs)
    (hcounter : s'.epochCounter = s.epochCounter) : Ordered ⟨s', assigned⟩ := by
  constructor
  · intro w
    change (s'.registrations w).isSome = (s'.registrationEpochs w).isSome
    rw [hreg, hepochs]
    exact h.keys w
  · exact h.increasing
  · intro r hr
    obtain ⟨hpos, hle⟩ := h.bounded r hr
    exact ⟨hpos, hle.trans_eq hcounter.symm⟩
  · intro w tierId e hw he
    have hw' := (congrFun hreg w).symm.trans hw
    exact h.current w tierId e hw' ((congrFun hepochs w).symm.trans he)

/-- A new registration has an epoch above all before it. -/
theorem Ordered.registered (h : Ordered ⟨s, assigned⟩) :
    Ordered ⟨registered s wallet tierId, assigned ++ [⟨wallet, tierId, s.epochCounter + 1⟩]⟩ := by
  constructor
  · intro w
    by_cases hw : w = wallet
    · subst hw
      simp [DiscountRegistry.registered]
    · simpa [DiscountRegistry.registered, hw] using h.keys w
  · rw [List.map_append, List.pairwise_append]
    refine ⟨h.increasing, List.pairwise_singleton .., ?_⟩
    intro a ha b hb
    obtain ⟨r, hr, rfl⟩ := List.mem_map.1 ha
    rw [List.map_singleton, List.mem_singleton] at hb
    have := (h.bounded r hr).2
    change r.epoch ≤ s.epochCounter at this
    change b = s.epochCounter + 1 at hb
    omega
  · intro r hr
    change 0 < r.epoch ∧ r.epoch ≤ s.epochCounter + 1
    rcases List.mem_append.1 hr with hr | hr
    · obtain ⟨hpos, hle⟩ := h.bounded r hr
      exact ⟨hpos, hle.trans (Nat.le_succ _)⟩
    · rw [List.mem_singleton.1 hr]
      exact ⟨Nat.succ_pos _, le_rfl⟩
  · intro w t e ht he
    by_cases hw : w = wallet
    · subst hw
      have ht' := (Function.update_self ..).symm.trans ht
      have he' := (Function.update_self ..).symm.trans he
      cases ht'
      cases he'
      exact List.mem_append_right _ (List.mem_singleton_self _)
    · have ht' := (Function.update_of_ne hw ..).symm.trans ht
      have he' := (Function.update_of_ne hw ..).symm.trans he
      exact List.mem_append_left _ (h.current w t e ht' he')

theorem Ordered.removed (h : Ordered ⟨s, assigned⟩) :
    Ordered ⟨removeRegistration s wallet, assigned⟩ := by
  constructor
  · intro w
    by_cases hw : w = wallet
    · subst hw
      simp [removeRegistration]
    · simpa [removeRegistration, hw] using h.keys w
  · exact h.increasing
  · exact h.bounded
  · intro w t e ht he
    by_cases hw : w = wallet
    · subst hw
      have ht' := (Function.update_self ..).symm.trans ht
      cases ht'
    · have ht' := (Function.update_of_ne hw ..).symm.trans ht
      have he' := (Function.update_of_ne hw ..).symm.trans he
      exact h.current w t e ht' he'

theorem record_of_none (hmsg : msg.registers sender = none) :
    record assigned sender msg s' = assigned := by
  unfold record
  rw [hmsg]

theorem record_registered (hmsg : msg.registers sender = some (wallet, tierId)) :
    record assigned sender msg (registered s wallet tierId) =
      assigned ++ [⟨wallet, tierId, s.epochCounter + 1⟩] := by
  unfold record
  rw [hmsg]
  simp [DiscountRegistry.registered]

theorem Step.ordered (hstep : Step st st') (h : Ordered st) : Ordered st' := by
  cases hstep with
  | call hok =>
      cases execute_effect hok with
      | governed _ hmsg hreg hepochs hcounter =>
          rw [record_of_none hmsg]
          exact h.congr hreg hepochs hcounter
      | registered hmsg =>
          rw [record_registered hmsg]
          exact h.registered
      | skipped => exact h
      | deregistered => exact h.removed
      | revoked => exact h.removed

theorem Step.assigned_subset (hstep : Step st st') : st.assigned ⊆ st'.assigned := by
  cases hstep with
  | @call s s' assigned host sender msg =>
      change assigned ⊆ record assigned sender msg s'
      unfold record
      split
      · exact List.subset_append_left ..
      · exact List.Subset.refl _

theorem run_ordered (hrun : ReflTransGen Step st st') (h : Ordered st) :
    Ordered st' ∧ st.assigned ⊆ st'.assigned := by
  induction hrun with
  | refl => exact ⟨h, List.Subset.refl _⟩
  | tail _ hstep ih =>
      obtain ⟨hordered, hsub⟩ := ih
      exact ⟨hstep.ordered hordered, List.Subset.trans hsub hstep.assigned_subset⟩

/-- An answer carries an epoch only for a wallet that is registered. -/
theorem registrationEpoch_of_query {trader asker : Addr} {d : DiscountResponse}
    (h : queryDiscount s host trader asker = .ok d) (he : d.registrationEpoch = some e) :
    ∃ tierId, s.registrations (effectiveTrader s trader asker) = some tierId ∧
      e = (s.registrationEpochs (effectiveTrader s trader asker)).getD 0 := by
  unfold queryDiscount at h
  dsimp only at h
  split at h
  · cases h
    cases he
  · rename_i tierId hreg
    refine ⟨tierId, hreg, ?_⟩
    split at h
    · cases h
      exact (Option.some.inj he).symm
    · unfold tierDiscount at h
      split_ifs at h
      · cases h
        cases he
      · obtain ⟨balance, _, h⟩ := bind_eq_ok.1 h
        split_ifs at h
        · cases h
          cases he
        · cases h
          exact (Option.some.inj he).symm

/-- What the registry promises in a state about its registrations. -/
structure Revocations (st : State) : Prop where
  keys : ∀ w, (st.storage.registrations w).isSome = (st.storage.registrationEpochs w).isSome
  increasing : (st.assigned.map Registration.epoch).Pairwise (· < ·)
  current : ∀ w tierId e, st.storage.registrations w = some tierId →
    st.storage.registrationEpochs w = some e → ⟨w, tierId, e⟩ ∈ st.assigned
  stale : ∀ host trader asker d e, queryDiscount st.storage host trader asker = .ok d →
    d.registrationEpoch = some e → ∀ st', ReflTransGen Step st st' →
    ∀ host' sender w s',
      execute st'.storage host' sender (.deregisterWallet w (some e)) = .ok s' →
      s' = st'.storage ∨
        w = effectiveTrader st.storage trader asker ∧
          (∃ tierId, st.storage.registrations w = some tierId ∧
            st'.storage.registrations w = some tierId) ∧
          st.storage.registrationEpochs w = some e ∧
          st'.storage.registrationEpochs w = some e ∧
          s' = removeRegistration st'.storage w
  others : ∀ host sender msg s' w, execute st.storage host sender msg = .ok s' →
    sender ≠ st.storage.config.governance → w ≠ sender → Changed st.storage s' w →
    s'.registrations w = none ∧ Revocable st.storage host w
  locked : ∀ host sender msg s' w, execute st.storage host sender msg = .ok s' →
    sender ≠ st.storage.config.governance → Locked st.storage w →
    ¬Changed st.storage s' w ∧ s'.tiers = st.storage.tiers

theorem Ordered.stale (h : Ordered st) {trader asker : Addr} {d : DiscountResponse}
    (hquery : queryDiscount st.storage host trader asker = .ok d)
    (he : d.registrationEpoch = some e) (hrun : ReflTransGen Step st st')
    (hok : execute st'.storage host' sender (.deregisterWallet w (some e)) = .ok s') :
    s' = st'.storage ∨
      w = effectiveTrader st.storage trader asker ∧
        (∃ tierId, st.storage.registrations w = some tierId ∧
          st'.storage.registrations w = some tierId) ∧
        st.storage.registrationEpochs w = some e ∧
        st'.storage.registrationEpochs w = some e ∧
        s' = removeRegistration st'.storage w := by
  obtain ⟨tierId, hreg, heq⟩ := registrationEpoch_of_query hquery he
  obtain ⟨h', hsub⟩ := run_ordered hrun h
  set seen := effectiveTrader st.storage trader asker
  have hsome : (st.storage.registrationEpochs seen).isSome := by
    rw [← h.keys, hreg]
    rfl
  obtain ⟨e', hepoch⟩ := Option.isSome_iff_exists.1 hsome
  rw [hepoch, Option.getD_some] at heq
  subst heq
  have hseen := h.current seen tierId e hreg hepoch
  obtain hskipped | ⟨hremoved, hexpected, -⟩ := executeDeregisterWallet_eq_ok hok
  · exact .inl hskipped
  · have hnow : st'.storage.registrationEpochs w = some e := by
      have hpos := (h.bounded _ hseen).1
      have hmatch := hexpected e rfl
      cases hw : st'.storage.registrationEpochs w with
      | none =>
          rw [hw] at hmatch
          exact absurd hmatch hpos.ne
      | some e' =>
          rw [hw] at hmatch
          exact congrArg some hmatch
    have hsome' : (st'.storage.registrations w).isSome := by
      rw [h'.keys, hnow]
      rfl
    obtain ⟨tierId', hreg'⟩ := Option.isSome_iff_exists.1 hsome'
    have hsame := eq_of_epoch_eq h'.increasing (h'.current w tierId' e hreg' hnow) (hsub hseen) rfl
    have hw : w = seen := congrArg Registration.wallet hsame
    have htier : tierId' = tierId := congrArg Registration.tierId hsame
    rw [htier] at hreg'
    refine .inr ⟨hw, ⟨tierId, ?_, hreg'⟩, ?_, hnow, hremoved⟩
    · rw [hw, hreg]
    · rw [hw, hepoch]

theorem Ordered.revocations (h : Ordered st) : Revocations st where
  keys := h.keys
  increasing := h.increasing
  current := h.current
  stale _ _ _ _ _ hquery he _ hrun _ _ _ _ hok := h.stale hquery he hrun hok
  others _ _ _ _ _ hok hgov hw hchanged := (execute_effect hok).of_other hgov hw hchanged
  locked _ _ _ _ _ hok hgov hlocked :=
    ⟨(execute_effect hok).of_locked hgov hlocked, (execute_effect hok).tiers hgov⟩

/-- In every state that calls reach from an instantiated registry, registrations are revoked only
when they should be. -/
theorem registrations_revoked_when_due {governance cl8yToken : Addr}
    (hinit : instantiate host governance cl8yToken = .ok s)
    (hrun : ReflTransGen Step ⟨s, []⟩ st) : Revocations st :=
  (run_ordered hrun (instantiate_ordered hinit)).1.revocations

/-- The state after calls that are all accepted. -/
def State.calls (st : State) (host : Host) (calls : List (Addr × ExecuteMsg)) :
    Except ContractError State :=
  calls.foldlM (fun st c => do
    let s' ← execute st.storage host c.1 c.2
    return ⟨s', record st.assigned c.1 c.2 s'⟩) st

theorem State.calls_run {calls : List (Addr × ExecuteMsg)} (h : st.calls host calls = .ok st') :
    ReflTransGen Step st st' := by
  induction calls generalizing st with
  | nil =>
      cases h
      exact .refl
  | cons c calls ih =>
      unfold State.calls at h ih
      rw [List.foldlM_cons] at h
      obtain ⟨st₁, hfirst, hrest⟩ := bind_eq_ok.1 h
      obtain ⟨s', hok, hfirst⟩ := bind_eq_ok.1 hfirst
      cases hfirst
      exact .head (.call hok) (ih hrest)

/-- Governance 1 adds a tier; wallet 3 registers for it, leaves it and registers again. -/
theorem registrations_revoked_when_due_sample : ∃ st : State,
    (st.storage.registrations 3 = some 1 ∧ st.storage.registrationEpochs 3 = some 2) ∧
      Revocations st := by
  have hinit : Meets (instantiate ⟨fun _ => true, fun _ => false, fun _ _ => some 7⟩ 1 2 >>=
      fun s => State.calls ⟨s, []⟩ ⟨fun _ => true, fun _ => false, fun _ _ => some 7⟩
        [(1, .addTier 1 ⟨5, 250, none, false⟩), (3, .register 1), (3, .deregister),
          (3, .register 1)])
      (fun st => st.storage.registrations 3 = some 1 ∧ st.storage.registrationEpochs 3 = some 2)
      fun _ => False := by
    decide +kernel
  obtain ⟨st, hst, hvalues⟩ := hinit.accepted
  obtain ⟨s, hs, hcalls⟩ := bind_eq_ok.1 hst
  exact ⟨st, hvalues, registrations_revoked_when_due hs (State.calls_run hcalls)⟩

end Cl8yDex.DiscountRegistry
