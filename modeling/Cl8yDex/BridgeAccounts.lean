import Cl8yDex.BridgeRuns

/-!
# The accounts of the issuer

What the ledger says of a reachable state, of the calls made in it, and why the tokens and the
receipts have to stay apart: a receipt that is also a market's token can be minted without its own
market's record.
-/

namespace Cl8yDex.BridgeDebt

open Relation

section Accounts

variable {σ : Type} (cw20 : Cw20 σ) (validAddr : Addr → Bool) (me : Addr)

structure MarketAccounted (st : State σ) (u : Addr) (m : Market) : Prop where
  issued : (m.outstanding : ℤ) = totalIssued (st.history.issues u) - st.history.repaid u
  receipt : ∃ r, st.world.contracts m.debtToken = some (.receipt r) ∧
    r.totalSupply = m.outstanding ∧ r.balances m.debtor = m.outstanding ∧
    (∀ a, a ≠ m.debtor → r.balances a = 0) ∧ ∀ cap ∈ r.cap, r.totalSupply ≤ cap
  contributed : st.history.contributed u = m.outstanding
  epoch : ∀ l ∈ m.limits,
    issuedSince (st.history.issues u) (m.epoch * l.epochSeconds) = m.epochIssued

/-- An issue was allowed and stays within the limits in force. -/
def IssueWithin (w w' : World σ) (h' : History) (u : Addr) : Prop :=
  ∃ m m' l, w.issuer.markets u = some m ∧ w'.issuer.markets u = some m' ∧
    m.paused = false ∧ m.pendingUpgrade = none ∧ m.limits = some l ∧
    m'.outstanding ≤ l.maxOutstanding ∧ m'.epochIssued ≤ l.maxPerEpoch ∧
    issuedSince (h'.issues u) (w.now / l.epochSeconds * l.epochSeconds) = m'.epochIssued

/-- Consumed quota and the running epoch are as before. -/
def QuotaKept (w w' : World σ) (u : Addr) : Prop :=
  ∀ m, w.issuer.markets u = some m → ∃ m', w'.issuer.markets u = some m' ∧
    m'.epochIssued = m.epochIssued ∧ ∀ l ∈ m.limits, m'.epoch = m.epoch ∧
      ∃ l' ∈ m'.limits, l'.epochSeconds = l.epochSeconds

/-- The bridge-debt accounts of a state and of every call that can be made in it. -/
structure Accounted (st : State σ) : Prop where
  markets : ∀ u m, st.world.issuer.markets u = some m → MarketAccounted st u m
  issue : ∀ info u recipient amount w',
    st.world.call cw20 validAddr me info (.issue u recipient amount) = some w' →
    IssueWithin st.world w'
      (st.history.record cw20 st.world w' info (.issue u recipient amount)) u
  quota : ∀ info msg u w', (∀ recipient amount, msg ≠ .issue u recipient amount) →
    st.world.call cw20 validAddr me info msg = some w' → QuotaKept st.world w' u
  refused : ∀ info msg, st.world.call cw20 validAddr me info msg = none →
    st.world.transact cw20 validAddr me info msg = st.world

end Accounts

variable {σ : Type} {cw20 : Cw20 σ} {validAddr : Addr → Bool} {me : Addr} {w w' : World σ}
  {h : History} {u : Addr} {m : Market} {info : MessageInfo} {msg : ExecuteMsg} {st st' : State σ}

theorem Kept.accounted (hkept : Kept me w h u m) : MarketAccounted ⟨w, h⟩ u m := by
  constructor
  · have hissued := hkept.issued
    change (m.outstanding : ℤ) = totalIssued (h.issues u) - h.repaid u
    omega
  · obtain ⟨r, hr, hheld, -, hdebtor, hsupply⟩ := hkept.receipt
    refine ⟨r, hr, hsupply, ?_, ?_, hheld.capped⟩
    · rw [← hdebtor, hheld.debtor, hsupply]
    · rw [← hdebtor]
      exact hheld.others
  · exact hkept.contributed
  · exact hkept.quota.exact

theorem World.sends_issuer {ms : List WasmMsg}
    (hsend : ms.foldlM (fun w m => w.send cw20 validAddr me m) w = some w') :
    w'.issuer = w.issuer := by
  induction ms generalizing w with
  | nil =>
      cases hsend
      rfl
  | cons m ms ih =>
      rw [List.foldlM_cons] at hsend
      obtain ⟨w₁, hfirst, hsend⟩ := Option.bind_eq_some_iff.1 hsend
      obtain ⟨c, c', -, -, rfl⟩ := World.send_eq_some hfirst
      have hrest := ih hsend
      exact hrest

theorem Sound.issueWithin (hs : Sound me w h) {recipient amount : ℕ}
    (hcall : w.call cw20 validAddr me info (.issue u recipient amount) = some w') :
    IssueWithin w w' (h.record cw20 w w' info (.issue u recipient amount)) u := by
  obtain ⟨s', ms, heffect, hsend⟩ := World.call_eq_some hcall
  cases heffect with
  | settings hmsg => exact hmsg.elim
  | adjusted hmsg => exact hmsg.elim
  | @issued _ _ _ issued m l hm _ hconsumes =>
      have hself := congrFun (congrArg Storage.markets (World.sends_issuer hsend)) u
      have hquota : Quota (h.issues u ++ [⟨w.now, amount⟩])
          { m with epoch := w.now / l.epochSeconds, epochIssued := issued } :=
        (hs.markets u m hm).quota.consumes hconsumes rfl rfl rfl
      refine ⟨m, _, l, hm, hself.trans (Function.update_self ..), hconsumes.active.1,
        hconsumes.active.2, hconsumes.limits, hconsumes.outstanding, hconsumes.perEpoch, ?_⟩
      rw [show (h.record cw20 w w' info (.issue u recipient amount)).issues u =
        h.issues u ++ [⟨w.now, amount⟩] from Function.update_self ..]
      exact hquota.exact l hconsumes.limits

theorem QuotaKept.of_markets (heq : w'.issuer.markets u = w.issuer.markets u) :
    QuotaKept w w' u := by
  intro m hm
  exact ⟨m, heq.trans hm, rfl, fun l hl => ⟨rfl, l, hl, rfl⟩⟩

/-- Only an issue on the market itself touches its quota. -/
theorem World.call_quotaKept (hother : ∀ recipient amount, msg ≠ .issue u recipient amount)
    (hcall : w.call cw20 validAddr me info msg = some w') : QuotaKept w w' u := by
  obtain ⟨s', ms, heffect, hsend⟩ := World.call_eq_some hcall
  have hmarkets := congrFun (congrArg Storage.markets (World.sends_issuer hsend)) u
  cases heffect with
  | settings _ heq _ => exact .of_markets (hmarkets.trans (congrFun heq u))
  | @registered v t d decimals pins _ hnew =>
      by_cases hv : u = v
      · intro m hm
        rw [hv, hnew] at hm
        cases hm
      · exact .of_markets (hmarkets.trans (Function.update_of_ne hv ..))
  | @adjusted _ v m₀ m' _ hm₀ hkeeps =>
      by_cases hv : u = v
      · intro m hm
        rw [hv] at hm hmarkets ⊢
        cases hm₀.symm.trans hm
        exact ⟨m', hmarkets.trans (Function.update_self ..), hkeeps.epochIssued, hkeeps.running⟩
      · exact .of_markets (hmarkets.trans (Function.update_of_ne hv ..))
  | @issued v recipient amount =>
      have hv : u ≠ v := by
        intro heq
        exact hother recipient amount (by rw [heq])
      exact .of_markets (hmarkets.trans (Function.update_of_ne hv ..))
  | @repaid _ amount _ m₀ _ hm₀ =>
      by_cases hv : u = info.sender
      · intro m hm
        rw [hv] at hm hmarkets ⊢
        cases hm₀.symm.trans hm
        exact ⟨_, hmarkets.trans (Function.update_self ..), rfl, fun l hl => ⟨rfl, l, hl, rfl⟩⟩
      · exact .of_markets (hmarkets.trans (Function.update_of_ne hv ..))
  | recovered => exact .of_markets hmarkets

theorem Sound.accounted (hs : Sound me st.world st.history) :
    Accounted cw20 validAddr me st where
  markets u m hm := (hs.markets u m hm).accounted
  issue _ _ _ _ _ hcall := hs.issueWithin hcall
  quota _ _ _ _ hother hcall := World.call_quotaKept hother hcall
  refused info msg hcall := by
    rw [World.transact, hcall]
    rfl

/-- As long as no market's token is another market's receipt, the accounts hold in every state. -/
theorem debt_accounted (hcw20 : cw20.Prescribed) {owner : Addr} {codes : Addr → Option ℕ}
    {now : ℕ}
    (hrun : ReflTransGen (Step cw20 validAddr me KeepsApart) (.initial owner codes now) st) :
    Accounted cw20 validAddr me st :=
  (sound_of_run hcw20 hrun).accounted

/-- The state after calls that all go through. -/
def State.calls (cw20 : Cw20 σ) (validAddr : Addr → Bool) (me : Addr)
    (allowed : Storage → ExecuteMsg → Prop) [∀ s msg, Decidable (allowed s msg)] (st : State σ)
    (calls : List (MessageInfo × ExecuteMsg)) : Option (State σ) :=
  calls.foldlM (fun st c =>
    if allowed st.world.issuer c.2 then
      (st.world.call cw20 validAddr me c.1 c.2).map fun w' =>
        ⟨w', st.history.record cw20 st.world w' c.1 c.2⟩
    else none) st

theorem State.calls_run {allowed : Storage → ExecuteMsg → Prop}
    [∀ s msg, Decidable (allowed s msg)] {calls : List (MessageInfo × ExecuteMsg)}
    (hcalls : st.calls cw20 validAddr me allowed calls = some st') :
    ReflTransGen (Step cw20 validAddr me allowed) st st' := by
  induction calls generalizing st with
  | nil =>
      cases hcalls
      exact .refl
  | cons c calls ih =>
      unfold State.calls at hcalls ih
      rw [List.foldlM_cons] at hcalls
      obtain ⟨st₁, hfirst, hrest⟩ := Option.bind_eq_some_iff.1 hcalls
      split_ifs at hfirst with hallowed
      obtain ⟨w', hw', rfl⟩ := Option.map_eq_some_iff.1 hfirst
      exact .head (.call hallowed hw') (ih hrest)

instance (s : Storage) (msg : ExecuteMsg) : Decidable (KeepsApart s msg) := by
  cases msg <;> unfold KeepsApart <;> infer_instance

structure SampleToken where
  totalSupply : ℕ
  balances : Addr → ℕ

/-- A token that only the issuer at address 2 mints. -/
def sampleCw20 : Cw20 SampleToken where
  tokenInfo t := some ⟨6, t.totalSupply⟩
  minter _ := some ⟨2, none⟩
  minters _ _ _ := some []
  balance t a := some (t.balances a)
  execute t sender
    | .mint recipient n =>
        if sender = 2 then
          some ⟨t.totalSupply + n,
            Function.update t.balances recipient (t.balances recipient + n)⟩
        else none
    | .burn n =>
        if n ≤ t.balances sender ∧ n ≤ t.totalSupply then
          some ⟨t.totalSupply - n, Function.update t.balances sender (t.balances sender - n)⟩
        else none
    | .transfer recipient n =>
        if n ≤ t.balances sender then
          let debited := Function.update t.balances sender (t.balances sender - n)
          some ⟨t.totalSupply, Function.update debited recipient (debited recipient + n)⟩
        else none
    | _ => none

theorem sampleCw20_prescribed : sampleCw20.Prescribed := by
  constructor
  · intro t t' sender recipient n h
    obtain ⟨-, h⟩ := Option.ite_none_right_eq_some.1 h
    cases h
    rfl
  · intro t t' sender n h
    obtain ⟨⟨-, hle⟩, h⟩ := Option.ite_none_right_eq_some.1 h
    cases h
    exact Nat.sub_add_cancel hle
  · intro t t' sender recipient n h
    obtain ⟨-, h⟩ := Option.ite_none_right_eq_some.1 h
    cases h
    rfl

def sampleReceipt : Receipt :=
  ⟨"Debt", "DEBT", 6, 0, 2, none, 6, fun _ => 0⟩

/-- A token at 3 and two receipts at 4 and 5, owed by 6, with their codes. -/
def sampleCodes (a : Addr) : Option ℕ := if a = 3 then some 10 else some 11

def sampleState : State SampleToken where
  world :=
    { issuer := (State.initial (σ := SampleToken) 1 sampleCodes 0).world.issuer
      contracts := Function.update (Function.update (Function.update (fun _ => none) 3
        (some (.token ⟨0, fun _ => 0⟩))) 4 (some (.receipt sampleReceipt))) 5
        (some (.receipt sampleReceipt))
      codes := sampleCodes
      now := 0 }
  history := .initial

theorem sampleState_run {allowed : Storage → ExecuteMsg → Prop} :
    ReflTransGen (Step sampleCw20 (fun _ => true) 2 allowed) (.initial 1 sampleCodes 0)
      sampleState := by
  have hreceipt : Receipt.instantiate (fun _ => true) ⟨1, []⟩ ⟨"Debt", "DEBT", 6, 2, 6, none⟩ =
      .ok sampleReceipt := by rfl
  apply ReflTransGen.head (.deployToken (a := 3) (t := ⟨0, fun _ => 0⟩) rfl)
  apply ReflTransGen.head (.deployReceipt (a := 4) rfl hreceipt)
  exact .single (.deployReceipt (a := 5) rfl hreceipt)

def sampleCalls : List (MessageInfo × ExecuteMsg) :=
  [(⟨1, []⟩, .setDebtCodeId 11), (⟨1, []⟩, .approveUnderlyingCode 10 false),
    (⟨1, []⟩, .registerMarket 3 4), (⟨1, []⟩, .configureMarket 3 ⟨5, 9, 60, 7⟩ false),
    (⟨1, []⟩, .issue 3 2 5), (⟨3, []⟩, .receive 8 2 .repay)]

theorem debt_accounted_sample : ∃ st : State SampleToken,
    (∃ m, st.world.issuer.markets 3 = some m ∧ m.outstanding = 3 ∧ m.epochIssued = 5) ∧
      Accounted sampleCw20 (fun _ => true) 2 st := by
  have hok : ((sampleState.calls sampleCw20 (fun _ => true) 2 KeepsApart sampleCalls).any fun st =>
      (st.world.issuer.markets 3).any fun m => m.outstanding = 3 ∧ m.epochIssued = 5) = true := by
    decide +kernel
  obtain ⟨st, hst, hm⟩ := (Option.any_eq_true _ _).1 hok
  obtain ⟨m, hm, hvalues⟩ := (Option.any_eq_true _ _).1 hm
  have hrun := sampleState_run.trans (State.calls_run hst)
  exact ⟨st, ⟨m, hm, of_decide_eq_true hvalues⟩, debt_accounted sampleCw20_prescribed hrun⟩

/-- The receipt at 4 becomes the token of a second market, whose issue mints it to its debtor. -/
def crossedCalls : List (MessageInfo × ExecuteMsg) :=
  [(⟨1, []⟩, .setDebtCodeId 11), (⟨1, []⟩, .approveUnderlyingCode 10 false),
    (⟨1, []⟩, .approveUnderlyingCode 11 false), (⟨1, []⟩, .registerMarket 3 4),
    (⟨1, []⟩, .registerMarket 4 5), (⟨1, []⟩, .configureMarket 4 ⟨5, 9, 60, 7⟩ false),
    (⟨1, []⟩, .issue 4 6 1)]

theorem crossed_receipt_unaccounted : ∃ st : State SampleToken,
    sampleCw20.Prescribed ∧
      ReflTransGen (Step sampleCw20 (fun _ => true) 2 fun _ _ => True)
        (.initial 1 sampleCodes 0) st ∧
      ¬ Accounted sampleCw20 (fun _ => true) 2 st := by
  have hok : ((sampleState.calls sampleCw20 (fun _ => true) 2 (fun _ _ => True)
      crossedCalls).any fun st =>
        (st.world.issuer.markets 3).any (fun m => m.outstanding = 0 ∧ m.debtToken = 4) ∧
          st.world.supply sampleCw20 4 = 1) = true := by
    decide +kernel
  obtain ⟨st, hst, hm⟩ := (Option.any_eq_true _ _).1 hok
  obtain ⟨hm, hone⟩ := of_decide_eq_true hm
  obtain ⟨m, hm, hvalues⟩ := (Option.any_eq_true _ _).1 hm
  obtain ⟨hzero, htoken⟩ := of_decide_eq_true hvalues
  refine ⟨st, sampleCw20_prescribed, sampleState_run.trans (State.calls_run hst), ?_⟩
  intro haccounted
  obtain ⟨r, hr, hsupply, -⟩ := (haccounted.markets 3 m hm).receipt
  rw [htoken] at hr
  rw [World.supply_eq hr] at hone
  have heq : r.totalSupply = 1 := hone
  omega

end Cl8yDex.BridgeDebt
