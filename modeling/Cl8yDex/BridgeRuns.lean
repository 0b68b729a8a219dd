import Cl8yDex.BridgeLedger

/-!
# Runs of the issuer

Every step keeps the ledger, so every reachable state has it.
-/

namespace Cl8yDex.BridgeDebt

open Relation

variable {σ : Type} {cw20 : Cw20 σ} {validAddr : Addr → Bool} {me : Addr} {w w' : World σ}
  {h h' : History} {u : Addr} {m m' : Market} {c c' : Contract σ} {info : MessageInfo}
  {msg : ExecuteMsg} {r r' : Receipt} {amount : ℕ}

theorem World.send_pair {t : Addr} {x y : TokenMsg} (hne : t ≠ u)
    (hsend : [⟨u, x⟩, ⟨t, y⟩].foldlM (fun w m => w.send cw20 validAddr me m) w = some w') :
    ∃ c c' d d', w.contracts u = some c ∧ c.execute cw20 validAddr ⟨me, []⟩ x = some c' ∧
      w.contracts t = some d ∧ d.execute cw20 validAddr ⟨me, []⟩ y = some d' ∧
      w' = (w.setContract u c').setContract t d' := by
  rw [List.foldlM_cons] at hsend
  obtain ⟨w₁, hfirst, hsend⟩ := Option.bind_eq_some_iff.1 hsend
  rw [List.foldlM_cons] at hsend
  obtain ⟨w₂, hsecond, hsend⟩ := Option.bind_eq_some_iff.1 hsend
  cases hsend
  obtain ⟨c, c', hc, hc', rfl⟩ := World.send_eq_some hfirst
  obtain ⟨d, d', hd, hd', rfl⟩ := World.send_eq_some hsecond
  rw [World.setContract_of_ne hne] at hd
  exact ⟨c, c', d, d', hc, hc', hd, hd', rfl⟩

/-- An issue or a repay: both tokens and the record move by the same amount. -/
theorem Sound.settled (hs : Sound me w h) (hm : w.issuer.markets u = some m)
    (hc : w.contracts u = some c) (hheld : c'.Held) (hr : r'.Held)
    (hreceipt : r'.minter = me ∧ r'.debtor = m.debtor ∧ r'.totalSupply = m'.outstanding)
    (hw' : w' = (({ w with issuer := saveMarket w.issuer u m' } : World σ).setContract u
      c').setContract m.debtToken (.receipt r'))
    (hsame : m'.underlying = m.underlying ∧ m'.debtToken = m.debtToken ∧ m'.debtor = m.debtor)
    (hsupply : (c'.supply cw20 : ℤ) - c.supply cw20 = m'.outstanding - m.outstanding)
    (hissues : ∀ v, v ≠ u → h'.issues v = h.issues v)
    (hrepaid : ∀ v, v ≠ u → h'.repaid v = h.repaid v)
    (hcontributed : ∀ a, h'.contributed a = h.contributed a + (w'.supply cw20 a - w.supply cw20 a))
    (hissued : m'.outstanding + h'.repaid u = totalIssued (h'.issues u))
    (hquota : Quota (h'.issues u) m') : Sound me w' h' := by
  have hne : u ≠ m.debtToken := (hs.debtToken_ne hm hm).symm
  have hfirst : Sound me (w.setContract u c') h :=
    hs.setContract hheld fun v mv hv => hs.debtToken_ne hm hv
  have hself : w'.contracts u = some c' := by
    rw [hw', World.setContract_of_ne hne, World.setContract_self]
  have hother : ∀ a, a ≠ m.debtToken → w'.contracts a = (w.setContract u c').contracts a := by
    intro a ha
    rw [hw', World.setContract_of_ne ha]
    rfl
  apply hfirst.moved hm
  constructor
  · rw [hw']
    rfl
  · exact hsame.1
  · exact hsame.2.1
  · exact hother
  · exact hissues
  · exact hrepaid
  · intro v hvu hvt
    have heq : w'.contracts v = w.contracts v :=
      (hother v hvt).trans (World.setContract_of_ne hvu)
    rw [hcontributed, World.supply_congr heq, sub_self, add_zero]
  · refine ⟨r', ?_, hr, hreceipt.1, hreceipt.2.1.trans hsame.2.2.symm, hreceipt.2.2⟩
    rw [hw', World.setContract_self]
  · exact hissued
  · rw [hcontributed, World.supply_eq hself, World.supply_eq hc, hsupply,
      (hs.markets u m hm).contributed]
    ring
  · exact hquota

theorem History.record_of_leavesDebt (hmsg : msg.LeavesDebt)
    (hsupply : ∀ a, w'.supply cw20 a = w.supply cw20 a) :
    h.record cw20 w w' info msg = h := by
  have hcontributed : (h.record cw20 w w' info msg).contributed = h.contributed := by
    funext a
    change h.contributed a + ((w'.supply cw20 a : ℤ) - w.supply cw20 a) = h.contributed a
    rw [hsupply, sub_self, add_zero]
  cases msg <;> first | exact hmsg.elim | exact congrArg (History.mk h.issues h.repaid) hcontributed

theorem Sound.issued (hcw20 : cw20.Prescribed) {recipient issued : Addr} {l : IssuanceLimits}
    (hs : Sound me w h) (hm : w.issuer.markets u = some m)
    (hconsumes : Consumes w.now m l amount issued)
    (hsend : [⟨m.underlying, .mint recipient amount⟩,
        ⟨m.debtToken, .mint m.debtor amount⟩].foldlM (fun w m => w.send cw20 validAddr me m)
      { w with issuer := saveMarket w.issuer u { m with
          epoch := w.now / l.epochSeconds
          epochIssued := issued
          outstanding := m.outstanding + amount } } = some w') :
    Sound me w' (h.record cw20 w w' info (.issue u recipient amount)) := by
  have hkept := hs.markets u m hm
  rw [hkept.underlying] at hsend
  obtain ⟨c, c', d, d', hc, hc', hd, hd', hw'⟩ :=
    World.send_pair (hs.debtToken_ne hm hm) hsend
  obtain ⟨r, hr, hheld, hminter, hdebtor, hsupply⟩ := hkept.receipt
  cases hr.symm.trans hd
  obtain ⟨r', hr', rfl⟩ := Option.map_eq_some_iff.1 hd'
  obtain ⟨-, hheld', supply, rfl, ⟨_, _, hmsg, hadd⟩ | ⟨_, _, hmsg, _⟩⟩ :=
    Receipt.execute_eq_ok hheld (Outcome.toOption_eq_some.1 hr')
  · cases hmsg
    have hunderlying := Contract.execute_mint hcw20 (hs.held u c hc) hc'
    apply hs.settled hm hc (Contract.execute_held (hs.held u c hc) hc') hheld'
      ⟨hminter, hdebtor, ?_⟩ hw' ⟨hkept.underlying.symm, rfl, rfl⟩
    · rw [hunderlying]
      push_cast
      ring
    · intro v hv
      exact Function.update_of_ne hv ..
    · intro v hv
      rfl
    · intro a
      rfl
    · change m.outstanding + amount + h.repaid u = _
      rw [show (h.record cw20 w w' info (.issue u recipient amount)).issues u =
        h.issues u ++ [⟨w.now, amount⟩] from Function.update_self .., totalIssued_append,
        ← hkept.issued]
      simp only [totalIssued, List.map_cons, List.map_nil, List.sum_cons, List.sum_nil]
      omega
    · rw [show (h.record cw20 w w' info (.issue u recipient amount)).issues u =
        h.issues u ++ [⟨w.now, amount⟩] from Function.update_self ..]
      exact hkept.quota.consumes hconsumes rfl rfl rfl
    · exact hadd.trans (congrArg (· + amount) hsupply)
  · cases hmsg

theorem Sound.repaid (hcw20 : cw20.Prescribed) {payer : Addr} {hook : Cw20HookMsg}
    {pending : Option UpgradePins} (hs : Sound me w h)
    (hm : w.issuer.markets info.sender = some m) (hle : amount ≤ m.outstanding)
    (hsend : [⟨m.underlying, .burn amount⟩,
        ⟨m.debtToken, .burnFrom m.debtor amount⟩].foldlM (fun w m => w.send cw20 validAddr me m)
      { w with issuer := saveMarket w.issuer info.sender { m with
          outstanding := m.outstanding - amount
          pendingUpgrade := pending } } = some w') :
    Sound me w' (h.record cw20 w w' info (.receive payer amount hook)) := by
  have hkept := hs.markets _ m hm
  rw [hkept.underlying] at hsend
  obtain ⟨c, c', d, d', hc, hc', hd, hd', hw'⟩ :=
    World.send_pair (hs.debtToken_ne hm hm) hsend
  obtain ⟨r, hr, hheld, hminter, hdebtor, hsupply⟩ := hkept.receipt
  cases hr.symm.trans hd
  obtain ⟨r', hr', rfl⟩ := Option.map_eq_some_iff.1 hd'
  obtain ⟨-, hheld', supply, rfl, ⟨_, _, hmsg, _⟩ | ⟨_, _, hmsg, -, hsub⟩⟩ :=
    Receipt.execute_eq_ok hheld (Outcome.toOption_eq_some.1 hr')
  · cases hmsg
  · cases hmsg
    have hunderlying := Contract.execute_burn hcw20 (hs.held _ c hc) hc'
    apply hs.settled hm hc (Contract.execute_held (hs.held _ c hc) hc') hheld'
      ⟨hminter, hdebtor, ?_⟩ hw' ⟨hkept.underlying.symm, rfl, rfl⟩
    · rw [← hunderlying, Nat.cast_sub hle]
      push_cast
      ring
    · intro v hv
      rfl
    · intro v hv
      exact Function.update_of_ne hv ..
    · intro a
      rfl
    · have hissued := hkept.issued
      rw [show (h.record cw20 w w' info (.receive payer amount hook)).repaid info.sender =
        h.repaid info.sender + amount from Function.update_self ..]
      change m.outstanding - amount + (h.repaid info.sender + amount) =
        totalIssued (h.issues info.sender)
      omega
    · exact hkept.quota.congr rfl rfl rfl
    · exact hsub.trans (congrArg (· - amount) hsupply)

/-- A message that is no issue and no repay leaves every supply as it is. -/
theorem Sound.adjusted (hs : Sound me w h) (hm : w.issuer.markets u = some m)
    (hkeeps : KeepsQuota w.now m m') :
    Sound me { w with issuer := saveMarket w.issuer u m' } h := by
  have hkept := hs.markets u m hm
  apply hs.moved hm
  constructor
  · rfl
  · exact hkeeps.underlying
  · exact hkeeps.debtToken
  · intro a _
    rfl
  · intro v _
    rfl
  · intro v _
    rfl
  · intro v _ _
    rfl
  · rw [hkeeps.debtor, hkeeps.outstanding]
    exact hkept.receipt
  · rw [hkeeps.outstanding]
    exact hkept.issued
  · rw [hkeeps.outstanding]
    exact hkept.contributed
  · exact hkept.quota.keeps hkeeps

theorem Sound.recovered (hcw20 : cw20.Prescribed) {recipient : Addr} (hs : Sound me w h)
    (hm : w.issuer.markets u = some m)
    (hsend : [⟨m.underlying, .transfer recipient amount⟩].foldlM
      (fun w m => w.send cw20 validAddr me m) w = some w') :
    Sound me w' (h.record cw20 w w' info (.recover u recipient amount)) := by
  rw [List.foldlM_cons] at hsend
  obtain ⟨w₁, hfirst, hsend⟩ := Option.bind_eq_some_iff.1 hsend
  cases hsend
  obtain ⟨c, c', hc, hc', rfl⟩ := World.send_eq_some hfirst
  rw [(hs.markets u m hm).underlying] at hc ⊢
  have hheld := hs.held u c hc
  have hmsg : ExecuteMsg.LeavesDebt (.recover u recipient amount) := trivial
  rw [History.record_of_leavesDebt hmsg]
  · exact hs.setContract (Contract.execute_held hheld hc') fun v mv hv => hs.debtToken_ne hm hv
  · intro a
    by_cases ha : a = u
    · rw [ha, World.supply_eq World.setContract_self, World.supply_eq hc,
        Contract.execute_transfer hcw20 hheld hc']
    · exact World.supply_congr (World.setContract_of_ne ha)

/-- One accepted call keeps the ledger. -/
theorem World.call_sound (hcw20 : cw20.Prescribed) (hs : Sound me w h)
    (hallowed : KeepsApart w.issuer msg) (hcall : w.call cw20 validAddr me info msg = some w') :
    Sound me w' (h.record cw20 w w' info msg) := by
  obtain ⟨s', ms, heffect, hsend⟩ := World.call_eq_some hcall
  cases heffect with
  | settings hmsg hmarkets htokens =>
      cases hsend
      rw [History.record_of_leavesDebt hmsg]
      · exact hs.congr hmarkets htokens rfl
      · exact fun a => rfl
  | @registered u t d decimals pins hapart hnew hunused hdebtor hminter hsupply =>
      cases hsend
      obtain ⟨r, hr, hrd⟩ := World.receipt_of_debtor hdebtor
      obtain ⟨minter, hmr, hme⟩ := hminter
      obtain ⟨token, htr, hzero⟩ := hsupply
      have hmsg : ExecuteMsg.LeavesDebt (.registerMarket u t) := trivial
      rw [History.record_of_leavesDebt hmsg]
      · have hminter := (World.minter_receipt hr hmr).trans hme
        have hempty := (World.tokenInfo_receipt hr htr).trans hzero
        exact hs.registered hnew hunused hallowed.1 hallowed.2 (fun heq => hapart (.inl heq))
          ⟨rfl, rfl, rfl, rfl, rfl⟩ hr ⟨hminter, hrd, hempty⟩ rfl rfl rfl
      · exact fun a => rfl
  | adjusted hmsg hm hkeeps =>
      cases hsend
      rw [History.record_of_leavesDebt hmsg]
      · exact hs.adjusted hm hkeeps
      · exact fun a => rfl
  | issued hm _ hconsumes => exact hs.issued hcw20 hm hconsumes hsend
  | repaid hm _ hle => exact hs.repaid hcw20 hm hle hsend
  | recovered hm _ => exact hs.recovered hcw20 hm hsend

/-- Every market's receipt has the issuer as its minter. -/
theorem Sound.debtToken_ne_of_minter (hs : Sound me w h) {a : Addr}
    (ha : ∀ r, w.contracts a = some (.receipt r) → r.minter ≠ me) (u : Addr) (m : Market)
    (hm : w.issuer.markets u = some m) : m.debtToken ≠ a := by
  intro heq
  obtain ⟨r, hr, -, hmine, -⟩ := (hs.markets u m hm).receipt
  rw [heq] at hr
  exact ha r hr hmine

theorem Step.sound (hcw20 : cw20.Prescribed) {st st' : State σ}
    (hstep : Step cw20 validAddr me KeepsApart st st') (hs : Sound me st.world st.history) :
    Sound me st'.world st'.history := by
  cases hstep with
  | call hallowed hcall => exact World.call_sound hcw20 hs hallowed hcall
  | refused hcall =>
      rw [World.transact, hcall]
      exact hs
  | @receipt w h a r r' info msg ha hother hr =>
      obtain ⟨hminter, hheld, -⟩ := Receipt.execute_eq_ok (hs.held a _ ha) hr
      apply hs.setContract (c := .receipt r') hheld
      apply hs.debtToken_ne_of_minter
      intro r₁ hr₁ hmine
      cases ha.symm.trans hr₁
      exact hother (hminter.symm.trans hmine)
  | @token w h a t t' ha =>
      apply hs.setContract (c := .token t') trivial
      apply hs.debtToken_ne_of_minter
      intro r₁ hr₁
      cases ha.symm.trans hr₁
  | @deployReceipt w h a info msg r ha hr =>
      apply hs.setContract (c := .receipt r) (Receipt.instantiate_held hr)
      apply hs.debtToken_ne_of_minter
      intro r₁ hr₁
      cases ha.symm.trans hr₁
  | @deployToken w h a t ha =>
      apply hs.setContract (c := .token t) trivial
      apply hs.debtToken_ne_of_minter
      intro r₁ hr₁
      cases ha.symm.trans hr₁
  | migrate codes => exact hs.congr rfl rfl rfl
  | tick hnow => exact hs.congr rfl rfl rfl

theorem State.initial_sound (owner : Addr) (codes : Addr → Option ℕ) (now : ℕ) :
    Sound me (State.initial (σ := σ) owner codes now).world .initial := by
  constructor
  · intro a c hc
    cases hc
  · intro u m hm
    cases hm
  · intro u u' m m' hm
    cases hm
  · exact fun u _ => ⟨rfl, rfl, fun _ => rfl⟩

theorem sound_of_run (hcw20 : cw20.Prescribed) {owner : Addr} {codes : Addr → Option ℕ}
    {now : ℕ} {st : State σ}
    (hrun : ReflTransGen (Step cw20 validAddr me KeepsApart) (.initial owner codes now) st) :
    Sound me st.world st.history := by
  induction hrun with
  | refl => exact State.initial_sound owner codes now
  | tail _ hstep ih => exact hstep.sound hcw20 ih

end Cl8yDex.BridgeDebt
