import Cl8yDex.BridgeDebt

/-!
# What an accepted issuer call does

Each call is inverted once: the storage it writes, the messages it sends and what it checked.
-/

namespace Cl8yDex.BridgeDebt

open Outcome

variable {s s' : Storage} {q : Querier} {env : Env} {info : MessageInfo} {u recipient : Addr}
  {m m' : Market} {amount : ℕ} {ms : List WasmMsg}

theorem addrValidate_eq_ok {a b : Addr} (h : addrValidate q a = .ok b) : b = a := by
  unfold addrValidate at h
  split_ifs at h
  cases h
  rfl

/-- What the issuer has just checked of a market's tokens. -/
structure Agrees (q : Querier) (env : Env) (m : Market) : Prop where
  balance : q.balance m.debtToken m.debtor = some m.outstanding
  debtor : q.debtor m.debtToken = some m.debtor
  minter : ∃ r, q.minter m.debtToken = some r ∧ r.minter = env.contract
  supply : ∃ r, q.tokenInfo m.debtToken = some r ∧ r.totalSupply = m.outstanding

theorem inspectDebtToken_eq_ok {debtToken : Addr} {allowed : ℕ} {v : DebtView}
    (h : inspectDebtToken q env debtToken allowed = .ok v) :
    q.debtor debtToken = some v.debtor ∧
      (∃ r, q.minter debtToken = some r ∧ r.minter = env.contract) ∧
      ∃ r, q.tokenInfo debtToken = some r ∧ r.totalSupply = v.totalSupply := by
  obtain ⟨_, _, h⟩ := bind_eq_ok.1 h
  obtain ⟨_, _, h⟩ := bind_eq_ok.1 h
  obtain ⟨token, htoken, h⟩ := bind_eq_ok.1 h
  obtain ⟨minter, hminter, h⟩ := bind_eq_ok.1 h
  obtain ⟨_, hvalid, h⟩ := bind_eq_ok.1 h
  obtain ⟨_, hself, h⟩ := bind_eq_ok.1 h
  obtain ⟨debtor, hdebtor, h⟩ := bind_eq_ok.1 h
  obtain ⟨_, hvalid', h⟩ := bind_eq_ok.1 h
  obtain ⟨_, _, h⟩ := bind_eq_ok.1 h
  obtain ⟨_, _, h⟩ := bind_eq_ok.1 h
  cases h
  rw [orThrow_eq_ok] at htoken hminter hdebtor
  rw [ensure_eq_ok, addrValidate_eq_ok hvalid] at hself
  rw [addrValidate_eq_ok hvalid']
  exact ⟨hdebtor, ⟨minter, hminter, hself⟩, token, htoken, rfl⟩

theorem assertMarketConsistent_eq_ok (h : assertMarketConsistent q env m = .ok ()) :
    Agrees q env m := by
  obtain ⟨pins, _, h⟩ := bind_eq_ok.1 h
  obtain ⟨debt, hdebt, h⟩ := bind_eq_ok.1 h
  obtain ⟨_, _, h⟩ := bind_eq_ok.1 h
  obtain ⟨_, _, h⟩ := bind_eq_ok.1 h
  obtain ⟨balance, hbalance, h⟩ := bind_eq_ok.1 h
  obtain ⟨_, heq, h⟩ := bind_eq_ok.1 h
  obtain ⟨_, hdebtor, h⟩ := bind_eq_ok.1 h
  obtain ⟨_, _, h⟩ := bind_eq_ok.1 h
  obtain ⟨_, hsupply, _⟩ := bind_eq_ok.1 h
  obtain ⟨hd, hm, r, hr, hrs⟩ := inspectDebtToken_eq_ok hdebt
  rw [orThrow_eq_ok] at hbalance
  rw [ensure_eq_ok] at heq hdebtor hsupply
  constructor
  · rw [hbalance, heq]
  · rw [hd, hdebtor]
  · exact hm
  · exact ⟨r, hr, hrs.trans hsupply⟩

/-- A change of a market that is no issue and no repay: it neither moves debt nor returns quota. -/
structure KeepsQuota (now : ℕ) (m m' : Market) : Prop where
  underlying : m'.underlying = m.underlying
  debtToken : m'.debtToken = m.debtToken
  debtor : m'.debtor = m.debtor
  outstanding : m'.outstanding = m.outstanding
  epochIssued : m'.epochIssued = m.epochIssued
  running : ∀ l ∈ m.limits, m'.epoch = m.epoch ∧
    ∃ l' ∈ m'.limits, l'.epochSeconds = l.epochSeconds
  fresh : m.limits = none → m'.limits = none ∨
    ∃ l' ∈ m'.limits, l'.epochSeconds ≠ 0 ∧ m'.epoch = now / l'.epochSeconds

theorem KeepsQuota.of_limits {now : ℕ} (hu : m'.underlying = m.underlying)
    (ht : m'.debtToken = m.debtToken) (hd : m'.debtor = m.debtor)
    (ho : m'.outstanding = m.outstanding) (hi : m'.epochIssued = m.epochIssued)
    (hl : m'.limits = m.limits) (he : m'.epoch = m.epoch) : KeepsQuota now m m' where
  underlying := hu
  debtToken := ht
  debtor := hd
  outstanding := ho
  epochIssued := hi
  running l hmem := ⟨he, l, hl ▸ hmem, rfl⟩
  fresh hnone := .inl (hl.trans hnone)

/-- What an issue found before it and what it leaves of the quota. -/
structure Consumes (now : ℕ) (m : Market) (l : IssuanceLimits) (amount issued : ℕ) : Prop where
  limits : m.limits = some l
  active : m.paused = false ∧ m.pendingUpgrade = none
  forward : m.epoch ≤ now / l.epochSeconds
  total : issued = (if m.epoch < now / l.epochSeconds then 0 else m.epochIssued) + amount
  perIssue : amount ≤ l.maxPerIssue
  perEpoch : issued ≤ l.maxPerEpoch
  outstanding : m.outstanding + amount ≤ l.maxOutstanding

theorem consumeLimit_eq_ok (h : consumeLimit env m amount = .ok m') :
    ∃ l issued, Consumes env.blockTime m l amount issued ∧
      m' = { m with epoch := env.blockTime / l.epochSeconds, epochIssued := issued } := by
  obtain ⟨l, hl, h⟩ := bind_eq_ok.1 h
  obtain ⟨_, hactive, h⟩ := bind_eq_ok.1 h
  obtain ⟨_, hforward, h⟩ := bind_eq_ok.1 h
  obtain ⟨issued, hissued, h⟩ := bind_eq_ok.1 h
  obtain ⟨outstanding, houtstanding, h⟩ := bind_eq_ok.1 h
  obtain ⟨_, hcaps, h⟩ := bind_eq_ok.1 h
  cases h
  rw [orThrow_eq_ok] at hl
  rw [ensure_eq_ok] at hactive hforward hcaps
  rw [orThrow_eq_ok, checkedAdd_eq_some] at hissued houtstanding
  obtain ⟨-, rfl⟩ := houtstanding
  have hrolled : rollEpoch m (env.blockTime / l.epochSeconds) =
      { m with
        epoch := env.blockTime / l.epochSeconds
        epochIssued := if m.epoch < env.blockTime / l.epochSeconds then 0 else m.epochIssued } := by
    unfold rollEpoch
    split_ifs with hlt
    · rfl
    · rw [← le_antisymm hforward (not_lt.1 hlt)]
  rw [hrolled] at hissued ⊢
  refine ⟨l, issued, ⟨hl, ?_, hforward, hissued.2, hcaps.1, hcaps.2.1, hcaps.2.2⟩, rfl⟩
  exact ⟨hactive.1, Option.isNone_iff_eq_none.1 hactive.2⟩

/-- A call that records neither an issue nor a repay. -/
def ExecuteMsg.LeavesDebt : ExecuteMsg → Prop
  | .issue .. | .receive .. => False
  | _ => True

/-- What an accepted call writes and sends, with what it has checked. -/
inductive Effect (s : Storage) (q : Querier) (env : Env) (info : MessageInfo) :
    ExecuteMsg → Storage → List WasmMsg → Prop
  | settings {msg : ExecuteMsg} {s' : Storage} (hmsg : msg.LeavesDebt)
      (hmarkets : s'.markets = s.markets) (htokens : s'.debtTokens = s.debtTokens) :
      Effect s q env info msg s' []
  | registered {u t d decimals : ℕ} {pins : MarketPins}
      (hapart : ¬(u = t ∨ u = env.contract ∨ t = env.contract)) (hnew : s.markets u = none)
      (hunused : s.debtTokens t = false) (hdebtor : q.debtor t = some d)
      (hminter : ∃ r, q.minter t = some r ∧ r.minter = env.contract)
      (hsupply : ∃ r, q.tokenInfo t = some r ∧ r.totalSupply = 0) :
      Effect s q env info (.registerMarket u t)
        { saveMarket s u ⟨u, t, d, decimals, 0, some pins, none, false, 0, 0, none⟩ with
          debtTokens := Function.update s.debtTokens t true } []
  | adjusted {msg : ExecuteMsg} {u : Addr} {m m' : Market} (hmsg : msg.LeavesDebt)
      (hm : s.markets u = some m) (hkeeps : KeepsQuota env.blockTime m m') :
      Effect s q env info msg (saveMarket s u m') []
  | issued {u recipient amount issued : ℕ} {m : Market} {l : IssuanceLimits}
      (hm : s.markets u = some m) (hagrees : Agrees q env m)
      (hconsumes : Consumes env.blockTime m l amount issued) :
      Effect s q env info (.issue u recipient amount)
        (saveMarket s u { m with
          epoch := env.blockTime / l.epochSeconds
          epochIssued := issued
          outstanding := m.outstanding + amount })
        [⟨m.underlying, .mint recipient amount⟩, ⟨m.debtToken, .mint m.debtor amount⟩]
  | repaid {payer : Addr} {amount : ℕ} {hook : Cw20HookMsg} {m : Market}
      {pending : Option UpgradePins} (hm : s.markets info.sender = some m)
      (hagrees : Agrees q env m) (hle : amount ≤ m.outstanding) :
      Effect s q env info (.receive payer amount hook)
        (saveMarket s info.sender { m with
          outstanding := m.outstanding - amount
          pendingUpgrade := pending })
        [⟨m.underlying, .burn amount⟩, ⟨m.debtToken, .burnFrom m.debtor amount⟩]
  | recovered {u recipient amount : ℕ} {m : Market} (hm : s.markets u = some m)
      (hagrees : Agrees q env m) :
      Effect s q env info (.recover u recipient amount) s
        [⟨m.underlying, .transfer recipient amount⟩]

theorem quietly_effect {x : Except ContractError Storage} {msg : ExecuteMsg}
    (h : quietly x = .ok (s', ms)) (hx : x = .ok s' → Effect s q env info msg s' []) :
    Effect s q env info msg s' ms := by
  obtain ⟨_, hs, h⟩ := bind_eq_ok.1 h
  cases h
  exact hx hs

theorem loadMarket_eq_ok (h : loadMarket s u = .ok m) : s.markets u = some m :=
  orThrow_eq_ok.1 h

theorem registerMarket_effect {t : Addr}
    (h : executeRegisterMarket s q env info u t = .ok s') :
    Effect s q env info (.registerMarket u t) s' [] := by
  obtain ⟨_, _, h⟩ := bind_eq_ok.1 h
  obtain ⟨_, hu, h⟩ := bind_eq_ok.1 h
  obtain ⟨_, ht, h⟩ := bind_eq_ok.1 h
  obtain ⟨_, hapart, h⟩ := bind_eq_ok.1 h
  obtain ⟨_, hnew, h⟩ := bind_eq_ok.1 h
  obtain ⟨_, hunused, h⟩ := bind_eq_ok.1 h
  obtain ⟨codeId, _, h⟩ := bind_eq_ok.1 h
  obtain ⟨debt, hdebt, h⟩ := bind_eq_ok.1 h
  obtain ⟨code, _, h⟩ := bind_eq_ok.1 h
  obtain ⟨policy, _, h⟩ := bind_eq_ok.1 h
  obtain ⟨pins, _, h⟩ := bind_eq_ok.1 h
  obtain ⟨decimals, _, h⟩ := bind_eq_ok.1 h
  obtain ⟨_, _, h⟩ := bind_eq_ok.1 h
  obtain ⟨_, hzero, h⟩ := bind_eq_ok.1 h
  obtain ⟨_, _, h⟩ := bind_eq_ok.1 h
  rw [addrValidate_eq_ok hu, addrValidate_eq_ok ht] at *
  obtain ⟨hdebtor, hminter, r, hr, hsupply⟩ := inspectDebtToken_eq_ok hdebt
  rw [ensure_eq_ok] at hapart hnew hunused hzero
  cases h
  exact .registered hapart (Option.isNone_iff_eq_none.1 hnew) hunused hdebtor hminter
    ⟨r, hr, hsupply.trans hzero⟩

theorem configureMarket_effect {limits : IssuanceLimits} {paused : Bool}
    (h : configureMarket s q env info u limits paused = .ok s') :
    Effect s q env info (.configureMarket u limits paused) s' [] := by
  obtain ⟨_, _, h⟩ := bind_eq_ok.1 h
  obtain ⟨_, hu, h⟩ := bind_eq_ok.1 h
  obtain ⟨m, hm, h⟩ := bind_eq_ok.1 h
  obtain ⟨_, hvalid, h⟩ := bind_eq_ok.1 h
  rw [addrValidate_eq_ok hu] at hm h
  rw [ensure_eq_ok, not_or, not_or, not_or, not_or] at hvalid
  obtain ⟨hseconds, -, -, -, hsame⟩ := hvalid
  cases h
  refine .adjusted trivial (loadMarket_eq_ok hm) ⟨rfl, rfl, rfl, rfl, rfl, ?_, ?_⟩
  · intro l hl
    have hsome : m.limits = some l := hl
    have heq : l.epochSeconds = limits.epochSeconds := by
      by_contra hne
      exact hsame ⟨l, hl, hne⟩
    exact ⟨by simp [hsome], limits, rfl, heq.symm⟩
  · intro hnone
    exact .inr ⟨limits, rfl, hseconds, by simp [hnone]⟩

theorem issue_effect (h : executeIssue s q env info u recipient amount = .ok (s', ms)) :
    Effect s q env info (.issue u recipient amount) s' ms := by
  obtain ⟨_, _, h⟩ := bind_eq_ok.1 h
  obtain ⟨_, _, h⟩ := bind_eq_ok.1 h
  obtain ⟨_, hu, h⟩ := bind_eq_ok.1 h
  obtain ⟨_, hrecipient, h⟩ := bind_eq_ok.1 h
  obtain ⟨m, hm, h⟩ := bind_eq_ok.1 h
  obtain ⟨⟨⟩, hconsistent, h⟩ := bind_eq_ok.1 h
  obtain ⟨_, hlimit, h⟩ := bind_eq_ok.1 h
  obtain ⟨outstanding, houtstanding, h⟩ := bind_eq_ok.1 h
  rw [addrValidate_eq_ok hu] at hm h
  rw [addrValidate_eq_ok hrecipient] at h
  cases h
  obtain ⟨l, issued, hconsumes, rfl⟩ := consumeLimit_eq_ok hlimit
  rw [orThrow_eq_ok, checkedAdd_eq_some] at houtstanding
  obtain ⟨-, rfl⟩ := houtstanding
  exact .issued (m := m) (loadMarket_eq_ok hm) (assertMarketConsistent_eq_ok hconsistent) hconsumes

theorem receive_effect {payer : Addr} {hook : Cw20HookMsg}
    (h : executeReceive s q env info amount hook = .ok (s', ms)) :
    Effect s q env info (.receive payer amount hook) s' ms := by
  obtain ⟨_, _, h⟩ := bind_eq_ok.1 h
  obtain ⟨_, _, h⟩ := bind_eq_ok.1 h
  obtain ⟨m, hm, h⟩ := bind_eq_ok.1 h
  obtain ⟨⟨⟩, hconsistent, h⟩ := bind_eq_ok.1 h
  obtain ⟨_, hle, h⟩ := bind_eq_ok.1 h
  obtain ⟨pending, _, h⟩ := bind_eq_ok.1 h
  cases h
  exact .repaid (loadMarket_eq_ok hm) (assertMarketConsistent_eq_ok hconsistent)
    (ensure_eq_ok.1 hle)

theorem recover_effect (h : executeRecover s q env info u recipient amount = .ok (s', ms)) :
    Effect s q env info (.recover u recipient amount) s' ms := by
  obtain ⟨_, _, h⟩ := bind_eq_ok.1 h
  obtain ⟨_, _, h⟩ := bind_eq_ok.1 h
  obtain ⟨_, hu, h⟩ := bind_eq_ok.1 h
  obtain ⟨_, hrecipient, h⟩ := bind_eq_ok.1 h
  obtain ⟨m, hm, h⟩ := bind_eq_ok.1 h
  obtain ⟨⟨⟩, hconsistent, h⟩ := bind_eq_ok.1 h
  rw [addrValidate_eq_ok hu] at hm
  rw [addrValidate_eq_ok hrecipient] at h
  cases h
  exact .recovered (loadMarket_eq_ok hm) (assertMarketConsistent_eq_ok hconsistent)

theorem proposeUpgrade_effect {debtCodeId underlyingCodeId : ℕ}
    (h : proposeUpgrade s q env info u debtCodeId underlyingCodeId = .ok s') :
    Effect s q env info (.proposeMarketUpgrade u debtCodeId underlyingCodeId) s' [] := by
  obtain ⟨_, _, h⟩ := bind_eq_ok.1 h
  obtain ⟨_, hu, h⟩ := bind_eq_ok.1 h
  obtain ⟨m, hm, h⟩ := bind_eq_ok.1 h
  obtain ⟨_, _, h⟩ := bind_eq_ok.1 h
  obtain ⟨_, _, h⟩ := bind_eq_ok.1 h
  obtain ⟨_, _, h⟩ := bind_eq_ok.1 h
  rw [addrValidate_eq_ok hu] at hm h
  cases h
  exact .adjusted trivial (loadMarket_eq_ok hm) (.of_limits rfl rfl rfl rfl rfl rfl rfl)

theorem acceptUpgrade_effect (h : acceptUpgrade s q env info u = .ok s') :
    Effect s q env info (.acceptMarketUpgrade u) s' [] := by
  obtain ⟨_, _, h⟩ := bind_eq_ok.1 h
  obtain ⟨_, hu, h⟩ := bind_eq_ok.1 h
  obtain ⟨m, hm, h⟩ := bind_eq_ok.1 h
  obtain ⟨_, _, h⟩ := bind_eq_ok.1 h
  obtain ⟨_, _, h⟩ := bind_eq_ok.1 h
  obtain ⟨_, _, h⟩ := bind_eq_ok.1 h
  obtain ⟨_, _, h⟩ := bind_eq_ok.1 h
  obtain ⟨_, _, h⟩ := bind_eq_ok.1 h
  obtain ⟨_, _, h⟩ := bind_eq_ok.1 h
  obtain ⟨_, _, h⟩ := bind_eq_ok.1 h
  rw [addrValidate_eq_ok hu] at hm h
  cases h
  exact .adjusted trivial (loadMarket_eq_ok hm) (.of_limits rfl rfl rfl rfl rfl rfl rfl)

theorem cancelUpgrade_effect (h : cancelUpgrade s q info u = .ok s') :
    Effect s q env info (.cancelMarketUpgrade u) s' [] := by
  obtain ⟨_, _, h⟩ := bind_eq_ok.1 h
  obtain ⟨_, hu, h⟩ := bind_eq_ok.1 h
  obtain ⟨m, hm, h⟩ := bind_eq_ok.1 h
  rw [addrValidate_eq_ok hu] at hm h
  cases h
  exact .adjusted trivial (loadMarket_eq_ok hm) (.of_limits rfl rfl rfl rfl rfl rfl rfl)

theorem execute_effect {msg : ExecuteMsg} (h : execute s q env info msg = .ok (s', ms)) :
    Effect s q env info msg s' ms := by
  obtain ⟨_, _, h⟩ := bind_eq_ok.1 h
  cases msg with
  | approveUnderlyingCode codeId multiMinter =>
      apply quietly_effect h
      intro hs
      obtain ⟨_, _, hs⟩ := bind_eq_ok.1 hs
      obtain ⟨_, _, hs⟩ := bind_eq_ok.1 hs
      cases hs
      exact .settings trivial rfl rfl
  | configureMarket u limits paused => exact quietly_effect h configureMarket_effect
  | proposeMarketUpgrade u debtCodeId underlyingCodeId =>
      exact quietly_effect h proposeUpgrade_effect
  | acceptMarketUpgrade u => exact quietly_effect h acceptUpgrade_effect
  | cancelMarketUpgrade u => exact quietly_effect h cancelUpgrade_effect
  | acceptOwner =>
      apply quietly_effect h
      intro hs
      obtain ⟨_, _, hs⟩ := bind_eq_ok.1 hs
      cases hs
      exact .settings trivial rfl rfl
  | cancelOwnerTransfer =>
      apply quietly_effect h
      intro hs
      obtain ⟨_, _, hs⟩ := bind_eq_ok.1 hs
      cases hs
      exact .settings trivial rfl rfl
  | setDebtCodeId codeId =>
      apply quietly_effect h
      intro hs
      obtain ⟨_, _, hs⟩ := bind_eq_ok.1 hs
      obtain ⟨_, _, hs⟩ := bind_eq_ok.1 hs
      cases hs
      exact .settings trivial rfl rfl
  | registerMarket u t => exact quietly_effect h registerMarket_effect
  | issue u recipient amount => exact issue_effect h
  | receive payer amount hook => exact receive_effect h
  | recover u recipient amount => exact recover_effect h
  | updateOwner owner =>
      apply quietly_effect h
      intro hs
      obtain ⟨_, _, hs⟩ := bind_eq_ok.1 hs
      obtain ⟨_, _, hs⟩ := bind_eq_ok.1 hs
      cases hs
      exact .settings trivial rfl rfl

end Cl8yDex.BridgeDebt
