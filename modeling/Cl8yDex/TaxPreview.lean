import Cl8yDex.TaxConservation

/-!
# Preview, allowance and debit

The preview classifies a transfer by the storage alone, the transfer by the live route as well. They
agree unless the route has a purchase under way, and an allowance pays for the whole debit.
-/

namespace Cl8yDex.CommunityTax

open Outcome

structure TaxPreviewResponse where
  kind : TaxKind
  declared : ℕ
  debit : ℕ
  credit : ℕ
  tax : ℕ
  hopTrader : Option Addr
  deriving DecidableEq

def preview (s : Storage) (self src dst : Addr) (amount : ℕ) (sendMsg : Option HookMsg) :
    Except ContractError TaxPreviewResponse := do
  let trade := classify s self src dst sendMsg
  let tax ← taxAmount amount trade.2
  let moved ← debitCredit trade.1 amount tax
  return ⟨trade.1, amount, moved.1, moved.2, tax, hopTraderAddr s self src dst sendMsg⟩

section Classify

variable {s : Storage} {host : Host} {env : Env} {self src dst : Addr} {amount : ℕ}
  {sendMsg : Option HookMsg} {c : Classified}

theorem previewDebit_of_preview {p : TaxPreviewResponse}
    (h : preview s self src dst amount sendMsg = .ok p) :
    previewDebit s self src dst amount sendMsg = .ok p.debit := by
  obtain ⟨tax, htax, h⟩ := bind_eq_ok.1 h
  obtain ⟨moved, hmoved, h⟩ := bind_eq_ok.1 h
  cases h
  unfold previewDebit
  dsimp only
  rw [htax, ok_bind, hmoved, ok_bind]
  rfl

/-- A purchase that the router has under way: a listed pair sends it what the route bought. -/
def LiveRoutedBuy (s : Storage) (host : Host) (self src dst : Addr) : Prop :=
  ∃ trader, routedBuy s host self src dst = .ok (some trader)

/-- The hop of an accepted transfer is the one the preview reads, where no purchase is live. -/
theorem requireHopTrader_eq_ok {hop : Option Addr}
    (h : requireHopTrader s self src dst sendMsg = .ok hop) :
    hop = hopTraderAddr s self src dst sendMsg := by
  unfold requireHopTrader at h
  by_cases hsell : isRouterSellHop s src dst sendMsg = true
  · rw [if_pos hsell] at h
    obtain ⟨trader, htrader, h⟩ := bind_eq_ok.1 h
    rw [orThrow_eq_ok] at htrader
    cases h
    exact htrader.symm
  · rw [if_neg hsell] at h
    cases h
    unfold hopTraderAddr
    rw [if_pos (by simpa using hsell)]

theorem classifyTransfer_eq_ok (h : classifyTransfer s host self src dst amount sendMsg = .ok c) :
    (¬LiveRoutedBuy s host self src dst ∧ c.charged = classify s self src dst sendMsg ∧
        c.hop = hopTraderAddr s self src dst sendMsg) ∨
      LiveRoutedBuy s host self src dst ∧
        (c.charged.1 = .buy ∨ c.charged.1 = .honest) := by
  obtain ⟨sold, hsold, h⟩ := bind_eq_ok.1 h
  obtain ⟨checked, hchecked, h⟩ := bind_eq_ok.1 h
  obtain ⟨bought, hbought, h⟩ := bind_eq_ok.1 h
  cases h
  cases bought with
  | none =>
      left
      refine ⟨?_, ?_, ?_⟩
      · rintro ⟨trader, hlive⟩
        rw [hlive] at hbought
        cases hbought
      · unfold classify
        rw [← requireHopTrader_eq_ok hsold]
        rfl
      · exact requireHopTrader_eq_ok hsold
  | some trader =>
      right
      refine ⟨⟨trader, hbought⟩, ?_⟩
      by_cases hexempt : isManagerExempt s trader = true
      · right
        simp [exemptTrade, hexempt]
      · left
        simp [exemptTrade, hexempt]

theorem debitCredit_of_not_sell {kind : TaxKind} {tax : ℕ} {moved : ℕ × ℕ} (hkind : kind ≠ .sell)
    (h : debitCredit kind amount tax = .ok moved) : moved.1 = amount := by
  cases kind with
  | sell => exact absurd rfl hkind
  | buy =>
      obtain ⟨credit, -, h⟩ := bind_eq_ok.1 h
      cases h
      rfl
  | transfer =>
      obtain ⟨credit, -, h⟩ := bind_eq_ok.1 h
      cases h
      rfl
  | honest =>
      cases h
      rfl

theorem debitCredit_ge {kind : TaxKind} {tax : ℕ} {moved : ℕ × ℕ}
    (h : debitCredit kind amount tax = .ok moved) : amount ≤ moved.1 := by
  cases kind with
  | sell =>
      obtain ⟨debit, hdebit, h⟩ := bind_eq_ok.1 h
      rw [orThrow_eq_ok, checkedAdd_eq_some] at hdebit
      cases h
      exact hdebit.2 ▸ Nat.le_add_right _ _
  | buy =>
      have hkind : TaxKind.buy ≠ .sell := by decide
      exact (debitCredit_of_not_sell hkind h).ge
  | transfer =>
      have hkind : TaxKind.transfer ≠ .sell := by decide
      exact (debitCredit_of_not_sell hkind h).ge
  | honest =>
      have hkind : TaxKind.honest ≠ .sell := by decide
      exact (debitCredit_of_not_sell hkind h).ge

/-- Only a swap sent to a listed pair is charged as a sell. -/
theorem exemptTrade_sell {hop : Option Addr} {trade : TaxKind × ℕ}
    (h : (exemptTrade s src dst hop trade).1 = .sell) : trade.1 = .sell := by
  unfold exemptTrade applyManagerDirectoryTaxSkip at h
  split at h
  · split_ifs at h
    exact h
  · split_ifs at h
    exact h

theorem classifyTrade_sell (h : (classifyTrade s self src dst sendMsg).1 = .sell) :
    isListedPair s dst = true ∧ sendMsg.any isSwapSendHook = true ∧
      (isProtocolExempt s self src = false ∨ isOfficialRouter s.config src = true) := by
  unfold classifyTrade at h
  split_ifs at h with hpair hswap
  simp only [Bool.and_eq_true, Bool.or_eq_true, Bool.not_eq_true'] at hswap
  exact ⟨hpair, hswap.1, hswap.2⟩

end Classify

section Apply

variable {s : Storage} {host : Host} {env : Env} {src dst : Addr} {amount : ℕ}
  {sendMsg : Option HookMsg} {out : Storage × TransferReport}

/-- What the report says is the classification, its tax and its split. -/
theorem applyTransfer_report (h : applyTransfer s host env src dst amount sendMsg = .ok out) :
    ∃ c tax moved, classifyTransfer s host env.contract src dst amount sendMsg = .ok c ∧
      taxAmount amount c.charged.2 = .ok tax ∧ debitCredit c.charged.1 amount tax = .ok moved ∧
      out.2.kind = c.charged.1 ∧ out.2.tax = tax ∧ out.2.debit = moved.1 ∧
      out.2.amount = moved.2 ∧ out.2.declared = amount ∧ out.2.hopTrader = c.hop ∧
      out.1.allowances = s.allowances := by
  obtain ⟨c, hc, h⟩ := bind_eq_ok.1 h
  obtain ⟨tax, htax, h⟩ := bind_eq_ok.1 h
  obtain ⟨moved, hmoved, h⟩ := bind_eq_ok.1 h
  obtain ⟨after, -, h⟩ := bind_eq_ok.1 h
  obtain ⟨toBal, -, h⟩ := bind_eq_ok.1 h
  obtain ⟨_, -, h⟩ := bind_eq_ok.1 h
  obtain ⟨balances, -, h⟩ := bind_eq_ok.1 h
  obtain ⟨credits, -, h⟩ := bind_eq_ok.1 h
  obtain ⟨_, -, h⟩ := bind_eq_ok.1 h
  obtain ⟨final, -, h⟩ := bind_eq_ok.1 h
  obtain ⟨info, -, h⟩ := bind_eq_ok.1 h
  cases h
  exact ⟨c, tax, moved, hc, htax, hmoved, rfl, rfl, rfl, rfl, rfl, rfl, rfl⟩

/-- Without a live purchase the preview is what the transfer applies. -/
theorem preview_of_applied (h : applyTransfer s host env src dst amount sendMsg = .ok out)
    (hlive : ¬LiveRoutedBuy s host env.contract src dst) :
    preview s env.contract src dst amount sendMsg =
      .ok ⟨out.2.kind, out.2.declared, out.2.debit, out.2.amount, out.2.tax, out.2.hopTrader⟩ := by
  obtain ⟨c, tax, moved, hc, htax, hmoved, hkind, htaxed, hdebit, hcredit, hdeclared, hhop, _⟩ :=
    applyTransfer_report h
  obtain ⟨_, hcharged, hhop'⟩ :=
    (classifyTransfer_eq_ok hc).resolve_right fun hbuy => hlive hbuy.1
  rw [hcharged] at htax hmoved hkind
  unfold preview
  dsimp only
  rw [htax, ok_bind, hmoved, ok_bind, hkind, htaxed, hdebit, hcredit, hdeclared, hhop, hhop']
  rfl

theorem debit_of_live (h : applyTransfer s host env src dst amount sendMsg = .ok out)
    (hlive : LiveRoutedBuy s host env.contract src dst) : out.2.debit = amount := by
  obtain ⟨c, tax, moved, hc, _, hmoved, _, _, hdebit, _⟩ := applyTransfer_report h
  have hkind := ((classifyTransfer_eq_ok hc).resolve_left fun hnot => hnot.1 hlive).2
  have hsell : c.charged.1 ≠ .sell := by
    rcases hkind with hk | hk
    · rw [hk]
      decide
    · rw [hk]
      decide
  rw [hdebit]
  exact debitCredit_of_not_sell hsell hmoved

/-- Without a message nothing is sold, so what leaves is what was declared. -/
theorem debit_of_no_message (h : applyTransfer s host env src dst amount none = .ok out) :
    out.2.debit = amount := by
  by_cases hlive : LiveRoutedBuy s host env.contract src dst
  · exact debit_of_live h hlive
  · obtain ⟨c, tax, moved, hc, _, hmoved, _, _, hdebit, _⟩ := applyTransfer_report h
    obtain ⟨_, hcharged, _⟩ := (classifyTransfer_eq_ok hc).resolve_right fun hbuy => hlive hbuy.1
    have hsell : c.charged.1 ≠ .sell := by
      intro hk
      rw [hcharged] at hk
      have htrade := (classifyTrade_sell (exemptTrade_sell hk)).2.1
      cases htrade
    rw [hdebit]
    exact debitCredit_of_not_sell hsell hmoved

/-- The router is a listed pair of the token itself and sends to itself, while it reports a
purchase of the token from itself. -/
def SellsToItself (s : Storage) (host : Host) (self src dst : Addr) : Prop :=
  s.config.router = some src ∧ dst = src ∧ isListedPair s src = true ∧
    LiveRoutedBuy s host self src dst

/-- The previewed debit covers the applied one, and is it, but for a router that is its own pair. -/
theorem previewDebit_of_applied {debit : ℕ}
    (h : applyTransfer s host env src dst amount sendMsg = .ok out)
    (hpreview : previewDebit s env.contract src dst amount sendMsg = .ok debit) :
    out.2.debit ≤ debit ∧
      (¬SellsToItself s host env.contract src dst → debit = out.2.debit) := by
  by_cases hlive : LiveRoutedBuy s host env.contract src dst
  · rw [debit_of_live h hlive]
    obtain ⟨tax, _, hpreview⟩ := bind_eq_ok.1 hpreview
    obtain ⟨moved, hmoved, hpreview⟩ := bind_eq_ok.1 hpreview
    cases hpreview
    refine ⟨debitCredit_ge hmoved, fun hself => ?_⟩
    apply debitCredit_of_not_sell _ hmoved
    intro hk
    obtain ⟨hpair, _, hends⟩ := classifyTrade_sell (exemptTrade_sell hk)
    have hroute : isListedPair s src = true ∧ isOfficialRouter s.config dst = true := by
      obtain ⟨trader, hbuy⟩ := hlive
      unfold routedBuy at hbuy
      split_ifs at hbuy with hboth
      · exact Bool.and_eq_true_iff.1 hboth
      · cases hbuy
    have hrouterDst : s.config.router = some dst := by simpa [isOfficialRouter] using hroute.2
    have hrouterSrc : s.config.router = some src := by
      rcases hends with hexempt | hrouter
      · simp [isProtocolExempt, hroute.1] at hexempt
      · simpa [isOfficialRouter] using hrouter
    have hsame : dst = src := Option.some.inj (hrouterDst.symm.trans hrouterSrc)
    exact hself ⟨hrouterSrc, hsame, hroute.1, hlive⟩
  · have hp := previewDebit_of_preview (preview_of_applied h hlive)
    rw [hp] at hpreview
    cases hpreview
    exact ⟨le_rfl, fun _ => rfl⟩

end Apply

section Allowance

variable {s s' : Storage} {host : Host} {env : Env} {sender : Addr} {out : Storage × Response}

/-- The base token took `n` from what `owner` allows `sender`. -/
def Consumed (s : Storage) (host : Host) (env : Env) (sender owner : Addr) (n : ℕ)
    (s' : Storage) : Prop :=
  host.deductAllowance s.allowances owner sender env n = some s'.allowances

/-- The allowance that a message uses is the amount that leaves the owner. -/
def AllowancePays (s : Storage) (host : Host) (env : Env) (sender : Addr)
    (out : Storage × Response) : ExecuteMsg → Prop
  | .transferFrom owner _ _ => ∃ r, out.2.transfer = some r ∧ r.src = owner ∧
      Transferred s out.1 r ∧ Consumed s host env sender owner r.debit out.1
  | .sendFrom owner contract _ _ => ∃ r n, out.2.transfer = some r ∧ r.src = owner ∧
      Transferred s out.1 r ∧ Consumed s host env sender owner n out.1 ∧ r.debit ≤ n ∧
      (¬SellsToItself s host env.contract owner contract → n = r.debit)
  | .burnFrom owner amount => Moved s out.1 (only owner amount) nothing amount 0 ∧
      Consumed s host env sender owner amount out.1
  | _ => True

theorem deductAllowance_consumed {owner : Addr} {n : ℕ}
    (h : deductAllowance s host env sender owner n = .ok s') :
    s' = { s with allowances := s'.allowances } ∧ Consumed s host env sender owner n s' := by
  obtain ⟨allowances, hallow, h⟩ := bind_eq_ok.1 h
  rw [orThrow_eq_ok] at hallow
  cases h
  exact ⟨rfl, hallow⟩

theorem burnTokens_allowances {owner : Addr} {amount : ℕ} (h : burnTokens s owner amount = .ok s') :
    s'.allowances = s.allowances := by
  obtain ⟨balances, -, h⟩ := bind_eq_ok.1 h
  obtain ⟨supply, -, h⟩ := bind_eq_ok.1 h
  cases h
  rfl

theorem execute_allowancePays {msg : ExecuteMsg} (h : execute s host env sender msg = .ok out) :
    AllowancePays s host env sender out msg := by
  cases msg with
  | transferFrom owner recipient amount =>
      obtain ⟨src, hsrc', h⟩ := bind_eq_ok.1 h
      rw [addrValidate_eq_ok hsrc'] at h
      obtain ⟨dst, hdst, h⟩ := bind_eq_ok.1 h
      rw [addrValidate_eq_ok hdst] at h
      obtain ⟨s₁, hs₁, h⟩ := bind_eq_ok.1 h
      obtain ⟨moved, hmoved, h⟩ := bind_eq_ok.1 h
      obtain ⟨hallow, hconsumed⟩ := deductAllowance_consumed hs₁
      obtain ⟨hsrc, _, _, htransferred⟩ := applyTransfer_spec hmoved
      obtain ⟨_, _, _, _, _, _, _, _, _, _, _, _, hkept⟩ := applyTransfer_report hmoved
      have hdebit := debit_of_no_message hmoved
      cases h
      refine ⟨moved.2, rfl, hsrc, htransferred.of_allowances hallow, ?_⟩
      unfold Consumed at hconsumed ⊢
      rw [hdebit, hkept]
      exact hconsumed
  | sendFrom owner contract amount msg =>
      obtain ⟨src, hsrc', h⟩ := bind_eq_ok.1 h
      rw [addrValidate_eq_ok hsrc'] at h
      obtain ⟨dst, hdst, h⟩ := bind_eq_ok.1 h
      rw [addrValidate_eq_ok hdst] at h
      obtain ⟨debit, hdebit, h⟩ := bind_eq_ok.1 h
      obtain ⟨s₁, hs₁, h⟩ := bind_eq_ok.1 h
      obtain ⟨moved, hmoved, h⟩ := bind_eq_ok.1 h
      obtain ⟨hallow, hconsumed⟩ := deductAllowance_consumed hs₁
      obtain ⟨hsrc, _, _, htransferred⟩ := applyTransfer_spec hmoved
      obtain ⟨_, _, _, _, _, _, _, _, _, _, _, _, hkept⟩ := applyTransfer_report hmoved
      -- the allowances play no part in the classification
      have hsame : previewDebit s₁ env.contract owner contract amount (some msg) = .ok debit := by
        rw [hallow]
        exact hdebit
      have hself : SellsToItself s₁ host env.contract owner contract ↔
          SellsToItself s host env.contract owner contract := by
        rw [hallow]
        exact Iff.rfl
      obtain ⟨hle, heq⟩ := previewDebit_of_applied hmoved hsame
      cases h
      refine ⟨moved.2, debit, rfl, hsrc, htransferred.of_allowances hallow, ?_, hle,
        fun hnot => heq fun h => hnot (hself.1 h)⟩
      unfold Consumed at hconsumed ⊢
      rw [hkept]
      exact hconsumed
  | burnFrom owner amount =>
      obtain ⟨src, hsrc, h⟩ := bind_eq_ok.1 (plain_eq_ok h)
      rw [addrValidate_eq_ok hsrc] at h
      obtain ⟨s₁, hs₁, h⟩ := bind_eq_ok.1 h
      obtain ⟨hallow, hconsumed⟩ := deductAllowance_consumed hs₁
      have hmoved := burnTokens_spec h
      have hkept := burnTokens_allowances h
      rw [hallow] at hmoved
      refine ⟨⟨hmoved.balances, hmoved.supply⟩, ?_⟩
      unfold Consumed at hconsumed ⊢
      rw [hkept]
      exact hconsumed
  | transfer recipient amount => trivial
  | send contract amount msg => trivial
  | burn amount => trivial
  | mint recipient amount => trivial
  | routeTransfer slot recipient amount => trivial
  | rotateRouter router codeId checksum => trivial

/-- What a transfer applies was previewed, but for a live purchase, and an allowance pays for what
leaves its owner, but for a router that is a listed pair of its own and sells to itself. -/
theorem preview_and_allowance_agree (s : Storage) (host : Host) (env : Env) :
    (∀ src dst amount sendMsg out, applyTransfer s host env src dst amount sendMsg = .ok out →
      ¬LiveRoutedBuy s host env.contract src dst →
      preview s env.contract src dst amount sendMsg = .ok ⟨out.2.kind, out.2.declared, out.2.debit,
        out.2.amount, out.2.tax, out.2.hopTrader⟩) ∧
    ∀ sender msg out, execute s host env sender msg = .ok out →
      AllowancePays s host env sender out msg :=
  ⟨fun _ _ _ _ _ h hlive => preview_of_applied h hlive, fun _ _ _ h => execute_allowancePays h⟩

end Allowance

section Samples

/-- An allowance without expiry. -/
def deductPlain (allowances : Allowances) (owner spender : Addr) (_ : Env) (amount : ℕ) :
    Option Allowances :=
  (allowances owner spender).bind fun a =>
    (checkedSub a.allowance amount).map fun left =>
      Function.update allowances owner
        (Function.update (allowances owner) spender (some { a with allowance := left }))

/-- The router 5 is a listed pair and reports a purchase of the token 9 from itself. -/
def selfListedToken : Storage :=
  { sampleToken with
    config := ⟨1, 8, 200, 100, 1000, 2, some 5, none, false⟩
    features := ⟨false, true, false, false⟩
    listedPairs := fun a => a == 5
    balances := only 5 1000
    allowances := fun _ _ => some ⟨600, none⟩ }

def selfListedHost : Host :=
  { sampleHost with
    routeTaxContext := fun _ => some ⟨1, 1, 7, 5, 9, 9, 1000, 500, [], none, []⟩
    deductAllowance := deductPlain }

/-- The swap uses 505 of the allowance of 600, and 500 leave the owner. -/
theorem allowance_exceeds_debit : ∃ out r,
    execute selfListedToken selfListedHost ⟨1, 1, 9⟩ 3 (.sendFrom 5 5 500 (.swap (some 7))) =
      .ok out ∧ out.2.transfer = some r ∧ r.src = 5 ∧ r.debit = 500 ∧
      (selfListedToken.allowances 5 3).map Allowance.allowance = some 600 ∧
      (out.1.allowances 5 3).map Allowance.allowance = some 95 := by
  have h : Meets (execute selfListedToken selfListedHost ⟨1, 1, 9⟩ 3
      (.sendFrom 5 5 500 (.swap (some 7))))
      (fun out => (out.2.transfer.map fun r => (r.src, r.debit)) = some (5, 500) ∧
        ((out.1.allowances 5 3).map Allowance.allowance) = some 95) (fun _ => False) := by
    decide +kernel
  obtain ⟨out, hout, hmoved, hallow⟩ := h.accepted
  obtain ⟨r, hr, hends⟩ := Option.map_eq_some_iff.1 hmoved
  obtain ⟨hsrc, hdebit⟩ := Prod.mk.inj hends
  exact ⟨out, r, hout, hr, hsrc, hdebit, rfl, hallow⟩

/-- The router sends wallet 7 what it holds, by itself or through the spender 3: no purchase. -/
theorem preview_and_allowance_agree_sample :
    (∃ out, applyTransfer selfListedToken selfListedHost ⟨1, 1, 9⟩ 5 7 500 none = .ok out ∧
      preview selfListedToken 9 5 7 500 none = .ok ⟨out.2.kind, out.2.declared, out.2.debit,
        out.2.amount, out.2.tax, out.2.hopTrader⟩) ∧
    ∃ out, execute selfListedToken selfListedHost ⟨1, 1, 9⟩ 3 (.transferFrom 5 7 500) = .ok out ∧
      AllowancePays selfListedToken selfListedHost ⟨1, 1, 9⟩ 3 out (.transferFrom 5 7 500) := by
  constructor
  · have hout : Meets (applyTransfer selfListedToken selfListedHost ⟨1, 1, 9⟩ 5 7 500 none)
        (fun _ => True) (fun _ => False) := by
      decide +kernel
    have hnone : Meets (routedBuy selfListedToken selfListedHost 9 5 7)
        (fun trader => trader = none) (fun _ => False) := by
      decide +kernel
    obtain ⟨out, h, -⟩ := hout.accepted
    obtain ⟨trader, hbuy, htrader⟩ := hnone.accepted
    refine ⟨out, h, ?_⟩
    apply (preview_and_allowance_agree selfListedToken selfListedHost ⟨1, 1, 9⟩).1 5 7 500 none
      out h
    rintro ⟨live, hlive⟩
    rw [htrader] at hbuy
    cases hlive.symm.trans hbuy
  · have hout : Meets (execute selfListedToken selfListedHost ⟨1, 1, 9⟩ 3 (.transferFrom 5 7 500))
        (fun _ => True) (fun _ => False) := by
      decide +kernel
    obtain ⟨out, h, -⟩ := hout.accepted
    exact ⟨out, h,
      (preview_and_allowance_agree selfListedToken selfListedHost ⟨1, 1, 9⟩).2 3 _ out h⟩

end Samples

end Cl8yDex.CommunityTax
