import Cl8yDex.SinkShares
import Mathlib.Logic.Relation

/-!
# Conservation of the taxed supply

Every entry point is a movement: what it takes from some balances and gives to others, with the
supply moved by the difference. The addresses of the two may coincide in any way, because a
movement only states the net effect on each balance.
-/

namespace Cl8yDex.CommunityTax

open Outcome Holdings

variable {s s' : Storage} {host : Host} {env : Env} {sender : Addr}

section Kinds

variable {src dst : Addr} {amount : ℕ} {hop : Option Addr} {trade : TaxKind × ℕ}

theorem exemptTrade_honest (h : trade.1 = .honest → trade.2 = 0) :
    (exemptTrade s src dst hop trade).1 = .honest → (exemptTrade s src dst hop trade).2 = 0 := by
  unfold exemptTrade applyManagerDirectoryTaxSkip
  cases hop with
  | none =>
      simp only
      split_ifs
      · exact fun _ => rfl
      · exact h
  | some trader =>
      simp only
      split_ifs
      · exact fun _ => rfl
      · exact h

theorem classifyTrade_honest {self : Addr} {sendMsg : Option HookMsg} :
    (classifyTrade s self src dst sendMsg).1 = .honest →
      (classifyTrade s self src dst sendMsg).2 = 0 := by
  unfold classifyTrade
  split_ifs <;> simp

/-- An honest movement is charged nothing. -/
theorem classifyTransfer_honest {self : Addr} {sendMsg : Option HookMsg} {c : Classified}
    (h : classifyTransfer s host self src dst amount sendMsg = .ok c) :
    c.charged.1 = .honest → c.charged.2 = 0 := by
  obtain ⟨sold, -, h⟩ := bind_eq_ok.1 h
  obtain ⟨checked, -, h⟩ := bind_eq_ok.1 h
  obtain ⟨bought, -, h⟩ := bind_eq_ok.1 h
  cases h
  apply exemptTrade_honest
  cases bought with
  | none => exact classifyTrade_honest
  | some trader => exact fun hk => nomatch hk

theorem taxAmount_zero {tax : ℕ} (h : taxAmount amount 0 = .ok tax) : tax = 0 := by
  rw [taxAmount, orThrow_eq_ok, checkedMultiplyRatio_eq_some] at h
  rw [h.2.2, Nat.mul_zero, Nat.zero_div]

end Kinds

/-- A taxed transfer: the debit is the credit and the tax, the tax is shared among the sinks, and
every balance moves by exactly its part of the three. -/
structure Transferred (s s' : Storage) (r : TransferReport) : Prop where
  split : r.amount + r.tax = r.debit
  rate : if r.kind = .sell then r.amount = r.declared else r.debit = r.declared
  sinks : shared r.sinks = r.tax
  covered : r.debit ≤ s.balances r.src
  balances : ∀ a, s'.balances a + (if a = r.src then r.debit else 0) =
    s.balances a + ((if a = r.dst then r.amount else 0) + paid r.sinks a)
  supply : s'.tokenInfo.totalSupply + burned r.sinks = s.tokenInfo.totalSupply
  mint : s'.tokenInfo.mint = s.tokenInfo.mint

theorem applyTransfer_spec {src dst : Addr} {amount : ℕ} {sendMsg : Option HookMsg}
    {out : Storage × TransferReport}
    (h : applyTransfer s host env src dst amount sendMsg = .ok out) :
    out.2.src = src ∧ out.2.dst = dst ∧ out.2.declared = amount ∧ Transferred s out.1 out.2 := by
  obtain ⟨c, hc, h⟩ := bind_eq_ok.1 h
  obtain ⟨tax, htax, h⟩ := bind_eq_ok.1 h
  obtain ⟨moved, hmoved, h⟩ := bind_eq_ok.1 h
  obtain ⟨after, hafter, h⟩ := bind_eq_ok.1 h
  obtain ⟨toBal, -, h⟩ := bind_eq_ok.1 h
  obtain ⟨-, -, h⟩ := bind_eq_ok.1 h
  obtain ⟨balances, hbalances, h⟩ := bind_eq_ok.1 h
  obtain ⟨credits, hcredits, h⟩ := bind_eq_ok.1 h
  obtain ⟨-, -, h⟩ := bind_eq_ok.1 h
  obtain ⟨final, hfinal, h⟩ := bind_eq_ok.1 h
  obtain ⟨info, hinfo, h⟩ := bind_eq_ok.1 h
  rw [orThrow_eq_ok, checkedSub_eq_some] at hafter
  have hhonest : c.charged.1 = .honest → tax = 0 := by
    intro hk
    rw [classifyTransfer_honest hc hk] at htax
    exact taxAmount_zero htax
  obtain ⟨hsplit, hrate⟩ := debitCredit_eq_ok hmoved hhonest
  obtain ⟨hpaid, hburned⟩ := creditSinks_eq_ok hfinal
  obtain ⟨hsupply, hmint⟩ := burnSupply_eq_ok hinfo
  cases h
  refine ⟨rfl, rfl, rfl, hsplit, hrate, shared_sinkCredits hcredits, hafter.1, fun a => ?_, ?_,
    hmint⟩
  · have hcredit := addBalance_eq_ok hbalances a
    have hsinks := hpaid a
    simp only
    by_cases ha : a = src
    · rw [ha, Function.update_self] at hcredit
      rw [ha] at hsinks
      rw [ha, if_pos rfl]
      omega
    · rw [Function.update_of_ne ha] at hcredit
      rw [if_neg ha]
      omega
  · rw [← hburned]
    exact hsupply

/-- The balances add up to the supply. -/
def Storage.Conserved (s : Storage) : Prop := Sums s.balances s.tokenInfo.totalSupply

theorem Transferred.conserved {r : TransferReport} (h : Transferred s s' r)
    (hs : s.Conserved) : s'.Conserved := by
  obtain ⟨n, hpaid, htotal⟩ := shared_eq r.sinks
  have hgiven := (Sums.single r.dst r.amount).add hpaid
  obtain ⟨hle, hsums⟩ := hs.moves (Sums.single r.src r.debit) hgiven h.balances
  have h1 := h.split
  have h2 := h.sinks
  have h3 := h.supply
  have heq : s'.tokenInfo.totalSupply = s.tokenInfo.totalSupply + (r.amount + n) - r.debit := by
    omega
  rw [Storage.Conserved, heq]
  exact hsums

section Movements

variable {amount : ℕ} {taken given : Addr → ℕ} {burnt minted m n : ℕ}

/-- An untaxed movement of balances, with what leaves the supply and what joins it. -/
structure Moved (s s' : Storage) (taken given : Addr → ℕ) (burnt minted : ℕ) : Prop where
  balances : ∀ a, s'.balances a + taken a = s.balances a + given a
  supply : s'.tokenInfo.totalSupply + burnt = s.tokenInfo.totalSupply + minted

theorem Moved.conserved (h : Moved s s' taken given burnt minted) (htaken : Sums taken m)
    (hgiven : Sums given n) (hflow : n + burnt = m + minted) (hs : s.Conserved) :
    s'.Conserved := by
  obtain ⟨hle, hsums⟩ := hs.moves htaken hgiven h.balances
  have hsupply := h.supply
  have heq : s'.tokenInfo.totalSupply = s.tokenInfo.totalSupply + n - m := by omega
  rw [Storage.Conserved, heq]
  exact hsums

/-- All of it at one address. -/
def only (a : Addr) (n : ℕ) (b : Addr) : ℕ := if b = a then n else 0

def nothing (_ : Addr) : ℕ := 0

theorem burnTokens_spec {owner : Addr} (h : burnTokens s owner amount = .ok s') :
    Moved s s' (only owner amount) nothing amount 0 := by
  obtain ⟨balances, hbalances, h⟩ := bind_eq_ok.1 h
  obtain ⟨supply, hsupply, h⟩ := bind_eq_ok.1 h
  rw [orThrow_eq_ok, checkedSub_eq_some] at hsupply
  cases h
  constructor
  · exact (subBalance_eq_ok hbalances).2
  · change supply + amount = s.tokenInfo.totalSupply
    omega

theorem executeMint_spec {recipient : Addr}
    (h : executeMint s host sender recipient amount = .ok s') :
    Moved s s' nothing (only recipient amount) 0 amount := by
  obtain ⟨-, -, h⟩ := bind_eq_ok.1 h
  obtain ⟨-, -, h⟩ := bind_eq_ok.1 h
  obtain ⟨rcpt, hrcpt, h⟩ := bind_eq_ok.1 h
  obtain ⟨mint, -, h⟩ := bind_eq_ok.1 h
  obtain ⟨-, -, h⟩ := bind_eq_ok.1 h
  obtain ⟨-, -, h⟩ := bind_eq_ok.1 h
  obtain ⟨balances, hbalances, h⟩ := bind_eq_ok.1 h
  obtain ⟨supply, hsupply, h⟩ := bind_eq_ok.1 h
  rw [orThrow_eq_ok, checkedAdd_eq_some] at hsupply
  rw [addrValidate_eq_ok hrcpt] at hbalances
  cases h
  constructor
  · exact addBalance_eq_ok hbalances
  · exact hsupply.2

/-- A settlement moves the amount from the router and nothing else. -/
theorem executeRouteTransfer_spec {slot : ℕ} {recipient : Addr}
    (h : executeRouteTransfer s host env sender slot recipient amount = .ok s') :
    Moved s s' (only sender amount) (only recipient amount) 0 0 := by
  obtain ⟨-, -, h⟩ := bind_eq_ok.1 h
  obtain ⟨dst, hdst, h⟩ := bind_eq_ok.1 h
  obtain ⟨ctx, -, h⟩ := bind_eq_ok.1 h
  obtain ⟨-, -, h⟩ := bind_eq_ok.1 h
  obtain ⟨toBal, -, h⟩ := bind_eq_ok.1 h
  obtain ⟨-, -, h⟩ := bind_eq_ok.1 h
  obtain ⟨record, -, h⟩ := bind_eq_ok.1 h
  obtain ⟨debited, hdebited, h⟩ := bind_eq_ok.1 h
  obtain ⟨credited, hcredited, h⟩ := bind_eq_ok.1 h
  rw [addrValidate_eq_ok hdst] at hcredited
  cases h
  constructor
  · intro a
    have hsub := (subBalance_eq_ok hdebited).2 a
    have hadd := addBalance_eq_ok hcredited a
    simp only [only]
    omega
  · rfl

theorem rotate_spec {router : Option Addr} {codeId : Option ℕ} {checksum : Option (List ℕ)}
    (h : rotate s host env sender router codeId checksum = .ok s') :
    Moved s s' nothing nothing 0 0 := by
  obtain ⟨contract, -, h⟩ := bind_eq_ok.1 h
  obtain ⟨authority, -, h⟩ := bind_eq_ok.1 h
  obtain ⟨candidate, -, h⟩ := bind_eq_ok.1 h
  obtain ⟨record, -, h⟩ := bind_eq_ok.1 h
  cases h
  exact ⟨fun _ => rfl, rfl⟩

end Movements

section Entry

/-- A transfer by `owner` to `recipient` was reported, and the storage moved as reported. A
callback carries the credited amount. -/
def Reported (s : Storage) (owner recipient : Addr) (amount : ℕ) (out : Storage × Response) :
    Prop :=
  ∃ r, out.2.transfer = some r ∧ r.src = owner ∧ r.dst = recipient ∧ r.declared = amount ∧
    (∀ hook ∈ out.2.hook, hook.contract = recipient ∧ hook.amount = r.amount) ∧
    Transferred s out.1 r

/-- What each accepted message does to the balances and to the supply. -/
def Settled (s : Storage) (sender : Addr) (out : Storage × Response) : ExecuteMsg → Prop
  | .transfer recipient amount => Reported s sender recipient amount out
  | .send contract amount _ => Reported s sender contract amount out
  | .transferFrom owner recipient amount => Reported s owner recipient amount out
  | .sendFrom owner contract amount _ => Reported s owner contract amount out
  | .burn amount => Moved s out.1 (only sender amount) nothing amount 0
  | .burnFrom owner amount => Moved s out.1 (only owner amount) nothing amount 0
  | .mint recipient amount => Moved s out.1 nothing (only recipient amount) 0 amount
  | .routeTransfer _ recipient amount =>
      Moved s out.1 (only sender amount) (only recipient amount) 0 0
  | .rotateRouter _ _ _ => Moved s out.1 nothing nothing 0 0

variable {out : Storage × Response}

/-- Deducting an allowance leaves every balance and the supply. -/
theorem deductAllowance_eq_ok {owner : Addr} {amount : ℕ}
    (h : deductAllowance s host env sender owner amount = .ok s') :
    ∃ allowances, s' = { s with allowances := allowances } := by
  obtain ⟨allowances, -, h⟩ := bind_eq_ok.1 h
  cases h
  exact ⟨allowances, rfl⟩

theorem Transferred.of_allowances {s₁ : Storage} {allowances : Allowances} {r : TransferReport}
    (hs : s₁ = { s with allowances := allowances }) (h : Transferred s₁ s' r) :
    Transferred s s' r := by
  subst hs
  exact ⟨h.split, h.rate, h.sinks, h.covered, h.balances, h.supply, h.mint⟩

theorem plain_eq_ok {x : Except ContractError Storage} (h : plain x = .ok out) :
    x = .ok out.1 := by
  obtain ⟨s, hs, h⟩ := bind_eq_ok.1 h
  cases h
  exact hs

theorem execute_settled {msg : ExecuteMsg} (h : execute s host env sender msg = .ok out) :
    Settled s sender out msg := by
  cases msg with
  | transfer recipient amount =>
      obtain ⟨dst, hdst, h⟩ := bind_eq_ok.1 h
      rw [addrValidate_eq_ok hdst] at h
      obtain ⟨moved, hmoved, h⟩ := bind_eq_ok.1 h
      obtain ⟨hsrc, hto, hdeclared, htransferred⟩ := applyTransfer_spec hmoved
      cases h
      exact ⟨moved.2, rfl, hsrc, hto, hdeclared, by simp, htransferred⟩
  | send contract amount msg =>
      obtain ⟨dst, hdst, h⟩ := bind_eq_ok.1 h
      rw [addrValidate_eq_ok hdst] at h
      obtain ⟨moved, hmoved, h⟩ := bind_eq_ok.1 h
      obtain ⟨hsrc, hto, hdeclared, htransferred⟩ := applyTransfer_spec hmoved
      cases h
      exact ⟨moved.2, rfl, hsrc, hto, hdeclared, by simp, htransferred⟩
  | transferFrom owner recipient amount =>
      obtain ⟨src, hsrc', h⟩ := bind_eq_ok.1 h
      rw [addrValidate_eq_ok hsrc'] at h
      obtain ⟨dst, hdst, h⟩ := bind_eq_ok.1 h
      rw [addrValidate_eq_ok hdst] at h
      obtain ⟨s₁, hs₁, h⟩ := bind_eq_ok.1 h
      obtain ⟨moved, hmoved, h⟩ := bind_eq_ok.1 h
      obtain ⟨allowances, hallow⟩ := deductAllowance_eq_ok hs₁
      obtain ⟨hsrc, hto, hdeclared, htransferred⟩ := applyTransfer_spec hmoved
      cases h
      exact ⟨moved.2, rfl, hsrc, hto, hdeclared, by simp, htransferred.of_allowances hallow⟩
  | sendFrom owner contract amount msg =>
      obtain ⟨src, hsrc', h⟩ := bind_eq_ok.1 h
      rw [addrValidate_eq_ok hsrc'] at h
      obtain ⟨dst, hdst, h⟩ := bind_eq_ok.1 h
      rw [addrValidate_eq_ok hdst] at h
      obtain ⟨debit, -, h⟩ := bind_eq_ok.1 h
      obtain ⟨s₁, hs₁, h⟩ := bind_eq_ok.1 h
      obtain ⟨moved, hmoved, h⟩ := bind_eq_ok.1 h
      obtain ⟨allowances, hallow⟩ := deductAllowance_eq_ok hs₁
      obtain ⟨hsrc, hto, hdeclared, htransferred⟩ := applyTransfer_spec hmoved
      cases h
      exact ⟨moved.2, rfl, hsrc, hto, hdeclared, by simp, htransferred.of_allowances hallow⟩
  | burn amount => exact burnTokens_spec (plain_eq_ok h)
  | burnFrom owner amount =>
      obtain ⟨src, hsrc, h⟩ := bind_eq_ok.1 (plain_eq_ok h)
      rw [addrValidate_eq_ok hsrc] at h
      obtain ⟨s₁, hs₁, h⟩ := bind_eq_ok.1 h
      obtain ⟨allowances, rfl⟩ := deductAllowance_eq_ok hs₁
      have hmoved := burnTokens_spec h
      exact ⟨hmoved.balances, hmoved.supply⟩
  | mint recipient amount => exact executeMint_spec (plain_eq_ok h)
  | routeTransfer slot recipient amount => exact executeRouteTransfer_spec (plain_eq_ok h)
  | rotateRouter router codeId checksum => exact rotate_spec (plain_eq_ok h)

theorem Settled.conserved {msg : ExecuteMsg} (h : Settled s sender out msg) (hs : s.Conserved) :
    out.1.Conserved := by
  cases msg with
  | transfer _ _ | send _ _ _ | transferFrom _ _ _ | sendFrom _ _ _ _ =>
      obtain ⟨r, -, -, -, -, -, htransferred⟩ := h
      exact htransferred.conserved hs
  | burn amount => exact Moved.conserved h (Sums.single _ _) Sums.zero (by omega) hs
  | burnFrom owner amount => exact Moved.conserved h (Sums.single _ _) Sums.zero (by omega) hs
  | mint recipient amount => exact Moved.conserved h Sums.zero (Sums.single _ _) (by omega) hs
  | routeTransfer slot recipient amount =>
      exact Moved.conserved h (Sums.single _ _) (Sums.single _ _) (by omega) hs
  | rotateRouter _ _ _ => exact Moved.conserved h Sums.zero Sums.zero (by omega) hs

end Entry

/-- A call, accepted or refused, or any change of the configuration between two calls. -/
inductive Step : Storage → Storage → Prop
  | call (s : Storage) (host : Host) (env : Env) (sender : Addr) (msg : ExecuteMsg) :
      Step s (transact s host env sender msg)
  | configure {s s' : Storage} (hbalances : s'.balances = s.balances)
      (hsupply : s'.tokenInfo.totalSupply = s.tokenInfo.totalSupply) : Step s s'

theorem transact_of_ok {msg : ExecuteMsg} {out : Storage × Response}
    (h : execute s host env sender msg = .ok out) : transact s host env sender msg = out.1 := by
  unfold transact
  rw [h]

theorem transact_of_error {msg : ExecuteMsg} {e : ContractError}
    (h : execute s host env sender msg = .error e) : transact s host env sender msg = s := by
  unfold transact
  rw [h]

theorem Step.conserved (h : Step s s') (hs : s.Conserved) : s'.Conserved := by
  cases h with
  | call host env sender msg =>
      cases hx : execute s host env sender msg with
      | ok out =>
          rw [transact_of_ok hx]
          exact (execute_settled hx).conserved hs
      | error e =>
          rw [transact_of_error hx]
          exact hs
  | configure hbalances hsupply =>
      rw [Storage.Conserved, hbalances, hsupply]
      exact hs

theorem Run.conserved (hrun : Relation.ReflTransGen Step s s') (hs : s.Conserved) :
    s'.Conserved := by
  induction hrun with
  | refl => exact hs
  | tail _ hstep ih => exact hstep.conserved ih

/-- Along every run the balances add up to the supply; an accepted message moves them exactly as
it reports, and a refused one moves nothing. -/
theorem supply_conserved (hs : s.Conserved) (hrun : Relation.ReflTransGen Step s s') :
    s'.Conserved ∧ ∀ host env sender msg,
      (∀ out, execute s' host env sender msg = .ok out →
        Settled s' sender out msg ∧ transact s' host env sender msg = out.1) ∧
      ∀ e, execute s' host env sender msg = .error e → transact s' host env sender msg = s' := by
  refine ⟨Run.conserved hrun hs, fun host env sender msg => ⟨fun out hx => ?_, fun e hx => ?_⟩⟩
  · exact ⟨execute_settled hx, transact_of_ok hx⟩
  · exact transact_of_error hx

/-- A token whose treasury is a wallet and one of whose sinks is the sender himself. -/
def sampleToken : Storage where
  config := ⟨1, 8, 100, 100, 1000, 2, none, none, false⟩
  features := ⟨false, true, true, false⟩
  sinks := some [⟨.burn, none, 3000⟩, ⟨.wallet, some 7, 3000⟩, ⟨.treasury, none, 4000⟩]
  launchGuards := none
  listedPairs _ := false
  protocolExempt _ := false
  managerExempt _ := false
  lastTradeBlock _ := none
  balances := only 7 1000
  tokenInfo := ⟨1000, none⟩
  allowances _ _ := none
  settlementConsumption := none

def sampleHost : Host where
  validAddr _ := true
  routeTaxContext _ := none
  routerConfig _ := none
  contractInfo _ := none
  codeChecksum _ := none
  factoryGovernance _ := none
  deductAllowance allowances _ _ _ _ := some allowances

/-- Wallet 7 sends 500 to the treasury: 50 of tax, of which 15 are burned and 15 come back. -/
theorem supply_conserved_sample : ∃ s : Storage, s.balances 7 = 515 ∧ s.balances 8 = 470 ∧
    s.tokenInfo.totalSupply = 985 ∧ s.Conserved := by
  have hs : sampleToken.Conserved := Sums.single 7 1000
  have hstep := Step.call sampleToken sampleHost ⟨1, 1, 9⟩ 7 (.transfer 8 500)
  refine ⟨transact sampleToken sampleHost ⟨1, 1, 9⟩ 7 (.transfer 8 500), ?_, ?_, ?_,
    (supply_conserved hs (.single hstep)).1⟩
  · decide +kernel
  · decide +kernel
  · decide +kernel

end Cl8yDex.CommunityTax
