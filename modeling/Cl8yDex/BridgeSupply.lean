import Cl8yDex.BridgeDebt
import Cl8yDex.BridgeReceipt
import Cl8yDex.BridgeEffects
import Mathlib.Logic.Relation

/-!
# The issuer among its tokens

Every address holds at most one contract: a receipt, or a token of a code that the owner may
approve. An issuer call goes through only if all its messages do, in order. Next to the chain runs
a history of what was issued, what was repaid and what the issuer's calls added to each supply.
-/

namespace Cl8yDex.BridgeDebt

open Outcome

/-- A third-party token: its query answers and what a message does to it. -/
structure Cw20 (σ : Type) where
  tokenInfo : σ → Option TokenInfoResponse
  minter : σ → Option MinterResponse
  minters : σ → Option Addr → ℕ → Option (List Addr)
  balance : σ → Addr → Option ℕ
  execute : σ → Addr → TokenMsg → Option σ

variable {σ : Type} (cw20 : Cw20 σ) (validAddr : Addr → Bool) (self : Addr)

def Cw20.supply (t : σ) : ℕ := ((cw20.tokenInfo t).map TokenInfoResponse.totalSupply).getD 0

/-- What a token's contract prescribes for its supply. -/
structure Cw20.Prescribed : Prop where
  mint : ∀ t t' sender recipient n, cw20.execute t sender (.mint recipient n) = some t' →
    cw20.supply t' = cw20.supply t + n
  burn : ∀ t t' sender n, cw20.execute t sender (.burn n) = some t' →
    cw20.supply t' + n = cw20.supply t
  transfer : ∀ t t' sender recipient n,
    cw20.execute t sender (.transfer recipient n) = some t' → cw20.supply t' = cw20.supply t

inductive Contract (σ : Type)
  | receipt (r : Receipt)
  | token (t : σ)

structure World (σ : Type) where
  issuer : Storage
  contracts : Addr → Option (Contract σ)
  codes : Addr → Option ℕ
  now : ℕ

def Contract.tokenInfo : Contract σ → Option TokenInfoResponse
  | .receipt r => some ⟨r.decimals, r.totalSupply⟩
  | .token t => cw20.tokenInfo t

def Contract.minter : Contract σ → Option MinterResponse
  | .receipt r => some ⟨r.minter, r.cap⟩
  | .token t => cw20.minter t

/-- The receipt has no page arguments and answers an empty list. -/
def Contract.minters (c : Contract σ) (startAfter : Option Addr) (limit : ℕ) :
    Option (List Addr) :=
  match c with
  | .receipt _ => some []
  | .token t => cw20.minters t startAfter limit

def Contract.balance (c : Contract σ) (a : Addr) : Option ℕ :=
  match c with
  | .receipt r => some (r.balances a)
  | .token t => cw20.balance t a

def Contract.debtor : Contract σ → Option Addr
  | .receipt r => some r.debtor
  | .token _ => none

def Contract.execute (c : Contract σ) (info : MessageInfo) (msg : TokenMsg) :
    Option (Contract σ) :=
  match c with
  | .receipt r => (r.execute validAddr info msg).toOption.map .receipt
  | .token t => (cw20.execute t info.sender msg).map .token

def World.querier (w : World σ) : Querier where
  validAddr := validAddr
  codeId := w.codes
  tokenInfo a := (w.contracts a).bind (Contract.tokenInfo cw20)
  minter a := (w.contracts a).bind (Contract.minter cw20)
  minters a startAfter limit := (w.contracts a).bind fun c => c.minters cw20 startAfter limit
  debtor a := (w.contracts a).bind Contract.debtor
  receiptMinters a := (w.contracts a).bind fun c => c.minters cw20 none 30
  balance a b := (w.contracts a).bind fun c => c.balance cw20 b

/-- The supply at an address. -/
def World.supply (w : World σ) (a : Addr) : ℕ :=
  (((w.contracts a).bind (Contract.tokenInfo cw20)).map TokenInfoResponse.totalSupply).getD 0

def World.setContract (w : World σ) (a : Addr) (c : Contract σ) : World σ :=
  { w with contracts := Function.update w.contracts a (some c) }

/-- A message to a token, sent without funds. -/
def World.send (w : World σ) (sender : Addr) (m : WasmMsg) : Option (World σ) := do
  let c ← w.contracts m.contract
  let c' ← c.execute cw20 validAddr ⟨sender, []⟩ m.msg
  return w.setContract m.contract c'

/-- A call of the issuer with all its messages. -/
def World.call (w : World σ) (info : MessageInfo) (msg : ExecuteMsg) : Option (World σ) := do
  let out ← (execute w.issuer (w.querier cw20 validAddr) ⟨w.now, self⟩ info msg).toOption
  out.2.foldlM (fun w m => w.send cw20 validAddr self m) { w with issuer := out.1 }

def World.transact (w : World σ) (info : MessageInfo) (msg : ExecuteMsg) : World σ :=
  (w.call cw20 validAddr self info msg).getD w

structure Issue where
  time : ℕ
  amount : ℕ

structure History where
  issues : Addr → List Issue
  repaid : Addr → ℕ
  contributed : Addr → ℤ

def History.initial : History := ⟨fun _ => [], fun _ => 0, fun _ => 0⟩

/-- What an accepted call adds to the history. -/
def History.record (h : History) (w w' : World σ) (info : MessageInfo) (msg : ExecuteMsg) :
    History where
  issues :=
    match msg with
    | .issue underlying _ amount =>
        Function.update h.issues underlying (h.issues underlying ++ [⟨w.now, amount⟩])
    | _ => h.issues
  repaid :=
    match msg with
    | .receive _ amount _ =>
        Function.update h.repaid info.sender (h.repaid info.sender + amount)
    | _ => h.repaid
  contributed a := h.contributed a + (w'.supply cw20 a - w.supply cw20 a)

/-- The underlying tokens and the receipts stay apart across markets. -/
def KeepsApart (s : Storage) : ExecuteMsg → Prop
  | .registerMarket underlying debtToken =>
      s.debtTokens underlying = false ∧ s.markets debtToken = none
  | _ => True

structure State (σ : Type) where
  world : World σ
  history : History

/-- One step in which an accepted issuer call is one of the allowed ones. -/
inductive Step (allowed : Storage → ExecuteMsg → Prop) : State σ → State σ → Prop
  | call {w w' : World σ} {h : History} {info : MessageInfo} {msg : ExecuteMsg}
      (hallowed : allowed w.issuer msg)
      (hcall : w.call cw20 validAddr self info msg = some w') :
      Step allowed ⟨w, h⟩ ⟨w', h.record cw20 w w' info msg⟩
  | refused {w : World σ} {h : History} {info : MessageInfo} {msg : ExecuteMsg}
      (hcall : w.call cw20 validAddr self info msg = none) :
      Step allowed ⟨w, h⟩ ⟨w.transact cw20 validAddr self info msg, h⟩
  /-- Somebody else calls a receipt. -/
  | receipt {w : World σ} {h : History} {a : Addr} {r r' : Receipt} {info : MessageInfo}
      {msg : TokenMsg} (ha : w.contracts a = some (.receipt r)) (hother : info.sender ≠ self)
      (hr : r.execute validAddr info msg = .ok r') :
      Step allowed ⟨w, h⟩ ⟨w.setContract a (.receipt r'), h⟩
  /-- Anything else happens to a third-party token. -/
  | token {w : World σ} {h : History} {a : Addr} {t t' : σ}
      (ha : w.contracts a = some (.token t)) : Step allowed ⟨w, h⟩ ⟨w.setContract a (.token t'), h⟩
  | deployReceipt {w : World σ} {h : History} {a : Addr} {info : MessageInfo}
      {msg : ReceiptInstantiateMsg} {r : Receipt} (ha : w.contracts a = none)
      (hr : Receipt.instantiate validAddr info msg = .ok r) :
      Step allowed ⟨w, h⟩ ⟨w.setContract a (.receipt r), h⟩
  | deployToken {w : World σ} {h : History} {a : Addr} {t : σ} (ha : w.contracts a = none) :
      Step allowed ⟨w, h⟩ ⟨w.setContract a (.token t), h⟩
  /-- A migration replaces the code and keeps the state. -/
  | migrate {w : World σ} {h : History} (codes : Addr → Option ℕ) :
      Step allowed ⟨w, h⟩ ⟨{ w with codes := codes }, h⟩
  | tick {w : World σ} {h : History} {now : ℕ} (hnow : w.now ≤ now) :
      Step allowed ⟨w, h⟩ ⟨{ w with now := now }, h⟩

/-- The issuer as instantiated, on a chain without contracts. -/
def State.initial (owner : Addr) (codes : Addr → Option ℕ) (now : ℕ) : State σ where
  world :=
    { issuer := ⟨⟨owner, none, none⟩, fun _ => none, fun _ => false, fun _ => none⟩
      contracts := fun _ => none
      codes := codes
      now := now }
  history := .initial

end Cl8yDex.BridgeDebt

/-!
## The receipt's ledger

All of a receipt is held by its debtor and stays within the cap. Only the minter changes it.
-/

namespace Cl8yDex.BridgeDebt

open Outcome

namespace Receipt

variable {validAddr : Addr → Bool} {r r' : Receipt} {info : MessageInfo} {sender : Addr}
  {recipient owner : Addr} {amount : ℕ} {msg : TokenMsg}

/-- The debtor holds the whole supply, which the cap bounds. -/
structure Held (r : Receipt) : Prop where
  debtor : r.balances r.debtor = r.totalSupply
  others : ∀ a, a ≠ r.debtor → r.balances a = 0
  capped : ∀ cap ∈ r.cap, r.totalSupply ≤ cap

/-- A receipt with another supply, all of it with the debtor. -/
def withSupply (r : Receipt) (supply : ℕ) : Receipt :=
  { r with totalSupply := supply, balances := Function.update r.balances r.debtor supply }

theorem Held.withSupply (hr : r.Held) {supply : ℕ} (hcap : ∀ cap ∈ r.cap, supply ≤ cap) :
    (r.withSupply supply).Held := by
  constructor
  · exact Function.update_self ..
  · intro a ha
    exact (Function.update_of_ne ha ..).trans (hr.others a ha)
  · exact hcap

theorem instantiate_held {msg : ReceiptInstantiateMsg}
    (h : instantiate validAddr info msg = .ok r) : r.Held := by
  obtain ⟨_, _, h⟩ := bind_eq_ok.1 h
  obtain ⟨_, _, h⟩ := bind_eq_ok.1 h
  obtain ⟨_, _, h⟩ := bind_eq_ok.1 h
  obtain ⟨_, _, h⟩ := bind_eq_ok.1 h
  obtain ⟨minter, _, h⟩ := bind_eq_ok.1 h
  obtain ⟨debtor, _, h⟩ := bind_eq_ok.1 h
  obtain ⟨_, _, h⟩ := bind_eq_ok.1 h
  cases h
  exact ⟨rfl, fun _ _ => rfl, fun _ _ => Nat.zero_le _⟩

theorem executeMint_eq_ok (hr : r.Held)
    (h : executeMint validAddr r sender recipient amount = .ok r') :
    r.minter = sender ∧ r' = r.withSupply (r.totalSupply + amount) ∧ r'.Held := by
  obtain ⟨_, _, h⟩ := bind_eq_ok.1 h
  obtain ⟨_, hminter, h⟩ := bind_eq_ok.1 h
  obtain ⟨a, ha, h⟩ := bind_eq_ok.1 h
  obtain ⟨_, hdebtor, h⟩ := bind_eq_ok.1 h
  obtain ⟨supply, hsupply, h⟩ := bind_eq_ok.1 h
  obtain ⟨_, hcap, h⟩ := bind_eq_ok.1 h
  obtain ⟨balance, hbalance, h⟩ := bind_eq_ok.1 h
  rw [orThrow_eq_ok, checkedAdd_eq_some] at hsupply hbalance
  rw [ensure_eq_ok] at hminter hcap
  rw [hr.debtor] at hbalance
  obtain ⟨-, rfl⟩ := hsupply
  obtain ⟨-, rfl⟩ := hbalance
  cases h
  exact ⟨hminter, rfl, hr.withSupply hcap⟩

theorem executeBurnFrom_eq_ok (hr : r.Held)
    (h : executeBurnFrom validAddr r sender owner amount = .ok r') :
    r.minter = sender ∧ amount ≤ r.totalSupply ∧
      r' = r.withSupply (r.totalSupply - amount) ∧ r'.Held := by
  obtain ⟨_, _, h⟩ := bind_eq_ok.1 h
  obtain ⟨_, hminter, h⟩ := bind_eq_ok.1 h
  obtain ⟨a, ha, h⟩ := bind_eq_ok.1 h
  obtain ⟨_, hdebtor, h⟩ := bind_eq_ok.1 h
  obtain ⟨left, hleft, h⟩ := bind_eq_ok.1 h
  obtain ⟨supply, hsupply, h⟩ := bind_eq_ok.1 h
  rw [orThrow_eq_ok, checkedSub_eq_some] at hsupply hleft
  rw [ensure_eq_ok] at hminter
  rw [hr.debtor] at hleft
  obtain ⟨hle, rfl⟩ := hsupply
  obtain ⟨-, rfl⟩ := hleft
  cases h
  have hcap : ∀ cap ∈ r.cap, r.totalSupply - amount ≤ cap := by
    intro cap hmem
    have := hr.capped cap hmem
    omega
  exact ⟨hminter, hle, rfl, hr.withSupply hcap⟩

/-- Every accepted call comes from the minter and only moves the supply. -/
theorem execute_eq_ok (hr : r.Held) (h : r.execute validAddr info msg = .ok r') :
    r.minter = info.sender ∧ r'.Held ∧ ∃ supply, r' = r.withSupply supply ∧
      ((∃ a n, msg = .mint a n ∧ supply = r.totalSupply + n) ∨
        ∃ a n, msg = .burnFrom a n ∧ n ≤ r.totalSupply ∧ supply = r.totalSupply - n) := by
  obtain ⟨_, _, h⟩ := bind_eq_ok.1 h
  cases msg with
  | transfer _ _ => cases h
  | send _ _ => cases h
  | burn _ => cases h
  | mint a n =>
      obtain ⟨hminter, hr', hheld⟩ := executeMint_eq_ok hr h
      exact ⟨hminter, hheld, _, hr', .inl ⟨a, n, rfl, rfl⟩⟩
  | burnFrom a n =>
      obtain ⟨hminter, hle, hr', hheld⟩ := executeBurnFrom_eq_ok hr h
      exact ⟨hminter, hheld, _, hr', .inr ⟨a, n, rfl, hle, rfl⟩⟩

end Receipt

end Cl8yDex.BridgeDebt

/-!
## Supplies under the issuer's messages

What a message of the issuer does to the contract it reaches, and what the issuer's queries say
about a receipt.
-/

namespace Cl8yDex.BridgeDebt

open Outcome

variable {σ : Type} {cw20 : Cw20 σ} {validAddr : Addr → Bool} {self : Addr}
  {w w' : World σ} {c c' : Contract σ} {info : MessageInfo} {msg : ExecuteMsg} {a b : Addr}
  {n : ℕ}

variable (cw20) in
def Contract.supply (c : Contract σ) : ℕ :=
  ((c.tokenInfo cw20).map TokenInfoResponse.totalSupply).getD 0

/-- If the contract is a receipt, its debtor holds it all. -/
def Contract.Held : Contract σ → Prop
  | .receipt r => r.Held
  | .token _ => True

theorem World.supply_eq (h : w.contracts a = some c) : w.supply cw20 a = c.supply cw20 := by
  unfold World.supply Contract.supply
  rw [h, Option.bind_some]

theorem World.supply_congr (h : w'.contracts a = w.contracts a) :
    w'.supply cw20 a = w.supply cw20 a := by
  unfold World.supply
  rw [h]

@[simp] theorem World.setContract_self : (w.setContract a c).contracts a = some c :=
  Function.update_self ..

theorem World.setContract_of_ne (h : b ≠ a) :
    (w.setContract a c).contracts b = w.contracts b :=
  Function.update_of_ne h ..

theorem Contract.execute_held {msg : TokenMsg} (hc : c.Held)
    (h : c.execute cw20 validAddr info msg = some c') : c'.Held := by
  cases c with
  | receipt r =>
      obtain ⟨r', hr', rfl⟩ := Option.map_eq_some_iff.1 h
      exact (Receipt.execute_eq_ok hc (toOption_eq_some.1 hr')).2.1
  | token t =>
      obtain ⟨t', -, rfl⟩ := Option.map_eq_some_iff.1 h
      trivial

/-- What the issuer's messages do to the supply of a market's token. -/
theorem Contract.execute_mint (hcw20 : cw20.Prescribed) (hc : c.Held)
    (h : c.execute cw20 validAddr info (.mint b n) = some c') :
    c'.supply cw20 = c.supply cw20 + n := by
  cases c with
  | receipt r =>
      obtain ⟨r', hr', rfl⟩ := Option.map_eq_some_iff.1 h
      obtain ⟨-, -, supply, rfl, ⟨_, _, hmsg, hsupply⟩ | ⟨_, _, hmsg, _⟩⟩ :=
        Receipt.execute_eq_ok hc (toOption_eq_some.1 hr')
      · cases hmsg
        exact hsupply
      · cases hmsg
  | token t =>
      obtain ⟨t', ht', rfl⟩ := Option.map_eq_some_iff.1 h
      exact hcw20.mint _ _ _ _ _ ht'

theorem Contract.execute_burn (hcw20 : cw20.Prescribed) (hc : c.Held)
    (h : c.execute cw20 validAddr info (.burn n) = some c') :
    c'.supply cw20 + n = c.supply cw20 := by
  cases c with
  | receipt r =>
      obtain ⟨r', hr', rfl⟩ := Option.map_eq_some_iff.1 h
      obtain ⟨-, -, supply, -, ⟨_, _, hmsg, _⟩ | ⟨_, _, hmsg, _⟩⟩ :=
        Receipt.execute_eq_ok hc (toOption_eq_some.1 hr') <;> cases hmsg
  | token t =>
      obtain ⟨t', ht', rfl⟩ := Option.map_eq_some_iff.1 h
      exact hcw20.burn _ _ _ _ ht'

theorem Contract.execute_transfer (hcw20 : cw20.Prescribed) (hc : c.Held)
    (h : c.execute cw20 validAddr info (.transfer b n) = some c') :
    c'.supply cw20 = c.supply cw20 := by
  cases c with
  | receipt r =>
      obtain ⟨r', hr', rfl⟩ := Option.map_eq_some_iff.1 h
      obtain ⟨-, -, supply, -, ⟨_, _, hmsg, _⟩ | ⟨_, _, hmsg, _⟩⟩ :=
        Receipt.execute_eq_ok hc (toOption_eq_some.1 hr') <;> cases hmsg
  | token t =>
      obtain ⟨t', ht', rfl⟩ := Option.map_eq_some_iff.1 h
      exact hcw20.transfer _ _ _ _ _ ht'

theorem World.send_eq_some {m : WasmMsg} (h : w.send cw20 validAddr self m = some w') :
    ∃ c c', w.contracts m.contract = some c ∧
      c.execute cw20 validAddr ⟨self, []⟩ m.msg = some c' ∧ w' = w.setContract m.contract c' := by
  obtain ⟨c, hc, h⟩ := Option.bind_eq_some_iff.1 h
  obtain ⟨c', hc', h⟩ := Option.bind_eq_some_iff.1 h
  cases h
  exact ⟨c, c', hc, hc', rfl⟩

theorem World.call_eq_some (h : w.call cw20 validAddr self info msg = some w') :
    ∃ s' ms, Effect w.issuer (w.querier cw20 validAddr) ⟨w.now, self⟩ info msg s' ms ∧
      ms.foldlM (fun w m => w.send cw20 validAddr self m) { w with issuer := s' } = some w' := by
  obtain ⟨⟨s', ms⟩, hout, h⟩ := Option.bind_eq_some_iff.1 h
  exact ⟨s', ms, execute_effect (toOption_eq_some.1 hout), h⟩

/-- Only a receipt answers who its debtor is. -/
theorem World.receipt_of_debtor {t d : Addr}
    (h : (w.querier cw20 validAddr).debtor t = some d) :
    ∃ r, w.contracts t = some (.receipt r) ∧ r.debtor = d := by
  obtain ⟨c, hc, hd⟩ := Option.bind_eq_some_iff.1 h
  cases c with
  | receipt r => exact ⟨r, hc, Option.some.inj hd⟩
  | token t => cases hd

theorem World.minter_receipt {t : Addr} {r : Receipt} {answer : MinterResponse}
    (hr : w.contracts t = some (.receipt r))
    (h : (w.querier cw20 validAddr).minter t = some answer) : r.minter = answer.minter := by
  obtain ⟨c, hc, hm⟩ := Option.bind_eq_some_iff.1 h
  rw [hr] at hc
  cases hc
  cases hm
  rfl

theorem World.tokenInfo_receipt {t : Addr} {r : Receipt} {answer : TokenInfoResponse}
    (hr : w.contracts t = some (.receipt r))
    (h : (w.querier cw20 validAddr).tokenInfo t = some answer) :
    r.totalSupply = answer.totalSupply := by
  obtain ⟨c, hc, hm⟩ := Option.bind_eq_some_iff.1 h
  rw [hr] at hc
  cases hc
  cases hm
  rfl

end Cl8yDex.BridgeDebt
