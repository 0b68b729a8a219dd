import Cl8yDex.PairRuns

/-!
# The pair among its tokens

A call of the pair answers with messages, which the chain runs in order. The tokens do not call
back when they move, so somebody else runs only inside a hook or when all messages are done. The
assets move only by transfer: nobody but the pair takes from its account.
-/

namespace Cl8yDex

open Outcome

section Ledger

variable (balances : Addr → Addr → ℕ) (token src dst : Addr) (n : ℕ)

/-- The balances by token and account after `n` came to an account. -/
def credit : Addr → Addr → ℕ :=
  Function.update balances token
    (Function.update (balances token) dst (balances token dst + n))

def debit : Addr → Addr → ℕ :=
  Function.update balances token
    (Function.update (balances token) src (balances token src - n))

def moveTokens : Option (Addr → Addr → ℕ) :=
  if n ≤ balances token src then some (credit (debit balances token src n) token dst n) else none

end Ledger

def PairInfo.HasToken (info : PairInfo) (token : Addr) : Prop :=
  token = info.token0 ∨ token = info.token1 ∨ token = info.lpToken

/-- What a message to a token does to the balances; `self` is the pair, which sends it. -/
def CosmosMsg.settle (self : Addr) (balances : Addr → Addr → ℕ) :
    CosmosMsg → Option (Addr → Addr → ℕ)
  | transfer token recipient n => moveTokens balances token self recipient n
  | transferFrom token owner recipient n => moveTokens balances token owner recipient n
  | mint token recipient n => some (credit balances token recipient n)
  | burn token n => if n ≤ balances token self then some (debit balances token self n) else none
  | deregisterWallet .. | updateAdmin .. => some balances
  | hook .. => none

/-- The messages that the chain runs now, if the pair answered last, and what is left of the answers
whose hooks are running. -/
structure PairWorld where
  pair : PairStorage
  balances : Addr → Addr → ℕ
  running : Option (List CosmosMsg)
  suspended : List (List CosmosMsg)

/-- The pair's own balance of its tokens is answered as it is. -/
def AnswersBalances (info : PairInfo) (self : Addr) (balances : Addr → Addr → ℕ) (q : Querier) :
    Prop :=
  ∀ token, info.HasToken token → ∀ n, q.balance token self = some n → n = balances token self

/-- A step of the chain around the pair `self`. -/
inductive PairWorld.Step (self : Addr) : PairWorld → PairWorld → Prop
  /-- Others trade, mint and burn among themselves, or give the pair something. -/
  | others {w : PairWorld} {balances' : Addr → Addr → ℕ} (hidle : w.running = none)
      (hkeep : ∀ token, w.pair.pairInfo.HasToken token →
        w.balances token self ≤ balances' token self) :
      Step self w { w with balances := balances' }
  | call {w : PairWorld} {q : Querier} {env : Env} {sender : Addr} {msg : ExecuteMsg}
      {out : PairStorage × Response} (hidle : w.running = none) (hself : sender ≠ self)
      (hsender : ¬w.pair.pairInfo.HasToken sender) (henv : env.contract = self)
      (hq : AnswersBalances w.pair.pairInfo self w.balances q)
      (h : execute w.pair q env sender msg = .ok out) :
      Step self w { w with pair := out.1, running := some out.2.messages }
  /-- A token moves from its holder to the pair before it calls the pair. -/
  | send {w : PairWorld} {q : Querier} {env : Env} {token holder : Addr} {msg : Cw20ReceiveMsg}
      {balances' : Addr → Addr → ℕ} {out : PairStorage × Response} (hidle : w.running = none)
      (htoken : w.pair.pairInfo.HasToken token) (hself : token ≠ self) (hholder : holder ≠ self)
      (hmove : moveTokens w.balances token holder self msg.amount = some balances')
      (henv : env.contract = self) (hq : AnswersBalances w.pair.pairInfo self balances' q)
      (h : execute w.pair q env token (.receive msg) = .ok out) :
      Step self w ⟨out.1, balances', some out.2.messages, w.suspended⟩
  | settle {w : PairWorld} {m : CosmosMsg} {l : List CosmosMsg} {balances' : Addr → Addr → ℕ}
      (hrun : w.running = some (m :: l)) (h : m.settle self w.balances = some balances') :
      Step self w { w with balances := balances', running := some l }
  | hook {w : PairWorld} {a : Addr} {c : AfterSwap} {l : List CosmosMsg}
      (hrun : w.running = some (.hook a c :: l)) :
      Step self w { w with running := none, suspended := l :: w.suspended }
  | resume {w : PairWorld} {l : List CosmosMsg} {ls : List (List CosmosMsg)}
      (hidle : w.running = none) (hsusp : w.suspended = l :: ls) :
      Step self w { w with running := some l, suspended := ls }
  | finish {w : PairWorld} (hrun : w.running = some []) : Step self w { w with running := none }

/-- The pair is new, and its two assets and its LP token are three contracts. -/
structure PairWorld.Starts (w : PairWorld) : Prop where
  pair : Cl8yDex.Starts w.pair
  distinct : w.pair.pairInfo.Distinct
  idle : w.running = none
  calm : w.suspended = []

def PairWorld.Reachable (self : Addr) (w : PairWorld) : Prop :=
  ∃ w₀ : PairWorld, w₀.Starts ∧ Relation.ReflTransGen (PairWorld.Step self) w₀ w

section Balances

variable {balances balances' : Addr → Addr → ℕ} {token token' src dst a : Addr} {n : ℕ}

theorem le_credit : balances token a ≤ credit balances token' dst n token a := by
  unfold credit
  by_cases htoken : token = token'
  · subst htoken
    rw [Function.update_self]
    by_cases ha : a = dst
    · subst ha
      rw [Function.update_self]
      exact Nat.le_add_right _ _
    · rw [Function.update_of_ne ha]
  · rw [Function.update_of_ne htoken]

theorem credit_self : credit balances token a n token a = balances token a + n := by
  simp [credit]

theorem debit_of_token_ne (h : token ≠ token') :
    debit balances token' src n token = balances token :=
  Function.update_of_ne h _ _

theorem debit_of_ne (h : a ≠ src) : debit balances token' src n token a = balances token a := by
  unfold debit
  by_cases htoken : token = token'
  · subst htoken
    rw [Function.update_self, Function.update_of_ne h]
  · rw [Function.update_of_ne htoken]

theorem debit_self : debit balances token a n token a = balances token a - n := by
  simp [debit]

theorem moveTokens_eq_some : moveTokens balances token src dst n = some balances' ↔
    n ≤ balances token src ∧ balances' = credit (debit balances token src n) token dst n := by
  unfold moveTokens
  split_ifs with h
  · simp [h, eq_comm]
  · simp [h]

/-- A move takes from the account at most its amount, and only of its token. -/
theorem move_from (h : moveTokens balances token' a dst n = some balances') :
    balances token a ≤ balances' token a + if token' = token then n else 0 := by
  obtain ⟨-, rfl⟩ := moveTokens_eq_some.1 h
  have hcredit : debit balances token' a n token a ≤
      credit (debit balances token' a n) token' dst n token a := le_credit
  by_cases htoken : token = token'
  · subst htoken
    rw [debit_self] at hcredit
    rw [if_pos rfl]
    omega
  · rw [debit_of_token_ne htoken] at hcredit
    omega

theorem move_to (token : Addr) (h : moveTokens balances token' src a n = some balances')
    (hsrc : src ≠ a) :
    balances token a + (if token' = token then n else 0) ≤ balances' token a := by
  obtain ⟨-, rfl⟩ := moveTokens_eq_some.1 h
  have hdebit : debit balances token' src n token a = balances token a := debit_of_ne (Ne.symm hsrc)
  by_cases htoken : token' = token
  · subst htoken
    rw [if_pos rfl, credit_self, hdebit]
  · rw [if_neg htoken]
    rw [Nat.add_zero, ← hdebit]
    exact le_credit

end Balances

end Cl8yDex

/-!
## What the pair answers

An answer pays, takes the deposit of a provider, or redeems LP tokens; nothing is paid once a hook
has run. After an accepted message the pair owes what it owed and what came in, less what its answer
moves.
-/

namespace Cl8yDex

open Outcome

section Answers

namespace CosmosMsg

/-- A message that moves no tokens. -/
def Idle : CosmosMsg → Prop
  | hook .. | deregisterWallet .. => True
  | _ => False

/-- A message that neither brings tokens nor burns any. -/
def Pays : CosmosMsg → Prop
  | transfer .. | hook .. | deregisterWallet .. | updateAdmin .. => True
  | _ => False

/-- A message that pulls tokens from others, or mints and burns LP tokens. -/
def Takes (lpToken self : Addr) : CosmosMsg → Prop
  | transferFrom _ owner recipient _ => owner ≠ self ∧ recipient = self
  | mint .. => True
  | burn token _ => token = lpToken
  | _ => False

end CosmosMsg

/-- The LP tokens that the messages burn beyond those that they mint to the pair before. -/
def burnNeed (lpToken self : Addr) : List CosmosMsg → ℕ
  | .burn token n :: l => (if token = lpToken then n else 0) + burnNeed lpToken self l
  | .mint token recipient n :: l =>
      burnNeed lpToken self l - if token = lpToken ∧ recipient = self then n else 0
  | _ :: l => burnNeed lpToken self l
  | [] => 0

/-- The answers of a pair: payments, the deposit of a provider, or the redemption of LP tokens. -/
inductive Answer (lpToken self : Addr) (held : ℕ) : List CosmosMsg → Prop
  | paying {l : List CosmosMsg} (h : ∀ m ∈ l, m.Pays) : Answer lpToken self held l
  | taking {l : List CosmosMsg} (h : ∀ m ∈ l, m.Takes lpToken self)
      (hburn : burnNeed lpToken self l ≤ held) : Answer lpToken self held l
  | redeeming {n : ℕ} {l : List CosmosMsg} (hn : n ≤ held) (h : ∀ m ∈ l, m.Pays) :
      Answer lpToken self held (.burn lpToken n :: l)

/-- Nothing is paid once a hook has run. -/
def HooksLast (l : List CosmosMsg) : Prop :=
  l.Pairwise fun m m' => (∃ a c, m = .hook a c) → m'.Idle

theorem HooksLast.of_calm {l : List CosmosMsg} (h : ∀ m ∈ l, ∀ a c, m ≠ .hook a c) :
    HooksLast l := by
  apply List.pairwise_of_forall_mem_list
  rintro m hm m' - ⟨a, c, rfl⟩
  exact absurd rfl (h _ hm a c)

theorem HooksLast.append {l r : List CosmosMsg} (hl : ∀ m ∈ l, ∀ a c, m ≠ .hook a c)
    (hr : ∀ m ∈ r, m.Idle) : HooksLast (l ++ r) := by
  apply List.pairwise_append.2
  refine ⟨HooksLast.of_calm hl, ?_, ?_⟩
  · exact List.pairwise_of_forall_mem_list fun _ _ m' hm' _ => hr m' hm'
  · exact fun _ _ m' hm' _ => hr m' hm'

theorem CosmosMsg.Idle.pays {m : CosmosMsg} (h : m.Idle) : m.Pays := by
  cases m with
  | hook a c => exact trivial
  | deregisterWallet r w e => exact trivial
  | _ => exact absurd h id

theorem CosmosMsg.Quiet.pays {m : CosmosMsg} (h : m.Quiet) : m.Pays := by
  cases m with
  | transfer t r n => exact trivial
  | deregisterWallet r w e => exact trivial
  | _ => exact absurd h id

theorem CosmosMsg.Quiet.not_hook {m : CosmosMsg} (h : m.Quiet) (a : Addr) (c : AfterSwap) :
    m ≠ .hook a c := by
  rintro rfl
  exact h

theorem pulled_of_pays {l : List CosmosMsg} (h : ∀ m ∈ l, m.Pays) (token : Addr) :
    totalOf (CosmosMsg.pulled token) l = 0 := by
  apply totalOf_eq_zero
  intro m hm
  have hpays := h m hm
  cases m with
  | transferFrom t o r n => exact absurd hpays id
  | _ => rfl

theorem amounts_of_idle {l : List CosmosMsg} (h : ∀ m ∈ l, m.Idle) (token : Addr) :
    totalOf (CosmosMsg.sent token) l = 0 ∧ totalOf (CosmosMsg.pulled token) l = 0 := by
  refine ⟨totalOf_eq_zero fun m hm => ?_, pulled_of_pays (fun m hm => (h m hm).pays) token⟩
  have hidle := h m hm
  cases m with
  | transfer t r n => exact absurd hidle id
  | _ => rfl

end Answers

section Served

variable {p : PairStorage} {A : AbsBook} {q : Querier} {env : Env} {sender : Addr}
  {msg : ExecuteMsg} {out : PairStorage × Response}

theorem swapTransfers_quiet {offerToken askToken receiver treasury : Addr}
    {payouts : List (Addr × ℕ)} {s : Settlement} {m : CosmosMsg}
    (h : m ∈ swapTransferMessages offerToken askToken receiver treasury payouts s) : m.Quiet := by
  rw [swapTransferMessages, List.mem_append, List.mem_append, List.mem_append] at h
  rcases h with ((hpayout | hfee) | hreturn) | htreasury
  · obtain ⟨payout, -, hm⟩ := List.mem_flatMap.1 hpayout
    exact quiet_maybeTransfer hm
  · obtain ⟨d, -, rfl⟩ := List.mem_map.1 hfee
    exact trivial
  · exact quiet_maybeTransfer hreturn
  · exact quiet_maybeTransfer htreasury

theorem QuietMessages.answer (h : QuietMessages out) (lpToken self : Addr) (held : ℕ) :
    Answer lpToken self held out.2.messages ∧ HooksLast out.2.messages :=
  ⟨.paying fun m hm => (h m hm).pays, .of_calm fun m hm => (h m hm).not_hook⟩

/-- The answer to an accepted message; LP tokens that came with it are there to be burnt. -/
theorem Served.answer (h : Served p A q env sender msg out) (hself : sender ≠ env.contract)
    {held : ℕ} (hheld : ∀ m, msg = .receive m → sender = p.pairInfo.lpToken → m.amount ≤ held) :
    Answer p.pairInfo.lpToken env.contract held out.2.messages ∧ HooksLast out.2.messages := by
  cases h with
  | @swapped amount user args deadline out bps parts h =>
      rw [h.messages, List.append_assoc]
      have hidle : ∀ m ∈ hookMessages env.contract user sender
          (p.pairInfo.escrowToken parts.side) amount parts.settlement
          parts.legs.pool.spreadAmount p.hooks ++ parts.deregisters, m.Idle := by
        intro m hm
        rcases List.mem_append.1 hm with hhook | hderegister
        · obtain ⟨a, -, rfl⟩ := List.mem_map.1 hhook
          exact trivial
        · have hd := h.deregisters m hderegister
          cases m with
          | deregisterWallet r w e => exact trivial
          | _ => exact absurd hd id
      constructor
      · apply Answer.paying
        intro m hm
        rcases List.mem_append.1 hm with htransfer | hrest
        · exact (swapTransfers_quiet htransfer).pays
        · exact (hidle m hrest).pays
      · exact .append (fun m hm => (swapTransfers_quiet hm).not_hook) hidle
  | provided d h =>
      rw [h.messages]
      constructor
      · apply Answer.taking
        · unfold burnMessages
          split_ifs <;> simp [CosmosMsg.Takes, hself]
        · unfold burnMessages
          split_ifs <;> simp [burnNeed]
      · apply HooksLast.of_calm
        unfold burnMessages
        split_ifs <;> simp
  | @withdrawn amount user minAssets out h =>
      rw [h.messages]
      constructor
      · apply Answer.redeeming (hheld _ rfl h.token)
        simp [CosmosMsg.Pays]
      · exact .of_calm (by simp)
  | booked h stored quiet => exact quiet.answer _ _ _
  | grown h => exact ⟨.paying (by simp [Response.plain]), .of_calm (by simp [Response.plain])⟩
  | swept h hexcess => exact ⟨.paying (by simp [CosmosMsg.Pays]), .of_calm (by simp)⟩
  | governed hfactory incoming stored messages =>
      constructor
      · apply Answer.paying
        intro m hm
        obtain ⟨admin, rfl⟩ := messages m hm
        exact trivial
      · apply HooksLast.of_calm
        rintro m hm a c rfl
        obtain ⟨admin, hadmin⟩ := messages _ hm
        cases hadmin

theorem owed_eq (hd : p.pairInfo.Distinct) (s : LimitOrderSide) :
    p.reserveForToken (p.pairInfo.escrowToken s) +
      p.pendingEscrowForToken (p.pairInfo.escrowToken s) = p.owed s := by
  cases s with
  | bid =>
      simp only [PairStorage.reserveForToken, PairStorage.pendingEscrowForToken,
        PairInfo.escrowToken, if_neg (Ne.symm hd.assets), if_true]
      rfl
  | ask =>
      simp only [PairStorage.reserveForToken, PairStorage.pendingEscrowForToken,
        PairInfo.escrowToken, if_true]
      rfl

theorem PairInfo.hasToken_escrowToken (info : PairInfo) (s : LimitOrderSide) :
    info.HasToken (info.escrowToken s) := by
  cases s with
  | bid => exact .inr (.inl rfl)
  | ask => exact .inl rfl

/-- What is owed after an accepted message, and what its answer pays, is covered by what was there
and what the answer pulls. -/
theorem Served.covered (h : Served p A q env sender msg out) (hrep : Represents p.book A)
    (hd : p.pairInfo.Distinct) {balances : Addr → Addr → ℕ}
    (hq : AnswersBalances p.pairInfo env.contract balances q)
    (hheld : ∀ s, p.owed s + msg.incoming p.pairInfo sender s ≤
      balances (p.pairInfo.escrowToken s) env.contract) (s : LimitOrderSide) :
    out.1.owed s + totalOf (CosmosMsg.sent (p.pairInfo.escrowToken s)) out.2.messages ≤
      balances (p.pairInfo.escrowToken s) env.contract +
        totalOf (CosmosMsg.pulled (p.pairInfo.escrowToken s)) out.2.messages := by
  have hin := hheld s
  rcases h.conserves hrep hd with hcons | ⟨token, recipient, rfl⟩
  · have hs := hcons s
    omega
  · cases h with
    | booked h stored quiet =>
        obtain ⟨_, _, -, hcons⟩ := h
        have hs := hcons hd s
        omega
    | @swept _ _ balance h hexcess =>
        have howed := owed_eq hd s
        by_cases htoken : token = p.pairInfo.escrowToken s
        · subst htoken
          have hbalance := hq _ (PairInfo.hasToken_escrowToken _ s) _ h
          simp only [totalOf_cons, totalOf_nil, CosmosMsg.sent, if_true, CosmosMsg.pulled]
          omega
        · simp only [totalOf_cons, totalOf_nil, CosmosMsg.sent, if_neg htoken, CosmosMsg.pulled]
          omega
    | governed hfactory incoming stored messages =>
        obtain ⟨h1, h2⟩ := amounts_of_updateAdmin messages (p.pairInfo.escrowToken s)
        have howed : out.1.owed s = p.owed s := by
          rw [stored]
          rfl
        omega

end Served

section Messages

variable {self : Addr} {balances' : Addr → Addr → ℕ}

/-- One message moves the pair's balance of a token by what it sends and pulls. -/
theorem settle_amounts {m : CosmosMsg} {balances : Addr → Addr → ℕ} {lpToken token : Addr}
    (hkind : m.Pays ∨ m.Takes lpToken self) (htoken : token ≠ lpToken)
    (h : m.settle self balances = some balances') :
    balances token self + m.pulled token ≤ balances' token self + m.sent token := by
  cases m with
  | transfer t r n => exact move_from h
  | transferFrom t o r n =>
      obtain hpays | ⟨howner, rfl⟩ := hkind
      · exact absurd hpays id
      · exact move_to _ h howner
  | mint t r n =>
      cases h
      exact Nat.add_le_add_right le_credit 0
  | burn t n =>
      obtain hpays | rfl := hkind
      · exact absurd hpays id
      · simp only [CosmosMsg.settle] at h
        split_ifs at h
        cases h
        rw [debit_of_token_ne htoken]
        exact le_rfl
  | hook a c => cases h
  | deregisterWallet r wallet epoch =>
      cases h
      exact le_rfl
  | updateAdmin c admin =>
      cases h
      exact le_rfl

/-- The rest of an answer after its first message. -/
theorem Answer.tail {m : CosmosMsg} {l : List CosmosMsg} {balances : Addr → Addr → ℕ}
    {lpToken : Addr} (h : Answer lpToken self (balances lpToken self) (m :: l))
    (hsettle : m.settle self balances = some balances') :
    Answer lpToken self (balances' lpToken self) l := by
  cases h with
  | paying hpays => exact .paying fun m' hm' => hpays m' (List.mem_cons_of_mem m hm')
  | redeeming hn hpays => exact .paying hpays
  | taking htakes hburn =>
      apply Answer.taking fun m' hm' => htakes m' (List.mem_cons_of_mem m hm')
      have htake := htakes m (List.mem_cons_self ..)
      cases m with
      | transferFrom t o r n =>
          obtain ⟨howner, rfl⟩ := htake
          have hmove := move_to lpToken hsettle howner
          change burnNeed lpToken r l ≤ _ at hburn
          omega
      | mint t r n =>
          cases hsettle
          rw [burnNeed] at hburn
          have hcredit : balances lpToken self ≤ credit balances t r n lpToken self := le_credit
          split_ifs at hburn with hmint
          · obtain ⟨rfl, rfl⟩ := hmint
            rw [credit_self] at hcredit ⊢
            omega
          · omega
      | burn t n =>
          obtain rfl : t = lpToken := htake
          simp only [CosmosMsg.settle] at hsettle
          split_ifs at hsettle
          cases hsettle
          rw [burnNeed, if_pos rfl] at hburn
          rw [debit_self]
          omega
      | _ => exact absurd htake id

theorem Answer.kind {m : CosmosMsg} {l : List CosmosMsg} {lpToken : Addr} {held : ℕ}
    (h : Answer lpToken self held (m :: l)) : m.Pays ∨ m.Takes lpToken self := by
  cases h with
  | paying hpays => exact .inl (hpays m (List.mem_cons_self ..))
  | taking htakes => exact .inr (htakes m (List.mem_cons_self ..))
  | redeeming => exact .inr rfl

end Messages

end Cl8yDex
