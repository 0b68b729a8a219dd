import Cl8yDex.SettingsKept

/-!
# Runs of the settings

A token is created, and then its features are unlocked, its settings are changed, its sister is
bound and its balances move. Only a batch with sinks replaces the stored sinks, so the distribution
can begin to fail only where such a batch, or the creation itself, draws on a sister that is not
bound.
-/

namespace Cl8yDex.CommunityTax

open Outcome

section Runs

variable {ans : Answers} {env : Env} {msg : InstantiateMsg} {base : BaseToken} {sender : Addr}
  {t t' : Token}

/-- A message of anyone: an invoice, a binding, or a call that moves balances. -/
inductive Action
  | receive (ans : Answers) (infoSender sender : Addr) (amount : ℕ) (hook : InvoiceHookMsg)
  | bindAutolp (ans : Answers) (sender autolp : Addr)
  | call (host : Host) (env : Env) (sender : Addr) (msg : ExecuteMsg)

/-- A message that is refused leaves the token as it was. -/
def act (t : Token) : Action → Token
  | .receive ans infoSender sender amount hook =>
      match executeReceive ans t infoSender sender amount hook with
      | .ok out => out.1
      | .error _ => t
  | .bindAutolp ans sender autolp =>
      match executeBindAutolp ans t sender autolp with
      | .ok t' => t'
      | .error _ => t
  | .call host env sender msg => { t with storage := transact t.storage host env sender msg }

/-- Sinks draw on a liquidity sister only if one is bound. -/
def Backs (sinks : Option (List Sink)) (autolp : Option Addr) : Prop :=
  ∀ list, sinks = some list → DrawsAutolp (list.map Sink.part) → autolp.isSome

/-- An accepted batch of settings brings only sinks that the token backs. -/
def Action.Backed (t : Token) : Action → Prop
  | .receive ans infoSender sender amount (.updateSettings batch) =>
      ∀ out, executeReceive ans t infoSender sender amount (.updateSettings batch) = .ok out →
        Backs batch.sinks t.storage.config.autolp
  | _ => True

theorem Replaces.intact {field : Option (List Sink)} {s s' : Storage}
    (h : Replaces ans field s s') (hs : Intact s) : Intact s' := by
  cases field with
  | none => exact Kept.intact h hs
  | some sinks =>
      obtain ⟨hfeatures, -, hunlocked, stored, hstored, hsinks⟩ := h
      constructor
      · intro list hlist
        rw [hsinks] at hlist
        cases hlist
        exact (validateSinks_spec hstored).1
      · intro list _
        rw [hfeatures]
        exact hunlocked

theorem Replaces.bound {field : Option (List Sink)} {s s' : Storage}
    (h : Replaces ans field s s') (hs : Bound s) : Bound s' ↔ Backs field s.config.autolp := by
  cases field with
  | none =>
      constructor
      · intro _ list hlist
        cases hlist
      · intro _
        exact (Kept.bound h).2 hs
  | some sinks =>
      obtain ⟨-, hautolp, -, stored, hstored, hsinks⟩ := h
      have hparts := (validateSinks_spec hstored).2
      constructor
      · intro hbound list hlist hdraws
        cases hlist
        rw [← hautolp]
        apply hbound stored hsinks
        rw [hparts]
        exact hdraws
      · intro hbacks list hlist hdraws
        rw [hsinks] at hlist
        cases hlist
        rw [hautolp]
        apply hbacks sinks rfl
        rw [← hparts]
        exact hdraws

theorem enable_storage (t : Token) (sku : Sku) : (t.enable sku).storage.sinks = t.storage.sinks ∧
    (t.enable sku).storage.config = t.storage.config ∧
    (t.storage.features.splitRouter = true →
      (t.enable sku).storage.features.splitRouter = true) := by
  cases sku <;> exact ⟨rfl, rfl, by simp [Token.enable, Token.withFeatures]⟩

theorem defaultGuards_kept (t : Token) (sku : Sku) :
    Kept t.storage (defaultGuards t sku).storage := by
  unfold defaultGuards
  split_ifs
  · exact ⟨rfl, rfl, rfl⟩
  · exact Kept.refl _

theorem enableFeature_spec {sku : Sku} {amount : ℕ} {out : Token × List InvoiceOutgoing}
    (h : enableFeature t sku amount = .ok out) :
    (Intact t.storage → Intact out.1.storage) ∧ (Bound out.1.storage ↔ Bound t.storage) := by
  obtain ⟨_, -, h⟩ := bind_eq_ok.1 h
  obtain ⟨_, -, h⟩ := bind_eq_ok.1 h
  cases h
  obtain ⟨hsinks, hconfig, hunlocked⟩ := enable_storage t sku
  have hkept := defaultGuards_kept (t.enable sku) sku
  constructor
  · intro hs
    apply hkept.intact
    constructor
    · rw [hsinks]
      exact hs.validated
    · rw [hsinks]
      exact fun list hlist => hunlocked (hs.unlocked list hlist)
  · rw [hkept.bound]
    unfold Bound
    rw [hsinks, hconfig]

theorem updateSettings_replaces {batch : SettingsBatch} {amount : ℕ}
    {out : Token × List InvoiceOutgoing} (h : updateSettings ans t batch amount = .ok out) :
    Replaces ans batch.sinks t.storage out.1.storage := by
  obtain ⟨_, -, h⟩ := bind_eq_ok.1 h
  obtain ⟨applied, happlied, h⟩ := bind_eq_ok.1 h
  obtain ⟨_, -, h⟩ := bind_eq_ok.1 h
  cases h
  exact applyBatch_replaces happlied

/-- An accepted invoice is an unlock or a batch of settings. -/
theorem executeReceive_eq_ok {infoSender payer : Addr} {amount : ℕ} {hook : InvoiceHookMsg}
    {out : Token × List InvoiceOutgoing}
    (h : executeReceive ans t infoSender payer amount hook = .ok out) :
    match hook with
    | .enableFeature sku => enableFeature t sku amount = .ok out
    | .updateSettings batch => updateSettings ans t batch amount = .ok out := by
  obtain ⟨_, -, h⟩ := bind_eq_ok.1 h
  obtain ⟨_, -, h⟩ := bind_eq_ok.1 h
  obtain ⟨_, -, h⟩ := bind_eq_ok.1 h
  obtain ⟨_, -, h⟩ := bind_eq_ok.1 h
  cases hook with
  | enableFeature sku => exact h
  | updateSettings batch => exact h

theorem executeBindAutolp_spec {autolp : Addr}
    (h : executeBindAutolp ans t sender autolp = .ok t') :
    t'.storage.sinks = t.storage.sinks ∧ t'.storage.features = t.storage.features ∧
      t'.storage.config.autolp = some autolp := by
  obtain ⟨_, -, h⟩ := bind_eq_ok.1 h
  obtain ⟨launcher, -, h⟩ := bind_eq_ok.1 h
  obtain ⟨_, -, h⟩ := bind_eq_ok.1 h
  obtain ⟨_, -, h⟩ := bind_eq_ok.1 h
  obtain ⟨bound, hbound, h⟩ := bind_eq_ok.1 h
  cases h
  unfold Answers.addrValidate at hbound
  split_ifs at hbound
  cases hbound
  exact ⟨rfl, rfl, rfl⟩

/-- One message keeps the stored sinks intact, and unbinds them only by a batch it does not back. -/
theorem act_spec (a : Action) (hs : Intact t.storage) :
    Intact (act t a).storage ∧ (Bound t.storage → (Bound (act t a).storage ↔ a.Backed t)) := by
  cases a with
  | receive ans infoSender payer amount hook =>
      cases h : executeReceive ans t infoSender payer amount hook with
      | error e =>
          have hact : act t (.receive ans infoSender payer amount hook) = t := by
            rw [act, h]
          rw [hact]
          refine ⟨hs, fun hbound => ⟨fun _ => ?_, fun _ => hbound⟩⟩
          cases hook with
          | enableFeature sku => trivial
          | updateSettings batch =>
              intro out hout
              rw [h] at hout
              cases hout
      | ok out =>
          have hact : act t (.receive ans infoSender payer amount hook) = out.1 := by
            rw [act, h]
          rw [hact]
          have haccepted := executeReceive_eq_ok h
          cases hook with
          | enableFeature sku =>
              obtain ⟨hintact, hbound⟩ := enableFeature_spec haccepted
              exact ⟨hintact hs, fun hb => ⟨fun _ => trivial, fun _ => hbound.2 hb⟩⟩
          | updateSettings batch =>
              have hreplaces := updateSettings_replaces haccepted
              refine ⟨hreplaces.intact hs, fun hb => (hreplaces.bound hb).trans ?_⟩
              constructor
              · intro hbacks _ _
                exact hbacks
              · intro hbacked
                exact hbacked out h
  | bindAutolp ans sender autolp =>
      cases h : executeBindAutolp ans t sender autolp with
      | error e =>
          have hact : act t (.bindAutolp ans sender autolp) = t := by
            rw [act, h]
          rw [hact]
          exact ⟨hs, fun hbound => ⟨fun _ => trivial, fun _ => hbound⟩⟩
      | ok t' =>
          have hact : act t (.bindAutolp ans sender autolp) = t' := by
            rw [act, h]
          rw [hact]
          obtain ⟨hsinks, hfeatures, hautolp⟩ := executeBindAutolp_spec h
          constructor
          · constructor
            · rw [hsinks]
              exact hs.validated
            · rw [hsinks, hfeatures]
              exact hs.unlocked
          · intro _
            refine ⟨fun _ => trivial, fun _ _ _ _ => ?_⟩
            rw [hautolp]
            rfl
  | call host env sender msg =>
      have hkept : Kept t.storage (act t (.call host env sender msg)).storage := transact_kept msg
      exact ⟨hkept.intact hs, fun hb => ⟨fun _ => trivial, fun _ => hkept.bound.2 hb⟩⟩

theorem writeExempts_kept {self : Addr} {s s' : Storage} {addrs : List Addr}
    (h : addrs.foldlM (writeExempt ans self) s = .ok s') : Kept s s' := by
  induction addrs generalizing s with
  | nil =>
      cases h
      exact Kept.refl _
  | cons raw addrs ih =>
      rw [List.foldlM_cons] at h
      obtain ⟨mid, hmid, h⟩ := bind_eq_ok.1 h
      obtain ⟨a, -, hmid⟩ := bind_eq_ok.1 hmid
      obtain ⟨_, -, hmid⟩ := bind_eq_ok.1 hmid
      cases hmid
      have hone : Kept s { s with managerExempt := Function.update s.managerExempt a true } :=
        ⟨rfl, rfl, rfl⟩
      exact hone.trans (ih h)

theorem writeInitialExempt_kept {self : Addr} {s s' : Storage}
    (h : writeInitialExempt ans msg self s = .ok s') : Kept s s' := by
  unfold writeInitialExempt at h
  split_ifs at h
  · cases hexempt : msg.initialExempt with
    | none =>
        rw [hexempt] at h
        cases h
        exact Kept.refl _
    | some addrs =>
        rw [hexempt] at h
        obtain ⟨_, -, h⟩ := bind_eq_ok.1 h
        exact writeExempts_kept h
  · cases h
    exact Kept.refl _

theorem validateOpt_eq_ok {a b : Option Addr} (h : ans.validateOpt a = .ok b) : b = a := by
  cases a with
  | none =>
      cases h
      rfl
  | some a =>
      obtain ⟨c, hc, h⟩ := bind_eq_ok.1 h
      unfold Answers.addrValidate at hc
      split_ifs at hc
      cases hc
      cases h
      rfl

theorem initialSinks_spec {stored : Option (List StoredSink)}
    (hpayload : rejectSkuPayloadWithoutFeature msg = .ok ())
    (h : initialSinks ans msg = .ok stored) :
    (msg.sinks = none ∧ stored = none) ∨
      ∃ sinks list, msg.sinks = some sinks ∧ stored = some list ∧ msg.buys .splitRouter = true ∧
        validateSinks ans.addrValidate sinks = .ok list := by
  obtain ⟨_, -, hpayload⟩ := bind_eq_ok.1 hpayload
  obtain ⟨_, hsplit, -⟩ := bind_eq_ok.1 hpayload
  rw [rejectPayload, ensure_eq_ok] at hsplit
  unfold initialSinks at h
  cases hsinks : msg.sinks with
  | none =>
      rw [hsinks] at h
      cases h
      exact Or.inl ⟨rfl, rfl⟩
  | some sinks =>
      have hbuys : msg.buys .splitRouter = true := by
        rw [hsinks] at hsplit
        simpa using hsplit
      rw [hsinks] at h
      dsimp only at h
      rw [if_pos hbuys] at h
      obtain ⟨list, hlist, h⟩ := bind_eq_ok.1 h
      cases h
      exact Or.inr ⟨sinks, list, rfl, rfl, hbuys, hlist⟩

theorem instantiate_spec (h : instantiate ans env msg base sender = .ok t) :
    Intact t.storage ∧ (Bound t.storage ↔ Backs msg.sinks msg.autolp) := by
  obtain ⟨launcher, -, h⟩ := bind_eq_ok.1 h
  obtain ⟨_, -, h⟩ := bind_eq_ok.1 h
  obtain ⟨_, -, h⟩ := bind_eq_ok.1 h
  obtain ⟨_, -, h⟩ := bind_eq_ok.1 h
  obtain ⟨_, -, h⟩ := bind_eq_ok.1 h
  obtain ⟨_, -, h⟩ := bind_eq_ok.1 h
  obtain ⟨_, -, h⟩ := bind_eq_ok.1 h
  obtain ⟨_, -, h⟩ := bind_eq_ok.1 h
  obtain ⟨_, hpayload, h⟩ := bind_eq_ok.1 h
  obtain ⟨_, -, h⟩ := bind_eq_ok.1 h
  obtain ⟨manager, -, h⟩ := bind_eq_ok.1 h
  obtain ⟨token, -, h⟩ := bind_eq_ok.1 h
  obtain ⟨treasury, -, h⟩ := bind_eq_ok.1 h
  obtain ⟨factory, -, h⟩ := bind_eq_ok.1 h
  obtain ⟨ust1, -, h⟩ := bind_eq_ok.1 h
  obtain ⟨cmmTreasury, -, h⟩ := bind_eq_ok.1 h
  obtain ⟨router, -, h⟩ := bind_eq_ok.1 h
  obtain ⟨autolp, hautolp, h⟩ := bind_eq_ok.1 h
  obtain ⟨stored, hstored, h⟩ := bind_eq_ok.1 h
  obtain ⟨guards, -, h⟩ := bind_eq_ok.1 h
  obtain ⟨s, hs, h⟩ := bind_eq_ok.1 h
  cases h
  cases validateOpt_eq_ok hautolp
  have hkept := writeInitialExempt_kept hs
  have hsinks : s.sinks = stored := hkept.sinks
  have hunlocked : s.features.splitRouter = msg.buys .splitRouter := by
    rw [hkept.features]
    rfl
  have hbound : s.config.autolp = msg.autolp := hkept.autolp
  rcases initialSinks_spec hpayload hstored with
    ⟨hnone, rfl⟩ | ⟨sinks, list, hsome, rfl, hbuys, hlist⟩
  · refine ⟨⟨?_, ?_⟩, ?_, ?_⟩
    · intro list hlist
      rw [hsinks] at hlist
      cases hlist
    · intro list hlist
      rw [hsinks] at hlist
      cases hlist
    · intro _ list hlist
      rw [hnone] at hlist
      cases hlist
    · intro _ list hlist
      rw [hsinks] at hlist
      cases hlist
  · obtain ⟨hvalidated, hparts⟩ := validateSinks_spec hlist
    refine ⟨⟨?_, ?_⟩, ?_, ?_⟩
    · intro kept hkept'
      rw [hsinks] at hkept'
      cases hkept'
      exact hvalidated
    · intro _ _
      rw [hunlocked]
      exact hbuys
    · intro hb given hgiven hdraws
      rw [hsome] at hgiven
      cases hgiven
      rw [← hbound]
      apply hb list hsinks
      rw [hparts]
      exact hdraws
    · intro hb kept hkept' hdraws
      rw [hsinks] at hkept'
      cases hkept'
      rw [hbound]
      apply hb sinks hsome
      rw [← hparts]
      exact hdraws

theorem run_intact (acts : List Action) (hs : Intact t.storage) :
    Intact (acts.foldl act t).storage := by
  induction acts generalizing t with
  | nil => exact hs
  | cons a acts ih => exact ih (act_spec a hs).1

/-- From its creation on, in every state of a run, the token can distribute every tax, exactly when
the sinks of the creation and of every accepted batch draw on a sister only if one is bound. -/
theorem distributes_throughout_iff (h : instantiate ans env msg base sender = .ok t)
    (acts : List Action) :
    (∀ before, before <+: acts → Distributes (before.foldl act t).storage) ↔
      Backs msg.sinks msg.autolp ∧
        ∀ before a, before ++ [a] <+: acts → a.Backed (before.foldl act t) := by
  obtain ⟨hintact, hcreated⟩ := instantiate_spec h
  have hall (before : List Action) : Distributes (before.foldl act t).storage ↔
      Bound (before.foldl act t).storage :=
    (run_intact before hintact).distributes_iff
  have hstep (before : List Action) (a : Action) (hb : Bound (before.foldl act t).storage) :
      Bound ((before ++ [a]).foldl act t).storage ↔ a.Backed (before.foldl act t) := by
    rw [List.foldl_append]
    exact (act_spec a (run_intact before hintact)).2 hb
  constructor
  · intro hruns
    constructor
    · rw [← hcreated]
      exact (hall []).1 (hruns [] List.nil_prefix)
    · intro before a hpre
      have hfirst := (hall before).1 (hruns before ((List.prefix_append _ _).trans hpre))
      exact (hstep before a hfirst).1 ((hall _).1 (hruns _ hpre))
  · rintro ⟨hbacks, hbacked⟩ before hpre
    rw [hall]
    induction before using List.reverseRecOn with
    | nil => exact hcreated.2 hbacks
    | append_singleton before a ih =>
        have hfirst := ih ((List.prefix_append _ _).trans hpre)
        exact (hstep before a hfirst).2 (hbacked before a hpre)

end Runs

section Samples

def sampleAnswers : Answers := ⟨fun _ => true, fun _ => none⟩

/-- The manager 3 starts the token 9 with the tax split; the router 5 holds the supply. -/
def sampleCreation : InstantiateMsg where
  name := "Demo"
  symbol := "DEMO"
  decimals := 6
  initialBalances := [(5, 1000)]
  manager := 3
  treasury := 8
  buyBps := 200
  sellBps := 100
  maxBuyBps := 200
  maxSellBps := 100
  maxTransferBps := 0
  factory := 2
  router := some 5
  ust1 := 4
  cmmTreasury := 6
  features := [.splitRouter, .autoV2Lp]
  mint := none
  transferBps := none
  sinks := none
  autolp := none
  launcher := some 10
  launchGuards := none
  initialExempt := none

def sampleBase : BaseToken := fun _ => some (only 5 1000, ⟨1000, none⟩)

/-- Half of the tax to the treasury, half to the liquidity sister. -/
def sisterBatch : SettingsBatch :=
  ⟨none, none, none, none, some [⟨.treasury, none, 5000⟩, ⟨.autoLp, none, 5000⟩], none, none, none,
    none, none, none⟩

def payBatch : Action := .receive sampleAnswers 4 3 50000000 (.updateSettings sisterBatch)

def bindSister : Action := .bindAutolp sampleAnswers 10 11

/-- The manager pays for a batch while no sister is bound: it is accepted, and the router cannot
deliver what wallet 7 has bought any more. -/
theorem accepted_sinks_block_transfers : ∃ t,
    instantiate sampleAnswers ⟨1, 1, 9⟩ sampleCreation sampleBase 10 = .ok t ∧
      sinkCredits (act t payBatch).storage 1 = .error (.std "AutoLP sink but autolp unset") ∧
      Meets (execute t.storage sampleHost ⟨1, 1, 9⟩ 5 (.transfer 7 500)) (fun _ => True)
        (fun _ => False) ∧
      Meets (execute (act t payBatch).storage sampleHost ⟨1, 1, 9⟩ 5 (.transfer 7 500))
        (fun _ => False) (fun e => e = .std "AutoLP sink but autolp unset") := by
  have h : Meets (instantiate sampleAnswers ⟨1, 1, 9⟩ sampleCreation sampleBase 10) (fun t =>
      sinkCredits (act t payBatch).storage 1 = .error (.std "AutoLP sink but autolp unset") ∧
      Meets (execute t.storage sampleHost ⟨1, 1, 9⟩ 5 (.transfer 7 500)) (fun _ => True)
        (fun _ => False) ∧
      Meets (execute (act t payBatch).storage sampleHost ⟨1, 1, 9⟩ 5 (.transfer 7 500))
        (fun _ => False) (fun e => e = .std "AutoLP sink but autolp unset")) (fun _ => False) := by
    decide +kernel
  exact h.accepted

theorem eq_of_concat_prefix_pair {α : Type} {x y a : α} {before : List α}
    (h : before ++ [a] <+: [x, y]) : (before = [] ∧ a = x) ∨ (before = [x] ∧ a = y) := by
  match before, h with
  | [], h => exact Or.inl ⟨rfl, (List.cons_prefix_cons.1 h).1⟩
  | [b], h =>
      obtain ⟨rfl, hrest⟩ := List.cons_prefix_cons.1 h
      exact Or.inr ⟨rfl, (List.cons_prefix_cons.1 hrest).1⟩
  | b :: c :: before, h =>
      have hlength := h.length_le
      simp at hlength

/-- Once the launcher has bound a sister the same batch is backed. -/
theorem distributes_throughout_iff_sample : ∃ t,
    instantiate sampleAnswers ⟨1, 1, 9⟩ sampleCreation sampleBase 10 = .ok t ∧
      ((act (act t bindSister) payBatch).storage.sinks.isSome) ∧
      ∀ before, before <+: [bindSister, payBatch] → Distributes (before.foldl act t).storage := by
  have h : Meets (instantiate sampleAnswers ⟨1, 1, 9⟩ sampleCreation sampleBase 10) (fun t =>
      (act (act t bindSister) payBatch).storage.sinks.isSome ∧
        (act t bindSister).storage.config.autolp.isSome) (fun _ => False) := by
    decide +kernel
  obtain ⟨t, ht, hsinks, hautolp⟩ := h.accepted
  refine ⟨t, ht, hsinks, ?_⟩
  apply (distributes_throughout_iff ht [bindSister, payBatch]).2
  constructor
  · intro list hlist
    cases hlist
  · intro before a hpre
    rcases eq_of_concat_prefix_pair hpre with ⟨rfl, rfl⟩ | ⟨rfl, rfl⟩
    · trivial
    · intro out _ list _ _
      exact hautolp

end Samples

end Cl8yDex.CommunityTax
