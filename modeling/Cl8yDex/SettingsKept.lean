import Cl8yDex.SinkDistribution
import Cl8yDex.TaxConservation

/-!
# What a message keeps of the distribution

Transfers, unlocks and most settings leave the stored sinks, the features and the bound sister as
they are. A batch replaces the stored sinks only by sinks that it has validated.
-/

namespace Cl8yDex.CommunityTax

open Outcome

section Kept

variable {s s' : Storage} {host : Host} {env : Env} {sender : Addr}

/-- Nothing that the distribution resolves its sinks against has changed. -/
structure Kept (s s' : Storage) : Prop where
  sinks : s'.sinks = s.sinks
  features : s'.features = s.features
  autolp : s'.config.autolp = s.config.autolp

theorem Kept.refl (s : Storage) : Kept s s := ⟨rfl, rfl, rfl⟩

theorem Kept.trans {s'' : Storage} (h : Kept s s') (h' : Kept s' s'') : Kept s s'' :=
  ⟨h'.sinks.trans h.sinks, h'.features.trans h.features, h'.autolp.trans h.autolp⟩

theorem Kept.intact (h : Kept s s') (hs : Intact s) : Intact s' where
  validated := by
    rw [h.sinks]
    exact hs.validated
  unlocked := by
    rw [h.sinks, h.features]
    exact hs.unlocked

theorem Kept.bound (h : Kept s s') : Bound s' ↔ Bound s := by
  unfold Bound
  rw [h.sinks, h.autolp]

theorem applyTransfer_kept {src dst : Addr} {amount : ℕ} {sendMsg : Option HookMsg}
    {out : Storage × TransferReport}
    (h : applyTransfer s host env src dst amount sendMsg = .ok out) : Kept s out.1 := by
  obtain ⟨c, -, h⟩ := bind_eq_ok.1 h
  obtain ⟨tax, -, h⟩ := bind_eq_ok.1 h
  obtain ⟨moved, -, h⟩ := bind_eq_ok.1 h
  obtain ⟨after, -, h⟩ := bind_eq_ok.1 h
  obtain ⟨toBal, -, h⟩ := bind_eq_ok.1 h
  obtain ⟨_, -, h⟩ := bind_eq_ok.1 h
  obtain ⟨balances, -, h⟩ := bind_eq_ok.1 h
  obtain ⟨credits, -, h⟩ := bind_eq_ok.1 h
  obtain ⟨_, -, h⟩ := bind_eq_ok.1 h
  obtain ⟨final, -, h⟩ := bind_eq_ok.1 h
  obtain ⟨info, -, h⟩ := bind_eq_ok.1 h
  cases h
  exact ⟨rfl, rfl, rfl⟩

theorem burnTokens_kept {owner : Addr} {amount : ℕ} (h : burnTokens s owner amount = .ok s') :
    Kept s s' := by
  obtain ⟨balances, -, h⟩ := bind_eq_ok.1 h
  obtain ⟨supply, -, h⟩ := bind_eq_ok.1 h
  cases h
  exact ⟨rfl, rfl, rfl⟩

theorem deductAllowance_kept {owner : Addr} {amount : ℕ}
    (h : deductAllowance s host env sender owner amount = .ok s') : Kept s s' := by
  obtain ⟨allowances, rfl⟩ := deductAllowance_eq_ok h
  exact ⟨rfl, rfl, rfl⟩

theorem executeMint_kept {recipient : Addr} {amount : ℕ}
    (h : executeMint s host sender recipient amount = .ok s') : Kept s s' := by
  obtain ⟨-, -, h⟩ := bind_eq_ok.1 h
  obtain ⟨-, -, h⟩ := bind_eq_ok.1 h
  obtain ⟨rcpt, -, h⟩ := bind_eq_ok.1 h
  obtain ⟨mint, -, h⟩ := bind_eq_ok.1 h
  obtain ⟨-, -, h⟩ := bind_eq_ok.1 h
  obtain ⟨-, -, h⟩ := bind_eq_ok.1 h
  obtain ⟨balances, -, h⟩ := bind_eq_ok.1 h
  obtain ⟨supply, -, h⟩ := bind_eq_ok.1 h
  cases h
  exact ⟨rfl, rfl, rfl⟩

theorem executeRouteTransfer_kept {slot : ℕ} {recipient : Addr} {amount : ℕ}
    (h : executeRouteTransfer s host env sender slot recipient amount = .ok s') : Kept s s' := by
  obtain ⟨-, -, h⟩ := bind_eq_ok.1 h
  obtain ⟨dst, -, h⟩ := bind_eq_ok.1 h
  obtain ⟨ctx, -, h⟩ := bind_eq_ok.1 h
  obtain ⟨-, -, h⟩ := bind_eq_ok.1 h
  obtain ⟨toBal, -, h⟩ := bind_eq_ok.1 h
  obtain ⟨-, -, h⟩ := bind_eq_ok.1 h
  obtain ⟨record, -, h⟩ := bind_eq_ok.1 h
  obtain ⟨debited, -, h⟩ := bind_eq_ok.1 h
  obtain ⟨credited, -, h⟩ := bind_eq_ok.1 h
  cases h
  exact ⟨rfl, rfl, rfl⟩

theorem rotate_kept {router : Option Addr} {codeId : Option ℕ} {checksum : Option (List ℕ)}
    (h : rotate s host env sender router codeId checksum = .ok s') : Kept s s' := by
  obtain ⟨contract, -, h⟩ := bind_eq_ok.1 h
  obtain ⟨authority, -, h⟩ := bind_eq_ok.1 h
  obtain ⟨candidate, -, h⟩ := bind_eq_ok.1 h
  obtain ⟨record, -, h⟩ := bind_eq_ok.1 h
  cases h
  exact ⟨rfl, rfl, rfl⟩

theorem execute_kept {msg : ExecuteMsg} {out : Storage × Response}
    (h : execute s host env sender msg = .ok out) : Kept s out.1 := by
  cases msg with
  | transfer recipient amount =>
      obtain ⟨dst, -, h⟩ := bind_eq_ok.1 h
      obtain ⟨moved, hmoved, h⟩ := bind_eq_ok.1 h
      cases h
      exact applyTransfer_kept hmoved
  | send contract amount msg =>
      obtain ⟨dst, -, h⟩ := bind_eq_ok.1 h
      obtain ⟨moved, hmoved, h⟩ := bind_eq_ok.1 h
      cases h
      exact applyTransfer_kept hmoved
  | transferFrom owner recipient amount =>
      obtain ⟨src, -, h⟩ := bind_eq_ok.1 h
      obtain ⟨dst, -, h⟩ := bind_eq_ok.1 h
      obtain ⟨s₁, hs₁, h⟩ := bind_eq_ok.1 h
      obtain ⟨moved, hmoved, h⟩ := bind_eq_ok.1 h
      cases h
      exact (deductAllowance_kept hs₁).trans (applyTransfer_kept hmoved)
  | sendFrom owner contract amount msg =>
      obtain ⟨src, -, h⟩ := bind_eq_ok.1 h
      obtain ⟨dst, -, h⟩ := bind_eq_ok.1 h
      obtain ⟨debit, -, h⟩ := bind_eq_ok.1 h
      obtain ⟨s₁, hs₁, h⟩ := bind_eq_ok.1 h
      obtain ⟨moved, hmoved, h⟩ := bind_eq_ok.1 h
      cases h
      exact (deductAllowance_kept hs₁).trans (applyTransfer_kept hmoved)
  | burn amount => exact burnTokens_kept (plain_eq_ok h)
  | burnFrom owner amount =>
      obtain ⟨src, -, h⟩ := bind_eq_ok.1 (plain_eq_ok h)
      obtain ⟨s₁, hs₁, h⟩ := bind_eq_ok.1 h
      exact (deductAllowance_kept hs₁).trans (burnTokens_kept h)
  | mint recipient amount => exact executeMint_kept (plain_eq_ok h)
  | routeTransfer slot recipient amount => exact executeRouteTransfer_kept (plain_eq_ok h)
  | rotateRouter router codeId checksum => exact rotate_kept (plain_eq_ok h)

theorem transact_kept (msg : ExecuteMsg) : Kept s (transact s host env sender msg) := by
  cases h : execute s host env sender msg with
  | error e =>
      rw [transact_of_error h]
      exact Kept.refl s
  | ok out =>
      rw [transact_of_ok h]
      exact execute_kept h

end Kept

section Drafts

variable {ans : Answers} {d d' : Draft}

/-- The parts that a batch writes, apart from its sinks. -/
def Draft.Keeps (d d' : Draft) : Prop := Kept d.token.storage d'.token.storage

theorem onField_keeps {α : Type} {field : Option α} {f : α → Draft → Except SettingsError Draft}
    (hf : ∀ value d d', f value d = .ok d' → d.Keeps d') (h : onField field f d = .ok d') :
    d.Keeps d' := by
  cases field with
  | none =>
      cases h
      exact Kept.refl _
  | some value => exact hf value d d' h

theorem foldlM_keeps {α : Type} {f : Draft → α → Except SettingsError Draft} {values : List α}
    (hf : ∀ value d d', f d value = .ok d' → d.Keeps d') (h : values.foldlM f d = .ok d') :
    d.Keeps d' := by
  induction values generalizing d with
  | nil =>
      cases h
      exact Kept.refl _
  | cons value values ih =>
      rw [List.foldlM_cons] at h
      obtain ⟨mid, hmid, h⟩ := bind_eq_ok.1 h
      exact (hf value d mid hmid).trans (ih h)

theorem applyRate_keeps {sku : Sku} {cap : Terms → ℕ} {get : Config → ℕ}
    {set : Config → ℕ → Config} {bps : ℕ} (hset : ∀ c n, (set c n).autolp = c.autolp)
    (h : applyRate sku cap get set bps d = .ok d') : d.Keeps d' := by
  obtain ⟨_, -, h⟩ := bind_eq_ok.1 h
  by_cases hsame : bps = get d.token.storage.config
  · rw [if_pos hsame] at h
    cases h
    exact Kept.refl _
  · rw [if_neg hsame] at h
    obtain ⟨_, -, h⟩ := bind_eq_ok.1 h
    cases h
    exact ⟨rfl, rfl, hset _ _⟩

theorem applyBuyBps_keeps {bps : ℕ} (h : applyBuyBps bps d = .ok d') : d.Keeps d' := by
  apply applyRate_keeps _ h
  exact fun _ _ => rfl

theorem applySellBps_keeps {bps : ℕ} (h : applySellBps bps d = .ok d') : d.Keeps d' := by
  apply applyRate_keeps _ h
  exact fun _ _ => rfl

theorem applyTransferBps_keeps {bps : ℕ} (h : applyTransferBps bps d = .ok d') : d.Keeps d' := by
  apply applyRate_keeps _ h
  exact fun _ _ => rfl

theorem applyTreasury_keeps {treasury : Addr} (h : applyTreasury ans treasury d = .ok d') :
    d.Keeps d' := by
  obtain ⟨a, -, h⟩ := bind_eq_ok.1 h
  dsimp only at h
  split_ifs at h
  · cases h
    exact Kept.refl _
  · cases h
    exact ⟨rfl, rfl, rfl⟩

theorem addExemption_keeps {raw : Addr} (h : addExemption ans d raw = .ok d') : d.Keeps d' := by
  obtain ⟨a, -, h⟩ := bind_eq_ok.1 h
  obtain ⟨_, -, h⟩ := bind_eq_ok.1 h
  split_ifs at h
  · cases h
    exact Kept.refl _
  · cases h
    exact ⟨rfl, rfl, rfl⟩

theorem removeExemption_keeps {raw : Addr} (h : removeExemption ans d raw = .ok d') :
    d.Keeps d' := by
  obtain ⟨a, -, h⟩ := bind_eq_ok.1 h
  obtain ⟨_, -, h⟩ := bind_eq_ok.1 h
  obtain ⟨_, -, h⟩ := bind_eq_ok.1 h
  split_ifs at h
  · cases h
    exact ⟨rfl, rfl, rfl⟩
  · cases h
    exact Kept.refl _

theorem applyAddExempt_keeps {addrs : List Addr} (h : applyAddExempt ans addrs d = .ok d') :
    d.Keeps d' := by
  obtain ⟨_, -, h⟩ := bind_eq_ok.1 h
  exact foldlM_keeps (fun _ _ _ => addExemption_keeps) h

theorem applyRemoveExempt_keeps {addrs : List Addr}
    (h : applyRemoveExempt ans addrs d = .ok d') : d.Keeps d' := by
  obtain ⟨_, -, h⟩ := bind_eq_ok.1 h
  exact foldlM_keeps (fun _ _ _ => removeExemption_keeps) h

theorem applyAutolp_keeps {field : Option AutoLpConfig} {out : Draft × List InvoiceOutgoing}
    (h : applyAutolp ans field d = .ok out) : d.Keeps out.1 := by
  cases field with
  | none =>
      cases h
      exact Kept.refl _
  | some autolp =>
      obtain ⟨_, -, h⟩ := bind_eq_ok.1 h
      obtain ⟨_, -, h⟩ := bind_eq_ok.1 h
      obtain ⟨_, -, h⟩ := bind_eq_ok.1 h
      obtain ⟨sister, -, h⟩ := bind_eq_ok.1 h
      obtain ⟨current, -, h⟩ := bind_eq_ok.1 h
      split_ifs at h
      · cases h
        exact Kept.refl _
      · cases h
        exact Kept.refl _

theorem applyLaunchGuardSettings_keeps {incoming : LaunchGuardsConfig}
    (h : applyLaunchGuardSettings incoming d = .ok d') : d.Keeps d' := by
  obtain ⟨_, -, h⟩ := bind_eq_ok.1 h
  dsimp only at h
  split_ifs at h
  · cases h
    exact Kept.refl _
  · cases h
    exact ⟨rfl, rfl, rfl⟩

theorem setMinter_keeps {minter : Addr} (h : setMinter ans minter d = .ok d') : d.Keeps d' := by
  obtain ⟨a, -, h⟩ := bind_eq_ok.1 h
  dsimp only at h
  cases hmint : d.token.storage.tokenInfo.mint with
  | none =>
      rw [hmint] at h
      cases h
      exact ⟨rfl, rfl, rfl⟩
  | some m =>
      rw [hmint] at h
      dsimp only at h
      split_ifs at h
      · cases h
        exact Kept.refl _
      · cases h
        exact ⟨rfl, rfl, rfl⟩

theorem applyMintSettings_keeps {batch : SettingsBatch}
    (h : applyMintSettings ans batch d = .ok d') : d.Keeps d' := by
  unfold applyMintSettings at h
  by_cases hany : (batch.minter.isSome || batch.revokeMint == some true) = true
  · rw [if_pos hany] at h
    obtain ⟨_, -, h⟩ := bind_eq_ok.1 h
    obtain ⟨_, -, h⟩ := bind_eq_ok.1 h
    by_cases hrevoke : batch.revokeMint = some true
    · rw [if_pos hrevoke] at h
      cases h
      exact ⟨rfl, rfl, rfl⟩
    · rw [if_neg hrevoke] at h
      exact onField_keeps (fun _ _ _ => setMinter_keeps) h
  · rw [if_neg hany] at h
    cases h
    exact Kept.refl _

theorem storeSink_spec {validate : Addr → Except SettingsError Addr} {sink : Sink}
    {k : StoredSink} (h : storeSink validate sink = .ok k) :
    k.part = sink.part ∧ (k.kind = .wallet → k.addr.isSome) := by
  unfold storeSink at h
  cases hkind : sink.kind with
  | wallet =>
      rw [hkind] at h
      obtain ⟨raw, -, h⟩ := bind_eq_ok.1 h
      obtain ⟨a, -, h⟩ := bind_eq_ok.1 h
      cases h
      exact ⟨by rw [StoredSink.part, Sink.part, hkind], fun _ => rfl⟩
  | treasury | burn | autoLp =>
      rw [hkind] at h
      cases h
      constructor
      · rw [StoredSink.part, Sink.part, hkind]
      · intro hwallet
        cases hwallet

theorem storeSinks_spec {validate : Addr → Except SettingsError Addr} {sinks : List Sink}
    {stored : List StoredSink} (h : sinks.mapM (storeSink validate) = .ok stored) :
    stored.map StoredSink.part = sinks.map Sink.part ∧
      ∀ k ∈ stored, k.kind = .wallet → k.addr.isSome := by
  induction sinks generalizing stored with
  | nil =>
      cases h
      exact ⟨rfl, nofun⟩
  | cons sink sinks ih =>
      rw [List.mapM_cons] at h
      obtain ⟨k, hk, h⟩ := bind_eq_ok.1 h
      obtain ⟨ks, hks, h⟩ := bind_eq_ok.1 h
      cases h
      obtain ⟨hpart, haddr⟩ := storeSink_spec hk
      obtain ⟨hparts, haddrs⟩ := ih hks
      constructor
      · rw [List.map_cons, List.map_cons, hpart, hparts]
      · exact List.forall_mem_cons.2 ⟨haddr, haddrs⟩

/-- The stored sinks take the kinds and the parts of the accepted ones, and name their wallets. -/
theorem validateSinks_spec {validate : Addr → Except SettingsError Addr} {sinks : List Sink}
    {stored : List StoredSink} (h : validateSinks validate sinks = .ok stored) :
    Validated stored ∧ stored.map StoredSink.part = sinks.map Sink.part := by
  obtain ⟨_, hlength, h⟩ := bind_eq_ok.1 h
  obtain ⟨_, htotal, h⟩ := bind_eq_ok.1 h
  rw [ensure_eq_ok] at hlength htotal
  obtain ⟨hparts, haddrs⟩ := storeSinks_spec h
  refine ⟨⟨?_, ?_, haddrs⟩, hparts⟩
  · rintro rfl
    exact hlength.1 (List.map_eq_nil_iff.1 hparts.symm)
  · have hbps : stored.map StoredSink.bps = sinks.map Sink.bps := by
      have hsnd := congrArg (List.map Prod.snd) hparts
      rw [List.map_map, List.map_map] at hsnd
      exact hsnd
    rw [hbps]
    exact htotal

theorem applySinks_spec {sinks : List Sink} (h : applySinks ans sinks d = .ok d') :
    d.token.storage.features.splitRouter = true ∧
      ∃ stored, validateSinks ans.addrValidate sinks = .ok stored ∧
        d'.token.storage.sinks = some stored ∧
        d'.token.storage.features = d.token.storage.features ∧
        d'.token.storage.config.autolp = d.token.storage.config.autolp := by
  obtain ⟨_, hsku, h⟩ := bind_eq_ok.1 h
  obtain ⟨stored, hstored, h⟩ := bind_eq_ok.1 h
  refine ⟨ensure_eq_ok.1 hsku, stored, hstored, ?_⟩
  by_cases hsame : stored = d.token.storage.sinks.getD []
  · rw [if_pos hsame] at h
    cases h
    refine ⟨?_, rfl, rfl⟩
    have hne := (validateSinks_spec hstored).1.nonempty
    cases hs : d.token.storage.sinks with
    | none =>
        rw [hs] at hsame
        exact absurd hsame hne
    | some current =>
        rw [hs] at hsame
        rw [hsame]
        rfl
  · rw [if_neg hsame] at h
    cases h
    exact ⟨rfl, rfl, rfl⟩

/-- A batch keeps everything but the sinks it brings, which it stores validated. -/
def Replaces (ans : Answers) (field : Option (List Sink)) (s s' : Storage) : Prop :=
  match field with
  | none => Kept s s'
  | some sinks => s'.features = s.features ∧ s'.config.autolp = s.config.autolp ∧
      s.features.splitRouter = true ∧
      ∃ stored, validateSinks ans.addrValidate sinks = .ok stored ∧ s'.sinks = some stored

theorem Replaces.of_kept {field : Option (List Sink)} {s s₁ s₂ s' : Storage} (hbefore : Kept s s₁)
    (h : Replaces ans field s₁ s₂) (hafter : Kept s₂ s') : Replaces ans field s s' := by
  cases field with
  | none => exact (hbefore.trans h).trans hafter
  | some sinks =>
      obtain ⟨hfeatures, hautolp, hunlocked, stored, hstored, hsinks⟩ := h
      refine ⟨?_, ?_, ?_, stored, hstored, hafter.sinks.trans hsinks⟩
      · rw [hafter.features, hfeatures, hbefore.features]
      · rw [hafter.autolp, hautolp, hbefore.autolp]
      · rw [← hbefore.features]
        exact hunlocked

theorem applySinks_replaces {field : Option (List Sink)}
    (h : onField field (applySinks ans) d = .ok d') :
    Replaces ans field d.token.storage d'.token.storage := by
  cases field with
  | none =>
      cases h
      exact Kept.refl _
  | some sinks =>
      obtain ⟨hunlocked, stored, hstored, hsinks, hfeatures, hautolp⟩ := applySinks_spec h
      exact ⟨hfeatures, hautolp, hunlocked, stored, hstored, hsinks⟩

theorem applyBatch_replaces {batch : SettingsBatch} {t : Token}
    {out : Draft × List InvoiceOutgoing} (h : applyBatch ans batch t = .ok out) :
    Replaces ans batch.sinks t.storage out.1.token.storage := by
  obtain ⟨d₁, h₁, h⟩ := bind_eq_ok.1 h
  obtain ⟨d₂, h₂, h⟩ := bind_eq_ok.1 h
  obtain ⟨d₃, h₃, h⟩ := bind_eq_ok.1 h
  obtain ⟨d₄, h₄, h⟩ := bind_eq_ok.1 h
  obtain ⟨d₅, h₅, h⟩ := bind_eq_ok.1 h
  obtain ⟨d₆, h₆, h⟩ := bind_eq_ok.1 h
  obtain ⟨d₇, h₇, h⟩ := bind_eq_ok.1 h
  obtain ⟨o₈, h₈, h⟩ := bind_eq_ok.1 h
  obtain ⟨d₉, h₉, h⟩ := bind_eq_ok.1 h
  obtain ⟨d₀, h₀, h⟩ := bind_eq_ok.1 h
  cases h
  have k₁ := onField_keeps (fun _ _ _ => applyBuyBps_keeps) h₁
  have k₂ := onField_keeps (fun _ _ _ => applySellBps_keeps) h₂
  have k₃ := onField_keeps (fun _ _ _ => applyTreasury_keeps) h₃
  have k₄ := onField_keeps (fun _ _ _ => applyTransferBps_keeps) h₄
  have k₆ := onField_keeps (fun _ _ _ => applyAddExempt_keeps) h₆
  have k₇ := onField_keeps (fun _ _ _ => applyRemoveExempt_keeps) h₇
  have k₈ := applyAutolp_keeps h₈
  have k₉ := onField_keeps (fun _ _ _ => applyLaunchGuardSettings_keeps) h₉
  have k₀ := applyMintSettings_keeps h₀
  exact (applySinks_replaces h₅).of_kept (((k₁.trans k₂).trans k₃).trans k₄)
    ((((k₆.trans k₇).trans k₈).trans k₉).trans k₀)

end Drafts

end Cl8yDex.CommunityTax
