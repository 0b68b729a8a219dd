import Cl8yDex.SinkShares
import Cl8yDex.TokenCreation

/-!
# The distribution of the tax

Every sink but the last is due the floor of its part of the tax, and the last one what the others
leave. Sinks that passed their validation can all be paid, but for a share of the liquidity sister
while none is bound.
-/

namespace Cl8yDex.CommunityTax

open Outcome

section Due

variable {config : Config} {tax allocated : ℕ} {sinks : List StoredSink} {cs : List SinkCredit}

def floorShare (tax : ℕ) (sink : StoredSink) : ℕ := tax * sink.bps / bpsDenom

def floors (tax : ℕ) (sinks : List StoredSink) : ℕ := (sinks.map (floorShare tax)).sum

/-- What each sink is due once `allocated` has been given away. -/
def dueAfter (tax allocated : ℕ) (sinks : List StoredSink) : List (StoredSink × ℕ) :=
  sinks.dropLast.map (fun k => (k, floorShare tax k)) ++
    sinks.getLast?.toList.map fun k => (k, tax - (allocated + floors tax sinks.dropLast))

def due (tax : ℕ) (sinks : List StoredSink) : List (StoredSink × ℕ) := dueAfter tax 0 sinks

theorem dueAfter_single (k : StoredSink) : dueAfter tax allocated [k] = [(k, tax - allocated)] := by
  simp [dueAfter, floors]

theorem dueAfter_cons_cons (k k' : StoredSink) (ks : List StoredSink) :
    dueAfter tax allocated (k :: k' :: ks) =
      (k, floorShare tax k) :: dueAfter tax (allocated + floorShare tax k) (k' :: ks) := by
  simp [dueAfter, floors, Nat.add_assoc]

/-- The credit pays the sink what it is due. -/
def Pays (config : Config) (p : StoredSink × ℕ) (c : SinkCredit) : Prop :=
  sinkAddr config p.1 = .ok (c.addr, c.burn) ∧ c.share = p.2

/-- The shares that are not zero. -/
def positive (shares : List (StoredSink × ℕ)) : List (StoredSink × ℕ) :=
  shares.filter fun p => 0 < p.2

theorem taxAmount_of_le {bps : ℕ} (htax : tax ≤ u128Max) (hbps : bps ≤ bpsDenom) :
    taxAmount tax bps = .ok (tax * bps / bpsDenom) := by
  have hle : tax * bps / bpsDenom ≤ u128Max := by
    refine le_trans ?_ htax
    apply Nat.div_le_of_le_mul
    rw [Nat.mul_comm]
    exact Nat.mul_le_mul_right tax hbps
  rw [taxAmount, orThrow_eq_ok, checkedMultiplyRatio_eq_some]
  exact ⟨by decide, hle, rfl⟩

theorem splitFrom_cons {share : ℕ} {k : StoredSink} {ks : List StoredSink}
    (hshare : sinkShare ks.isEmpty tax allocated k.bps = .ok share)
    (hfits : allocated + share ≤ u128Max)
    (hrest : ∀ cs, splitFrom config tax (allocated + share) ks = .ok cs ↔
      List.Forall₂ (Pays config) (positive (dueAfter tax (allocated + share) ks)) cs) :
    splitFrom config tax allocated (k :: ks) = .ok cs ↔
      List.Forall₂ (Pays config)
        (positive ((k, share) :: dueAfter tax (allocated + share) ks)) cs := by
  have hsum : orThrow (checkedAdd allocated share) ContractError.overflow =
      .ok (allocated + share) := by
    rw [orThrow_eq_ok, checkedAdd_eq_some]
    exact ⟨hfits, rfl⟩
  rw [splitFrom, hshare, ok_bind, hsum, ok_bind]
  by_cases hz : share = 0
  · rw [if_pos hz, hrest cs, positive, positive, List.filter_cons_of_neg (by simp [hz])]
  · have hpos : 0 < share := Nat.pos_of_ne_zero hz
    rw [if_neg hz, positive, List.filter_cons_of_pos (by simpa using hpos),
      List.forall₂_cons_left_iff]
    constructor
    · intro h
      obtain ⟨target, htarget, h⟩ := bind_eq_ok.1 h
      obtain ⟨rest, hr, h⟩ := bind_eq_ok.1 h
      cases h
      exact ⟨_, rest, ⟨htarget, rfl⟩, (hrest rest).1 hr, rfl⟩
    · rintro ⟨c, rest, ⟨htarget, rfl⟩, hr, rfl⟩
      rw [htarget, ok_bind, (hrest rest).2 hr, ok_bind]
      rfl

/-- The loop over the sinks succeeds exactly when every positive share can be paid. -/
theorem splitFrom_eq_ok (htax : tax ≤ u128Max) (hbps : ∀ k ∈ sinks, k.bps ≤ bpsDenom)
    (hfits : allocated + floors tax sinks.dropLast ≤ tax) :
    splitFrom config tax allocated sinks = .ok cs ↔
      List.Forall₂ (Pays config) (positive (dueAfter tax allocated sinks)) cs := by
  induction sinks generalizing allocated cs with
  | nil =>
      simp only [dueAfter, positive, List.dropLast_nil, List.map_nil, List.getLast?_nil,
        Option.toList_none, List.append_nil, List.filter_nil, List.forall₂_nil_left_iff]
      constructor
      · intro h
        cases h
        rfl
      · rintro rfl
        rfl
  | cons k ks ih =>
      cases ks with
      | nil =>
          rw [dueAfter_single]
          have hle : allocated ≤ tax := by
            simpa [floors] using hfits
          have hshare : sinkShare ([] : List StoredSink).isEmpty tax allocated k.bps =
              .ok (tax - allocated) := by
            rw [sinkShare, List.isEmpty_nil, if_pos rfl, orThrow_eq_ok, checkedSub_eq_some]
            exact ⟨hle, rfl⟩
          apply splitFrom_cons hshare (by omega)
          intro cs
          apply ih
          · intro k' hk'
            cases hk'
          · simp only [List.dropLast_nil, floors, List.map_nil, List.sum_nil]
            omega
      | cons k' ks =>
          rw [dueAfter_cons_cons]
          have hsplit : floors tax (k :: k' :: ks).dropLast =
              floorShare tax k + floors tax (k' :: ks).dropLast := by
            simp [floors]
          have hshare : sinkShare (k' :: ks).isEmpty tax allocated k.bps =
              .ok (floorShare tax k) := by
            rw [sinkShare, List.isEmpty_cons, if_neg Bool.false_ne_true]
            exact taxAmount_of_le htax (hbps k List.mem_cons_self)
          apply splitFrom_cons hshare (by omega)
          intro cs
          apply ih
          · intro j hj
            exact hbps j (List.mem_cons_of_mem k hj)
          · omega

end Due

section Validated

variable {config : Config} {tax : ℕ} {sinks : List StoredSink} {s : Storage}

/-- What the validation of a list of sinks leaves to rely on. -/
structure Validated (sinks : List StoredSink) : Prop where
  nonempty : sinks ≠ []
  total : (sinks.map StoredSink.bps).sum = bpsDenom
  addressed : ∀ k ∈ sinks, k.kind = .wallet → k.addr.isSome

def StoredSink.part (k : StoredSink) : SinkKind × ℕ := (k.kind, k.bps)

def Sink.part (k : Sink) : SinkKind × ℕ := (k.kind, k.bps)

/-- Some tax gives a share to the liquidity sister: to any of its sinks but the last by its part,
to the last sink as a remainder unless another sink takes everything. -/
def DrawsAutolp (parts : List (SinkKind × ℕ)) : Prop :=
  (∃ bps, (.autoLp, bps) ∈ parts.dropLast ∧ 0 < bps) ∨
    ∃ bps, parts.getLast? = some (.autoLp, bps) ∧ ∀ p ∈ parts.dropLast, p.2 < bpsDenom

theorem Validated.bps_le (h : Validated sinks) : ∀ k ∈ sinks, k.bps ≤ bpsDenom := by
  intro k hk
  rw [← h.total]
  exact List.single_le_sum (fun _ _ => Nat.zero_le _) _ (List.mem_map_of_mem hk)

theorem floors_le (tax : ℕ) (sinks : List StoredSink) :
    floors tax sinks * bpsDenom ≤ tax * (sinks.map StoredSink.bps).sum := by
  induction sinks with
  | nil => simp [floors]
  | cons k ks ih =>
      have hone : floorShare tax k * bpsDenom ≤ tax * k.bps := Nat.div_mul_le_self _ _
      simp only [floors, List.map_cons, List.sum_cons, Nat.add_mul, Nat.mul_add] at ih ⊢
      omega

theorem Validated.eq_append (h : Validated sinks) :
    ∃ init last, sinks = init ++ [last] :=
  ⟨sinks.dropLast, sinks.getLast h.nonempty, (List.dropLast_append_getLast h.nonempty).symm⟩

theorem Validated.floors_dropLast (h : Validated sinks) (tax : ℕ) :
    floors tax sinks.dropLast ≤ tax := by
  obtain ⟨init, last, rfl⟩ := h.eq_append
  have hfloors := floors_le tax init
  have htotal := h.total
  rw [List.map_append, List.sum_append] at htotal
  rw [List.dropLast_concat]
  have hle : tax * (init.map StoredSink.bps).sum ≤ tax * bpsDenom :=
    Nat.mul_le_mul_left tax (by omega)
  exact Nat.le_of_mul_le_mul_right (hfloors.trans hle) (by decide)

theorem Validated.splitTax_eq_ok (h : Validated sinks) (htax : tax ≤ u128Max)
    {cs : List SinkCredit} : splitTax sinks config tax = .ok cs ↔
      List.Forall₂ (Pays config) (positive (due tax sinks)) cs := by
  apply splitFrom_eq_ok htax h.bps_le
  rw [Nat.zero_add]
  exact h.floors_dropLast tax

theorem mem_due {k : StoredSink} {share : ℕ} (init : List StoredSink) (last : StoredSink) :
    (k, share) ∈ due tax (init ++ [last]) ↔
      (k ∈ init ∧ share = floorShare tax k) ∨ (k = last ∧ share = tax - floors tax init) := by
  simp only [due, dueAfter, List.dropLast_concat, List.getLast?_concat, Option.toList_some,
    List.map_cons, List.map_nil, List.mem_append, List.mem_map, List.mem_singleton,
    Prod.mk.injEq, Nat.zero_add]
  constructor
  · rintro (⟨j, hj, rfl, rfl⟩ | ⟨rfl, rfl⟩)
    · exact Or.inl ⟨hj, rfl⟩
    · exact Or.inr ⟨rfl, rfl⟩
  · rintro (⟨hk, rfl⟩ | ⟨rfl, rfl⟩)
    · exact Or.inl ⟨k, hk, rfl, rfl⟩
    · exact Or.inr ⟨rfl, rfl⟩

theorem floors_ge {k : StoredSink} {init : List StoredSink} (hk : k ∈ init)
    (hall : k.bps = bpsDenom) : tax ≤ floors tax init := by
  have hone : floorShare tax k = tax := by
    rw [floorShare, hall, Nat.mul_div_cancel _ (by decide)]
  rw [← hone]
  apply List.single_le_sum (fun _ _ => Nat.zero_le _)
  rw [hone]
  exact List.mem_map.2 ⟨k, hk, hone⟩

theorem floors_one {init : List StoredSink} (h : ∀ k ∈ init, k.bps < bpsDenom) :
    floors 1 init = 0 := by
  apply List.sum_eq_zero
  intro share hshare
  obtain ⟨k, hk, rfl⟩ := List.mem_map.1 hshare
  rw [floorShare, Nat.one_mul]
  exact Nat.div_eq_of_lt (h k hk)

/-- The sister draws on the tax exactly when some tax makes its share positive. -/
theorem Validated.drawsAutolp_iff (h : Validated sinks) :
    DrawsAutolp (sinks.map StoredSink.part) ↔
      ∃ tax ≤ u128Max, ∃ k share, (k, share) ∈ due tax sinks ∧ k.kind = .autoLp ∧ 0 < share := by
  obtain ⟨init, last, rfl⟩ := h.eq_append
  have hparts : (init ++ [last]).map StoredSink.part =
      init.map StoredSink.part ++ [last.part] := List.map_append
  simp only [DrawsAutolp, hparts, List.dropLast_concat, List.getLast?_concat, mem_due]
  constructor
  · rintro (⟨bps, hmem, hpos⟩ | ⟨bps, hlast, hless⟩)
    · obtain ⟨k, hk, hpart⟩ := List.mem_map.1 hmem
      obtain ⟨hkind, rfl⟩ := Prod.mk.inj hpart
      refine ⟨bpsDenom, by decide, k, k.bps, Or.inl ⟨hk, ?_⟩, hkind, hpos⟩
      rw [floorShare, Nat.mul_div_cancel_left _ (by decide)]
    · obtain ⟨hkind, -⟩ := Prod.mk.inj (Option.some.inj hlast)
      have hfloors : floors 1 init = 0 := by
        apply floors_one
        intro k hk
        exact hless _ (List.mem_map_of_mem hk)
      exact ⟨1, by decide, last, 1, Or.inr ⟨rfl, by rw [hfloors]⟩, hkind, Nat.one_pos⟩
  · rintro ⟨tax, -, k, share, hdue, hkind, hpos⟩
    rcases hdue with ⟨hk, rfl⟩ | ⟨rfl, rfl⟩
    · left
      refine ⟨k.bps, List.mem_map.2 ⟨k, hk, by rw [StoredSink.part, hkind]⟩, ?_⟩
      apply Nat.pos_of_ne_zero
      intro hz
      rw [floorShare, hz, Nat.mul_zero, Nat.zero_div] at hpos
      exact absurd hpos (lt_irrefl 0)
    · right
      refine ⟨k.bps, by rw [StoredSink.part, hkind], ?_⟩
      intro p hp
      obtain ⟨j, hj, rfl⟩ := List.mem_map.1 hp
      apply lt_of_le_of_ne (h.bps_le j (List.mem_append_left _ hj))
      intro hall
      have hge : tax ≤ floors tax init := floors_ge hj hall
      omega

end Validated

section Distributes

variable {s : Storage} {tax : ℕ} {cs : List SinkCredit}

/-- The sinks that share the tax: those that were set, or else the treasury alone. -/
def activeSinks (s : Storage) : List StoredSink :=
  match s.sinks with
  | some (k :: ks) =>
      if s.features.splitRouter then k :: ks else [⟨.treasury, none, bpsDenom⟩]
  | _ => [⟨.treasury, none, bpsDenom⟩]

/-- Every tax is distributed: in positive shares, as each sink is due, and without a loss. -/
def Distributes (s : Storage) : Prop :=
  ∀ tax ≤ u128Max, ∃ cs, sinkCredits s tax = .ok cs ∧ (∀ c ∈ cs, 0 < c.share) ∧ shared cs = tax ∧
    List.Forall₂ (Pays s.config) (positive (due tax (activeSinks s))) cs

/-- The stored sinks passed their validation, under a feature that nothing switches off. -/
structure Intact (s : Storage) : Prop where
  validated : ∀ sinks, s.sinks = some sinks → Validated sinks
  unlocked : ∀ sinks, s.sinks = some sinks → s.features.splitRouter = true

/-- A liquidity sister is bound if the stored sinks draw on her. -/
def Bound (s : Storage) : Prop :=
  ∀ sinks, s.sinks = some sinks → DrawsAutolp (sinks.map StoredSink.part) →
    s.config.autolp.isSome

theorem treasury_validated : Validated [⟨.treasury, none, bpsDenom⟩] where
  nonempty := List.cons_ne_nil _ _
  total := rfl
  addressed := by
    intro k hk hkind
    rw [List.mem_singleton.1 hk] at hkind
    cases hkind

theorem Intact.activeSinks_eq (h : Intact s) :
    (s.sinks = none ∧ activeSinks s = [⟨.treasury, none, bpsDenom⟩]) ∨
      s.sinks = some (activeSinks s) := by
  unfold activeSinks
  cases hs : s.sinks with
  | none => exact Or.inl ⟨rfl, rfl⟩
  | some sinks =>
      right
      cases sinks with
      | nil => exact absurd rfl (h.validated [] hs).nonempty
      | cons k ks =>
          dsimp only
          rw [if_pos (h.unlocked _ hs)]

theorem Intact.activeSinks_validated (h : Intact s) : Validated (activeSinks s) := by
  rcases h.activeSinks_eq with ⟨-, hactive⟩ | hactive
  · rw [hactive]
    exact treasury_validated
  · exact h.validated _ hactive

theorem positive_due_zero (sinks : List StoredSink) : positive (due 0 sinks) = [] := by
  apply List.filter_eq_nil_iff.2
  rintro ⟨k, share⟩ hmem
  simp only [due, dueAfter, List.mem_append, List.mem_map, floorShare, Nat.zero_mul, Nat.zero_div,
    Nat.zero_sub, Prod.mk.injEq] at hmem
  rcases hmem with ⟨j, -, -, rfl⟩ | ⟨j, -, -, rfl⟩
  · simp
  · simp

theorem positive_due_treasury (hpos : 0 < tax) :
    positive (due tax [⟨.treasury, none, bpsDenom⟩]) = [(⟨.treasury, none, bpsDenom⟩, tax)] := by
  rw [due, dueAfter_single, positive, List.filter_cons_of_pos (by simpa using hpos)]
  rfl

theorem Intact.sinkCredits_eq_ok (h : Intact s) (htax : tax ≤ u128Max) :
    sinkCredits s tax = .ok cs ↔
      List.Forall₂ (Pays s.config) (positive (due tax (activeSinks s))) cs := by
  by_cases hz : tax = 0
  · rw [sinkCredits, if_pos hz, hz, positive_due_zero, List.forall₂_nil_left_iff]
    constructor
    · intro h
      cases h
      rfl
    · rintro rfl
      rfl
  · rcases h.activeSinks_eq with ⟨hnone, hactive⟩ | hactive
    · rw [sinkCredits, if_neg hz, hnone, hactive, positive_due_treasury (Nat.pos_of_ne_zero hz)]
      constructor
      · intro h
        cases h
        exact .cons ⟨rfl, rfl⟩ .nil
      · intro h
        obtain ⟨⟨a, share, burn⟩, rest, ⟨htarget, hshare⟩, hrest, rfl⟩ :=
          List.forall₂_cons_left_iff.1 h
        cases List.forall₂_nil_left_iff.1 hrest
        obtain ⟨haddr, hburn⟩ := Prod.mk.inj (Except.ok.inj htarget)
        dsimp only at haddr hburn hshare ⊢
        rw [haddr, hshare, hburn]
    · rw [← h.activeSinks_validated.splitTax_eq_ok htax]
      have hcase : sinkCredits s tax = splitTax (activeSinks s) s.config tax := by
        have hunlocked := h.unlocked _ hactive
        rw [sinkCredits, if_neg hz, hactive]
        cases hlist : activeSinks s with
        | nil => exact absurd hlist h.activeSinks_validated.nonempty
        | cons k ks =>
            dsimp only
            rw [if_pos hunlocked]
      rw [hcase]

theorem sinkAddr_resolves {config : Config} {k : StoredSink}
    (haddr : k.kind = .wallet → k.addr.isSome)
    (hautolp : k.kind = .autoLp → config.autolp.isSome) :
    ∃ target, sinkAddr config k = .ok target := by
  unfold sinkAddr
  cases hkind : k.kind with
  | treasury => exact ⟨_, rfl⟩
  | burn => exact ⟨_, rfl⟩
  | autoLp =>
      obtain ⟨a, ha⟩ := Option.isSome_iff_exists.1 (hautolp hkind)
      exact ⟨(a, false), by rw [ha]; rfl⟩
  | wallet =>
      obtain ⟨a, ha⟩ := Option.isSome_iff_exists.1 (haddr hkind)
      exact ⟨(a, false), by rw [ha]; rfl⟩

theorem exists_pays {config : Config} {shares : List (StoredSink × ℕ)}
    (h : ∀ p ∈ shares, ∃ target, sinkAddr config p.1 = .ok target) :
    ∃ cs, List.Forall₂ (Pays config) shares cs := by
  induction shares with
  | nil => exact ⟨[], .nil⟩
  | cons p ps ih =>
      obtain ⟨target, htarget⟩ := h p List.mem_cons_self
      obtain ⟨cs, hcs⟩ := ih fun q hq => h q (List.mem_cons_of_mem p hq)
      exact ⟨⟨target.1, p.2, target.2⟩ :: cs, .cons ⟨htarget, rfl⟩ hcs⟩

theorem exists_related {α β : Type} {R : α → β → Prop} {as : List α} {bs : List β} {a : α}
    (h : List.Forall₂ R as bs) (ha : a ∈ as) : ∃ b ∈ bs, R a b := by
  induction h with
  | nil => cases ha
  | cons hab _ ih =>
      rcases List.mem_cons.1 ha with rfl | hrest
      · exact ⟨_, List.mem_cons_self, hab⟩
      · obtain ⟨b, hb, hR⟩ := ih hrest
        exact ⟨b, List.mem_cons_of_mem _ hb, hR⟩

/-- The distribution never fails exactly when a sister is bound for the sinks that draw on her. -/
theorem Intact.distributes_iff (h : Intact s) : Distributes s ↔ Bound s := by
  constructor
  · intro hall sinks hsinks hdraws
    obtain ⟨tax, htax, k, share, hdue, hkind, hpos⟩ :=
      (h.validated sinks hsinks).drawsAutolp_iff.1 hdraws
    obtain ⟨cs, -, -, -, hpays⟩ := hall tax htax
    have hactive : activeSinks s = sinks := by
      rcases h.activeSinks_eq with ⟨hnone, -⟩ | hactive
      · rw [hnone] at hsinks
        cases hsinks
      · exact Option.some.inj (hactive.symm.trans hsinks)
    have hmem : (k, share) ∈ positive (due tax (activeSinks s)) := by
      rw [hactive]
      exact List.mem_filter.2 ⟨hdue, by simpa using hpos⟩
    obtain ⟨c, -, htarget, -⟩ := exists_related hpays hmem
    unfold sinkAddr at htarget
    rw [hkind] at htarget
    obtain ⟨a, ha, -⟩ := bind_eq_ok.1 htarget
    rw [orThrow_eq_ok] at ha
    rw [ha]
    rfl
  · intro hbound tax htax
    have hresolves : ∀ p ∈ positive (due tax (activeSinks s)),
        ∃ target, sinkAddr s.config p.1 = .ok target := by
      rintro ⟨k, share⟩ hp
      obtain ⟨hdue, hpos⟩ := List.mem_filter.1 hp
      have hpos : 0 < share := by simpa using hpos
      obtain ⟨init, last, hsplit⟩ := h.activeSinks_validated.eq_append
      have hk : k ∈ activeSinks s := by
        rw [hsplit] at hdue ⊢
        rcases (mem_due init last).1 hdue with ⟨hk, -⟩ | ⟨rfl, -⟩
        · exact List.mem_append_left _ hk
        · exact List.mem_append_right _ List.mem_cons_self
      apply sinkAddr_resolves (h.activeSinks_validated.addressed k hk)
      intro hkind
      rcases h.activeSinks_eq with ⟨-, hactive⟩ | hactive
      · rw [hactive] at hk
        rw [List.mem_singleton.1 hk] at hkind
        cases hkind
      · exact hbound _ hactive
          ((h.validated _ hactive).drawsAutolp_iff.2 ⟨tax, htax, k, share, hdue, hkind, hpos⟩)
    obtain ⟨cs, hpays⟩ := exists_pays hresolves
    have hok := (h.sinkCredits_eq_ok htax).2 hpays
    refine ⟨cs, hok, ?_, shared_sinkCredits hok, hpays⟩
    intro c hc
    obtain ⟨p, hp, -, hshare⟩ := exists_related hpays.flip hc
    rw [hshare]
    simpa using (List.mem_filter.1 hp).2

end Distributes

end Cl8yDex.CommunityTax
