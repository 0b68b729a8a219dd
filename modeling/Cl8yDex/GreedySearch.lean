import Cl8yDex.GreedyReverse
import Mathlib.Data.List.Nodup

/-!
# The greedy search is sound for any forward function

The bracket's lower end always falls short of the target, and once an upper end is found it always
reaches it, whatever the outputs in between. Both are answers of the forward function, which is
asked about each offer at most once.
-/

namespace Cl8yDex.Router

open Outcome

section Brackets

variable {ε : Type} {target : ℕ} {simulate : ℕ → Except ε ℕ} {p q : Probes} {lo hi x n v : ℕ}

/-- The cache holds the answers to the calls, besides that to an offer of zero. -/
structure Probes.Sound (p : Probes) (simulate : ℕ → Except ε ℕ) : Prop where
  zero : p.cache 0 = some 0
  cached : ∀ x v, p.cache x = some v → x ≠ 0 → simulate x = .ok v ∧ x ∈ p.calls
  called : ∀ x ∈ p.calls, x ≠ 0 ∧ x ≤ u128Max ∧ (p.cache x).isSome
  nodup : p.calls.Nodup

/-- The last call failed, all others were answered. -/
def Probes.Failed (p : Probes) (simulate : ℕ → Except ε ℕ) (e : ε) : Prop :=
  ∃ (q : Probes) (x : ℕ), q.Sound simulate ∧ q.cache x = none ∧ x ≤ u128Max ∧
    simulate x = .error e ∧ p.calls = q.calls ++ [x]

/-- How a part of the search may end. -/
def Ends {α : Type} (simulate : ℕ → Except ε ℕ) (Q : α → Probes → Prop) (stops : Probes → Prop) :
    Except (ReverseError ε) α × Probes → Prop
  | (.ok a, p) => p.Sound simulate ∧ Q a p
  | (.error (.nested e), p) => p.Failed simulate e
  | (.error .reverseTargetInfeasible, p) => p.Sound simulate ∧ stops p
  | (.error .abort, _) | (.error .outOfSteps, _) => False

/-- The lower end falls short of the target and the upper end reaches it. -/
structure Probes.Brackets (p : Probes) (target lo hi : ℕ) : Prop where
  lt : lo < hi
  hi_le : hi ≤ u128Max
  lower : ∃ u, p.cache lo = some u ∧ u < target
  upper : ∃ v, p.cache hi = some v ∧ target ≤ v

theorem Probes.start_sound : Probes.start.Sound simulate where
  zero := rfl
  cached x v h hx := by
    have hnone : Probes.start.cache x = none := by
      unfold Probes.start
      exact Function.update_of_ne hx (some 0) fun _ => none
    rw [hnone] at h
    cases h
  called := nofun
  nodup := .nil

theorem Probes.learn_self : (p.learn x v).cache x = some v := Function.update_self ..

theorem Probes.learn_of_ne {y : ℕ} (h : y ≠ x) : (p.learn x v).cache y = p.cache y :=
  Function.update_of_ne h _ _

theorem Probes.Sound.learn (hp : p.Sound simulate) (hcache : p.cache x = none) (hx : x ≤ u128Max)
    (hsim : simulate x = .ok v) : (p.learn x v).Sound simulate := by
  have hne : x ≠ 0 := by
    rintro rfl
    rw [hp.zero] at hcache
    cases hcache
  have hnew : x ∉ p.calls := by
    intro hmem
    obtain ⟨-, -, hsome⟩ := hp.called x hmem
    rw [hcache] at hsome
    cases hsome
  constructor
  · exact (Probes.learn_of_ne (Ne.symm hne)).trans hp.zero
  · intro y u hy hy0
    by_cases heq : y = x
    · subst heq
      rw [Probes.learn_self] at hy
      cases hy
      exact ⟨hsim, List.mem_append_right _ (List.mem_cons_self ..)⟩
    · rw [Probes.learn_of_ne heq] at hy
      obtain ⟨h1, h2⟩ := hp.cached y u hy hy0
      exact ⟨h1, List.mem_append_left _ h2⟩
  · intro y hy
    rcases List.mem_append.1 hy with hold | hlast
    · obtain ⟨h1, h2, h3⟩ := hp.called y hold
      refine ⟨h1, h2, ?_⟩
      have hyx : y ≠ x := by
        rintro rfl
        exact hnew hold
      rw [Probes.learn_of_ne hyx]
      exact h3
    · rw [List.mem_singleton.1 hlast, Probes.learn_self]
      exact ⟨hne, hx, rfl⟩
  · exact List.Nodup.append hp.nodup (List.nodup_singleton x) (List.disjoint_singleton.2 hnew)

/-- A probe keeps what is known and learns the answer to its offer. -/
theorem Probes.output_spec (hp : p.Sound simulate) (hx : x ≤ u128Max) :
    Ends simulate (fun v q => q.cache x = some v ∧ ∀ y u, p.cache y = some u → q.cache y = some u)
      (fun _ => False) (p.output simulate x) := by
  unfold Probes.output
  cases hcache : p.cache x with
  | some v => exact ⟨hp, hcache, fun _ _ h => h⟩
  | none =>
      cases hsim : simulate x with
      | error e => exact ⟨p, x, hp, hcache, hx, hsim, rfl⟩
      | ok v =>
          refine ⟨hp.learn hcache hx hsim, Probes.learn_self, ?_⟩
          intro y u hy
          rw [Probes.learn_of_ne]
          · exact hy
          · rintro rfl
            rw [hcache] at hy
            cases hy

/-- A failed probe ends whatever asked for it. -/
theorem Ends.failed {α β : Type} {Q : α → Probes → Prop} {Q' : β → Probes → Prop}
    {stops : Probes → Prop} {e : ReverseError ε}
    (h : Ends simulate Q (fun _ => False) (.error e, p)) :
    Ends simulate Q' stops (.error e, p) := by
  cases e with
  | nested e => exact h
  | reverseTargetInfeasible => exact absurd h.2 id
  | abort => exact h
  | outOfSteps => exact h

/-- One probe of the expansion, and the rest of it from a higher end. -/
theorem expand_step (hp : p.Sound simulate) (hlt : lo < hi) (hle : hi ≤ u128Max)
    (hlower : ∃ u, p.cache lo = some u ∧ u < target)
    (hrest : ∀ q next, q.Sound simulate → (∃ u, q.cache hi = some u ∧ u < target) → hi < next →
      next ≤ u128Max → next = hi * 2 ∨ next = u128Max →
      Ends simulate (fun b q => q.Brackets target b.1 b.2)
        (fun q => ∃ u, q.cache u128Max = some u ∧ u < target)
        (expand target simulate n hi next q)) :
    Ends simulate (fun b q => q.Brackets target b.1 b.2)
      (fun q => ∃ u, q.cache u128Max = some u ∧ u < target)
      (expand target simulate (n + 1) lo hi p) := by
  have hout := Probes.output_spec hp hle
  rw [expand]
  generalize p.output simulate hi = probe at hout ⊢
  obtain ⟨res, q⟩ := probe
  cases res with
  | error e => exact hout.failed
  | ok v =>
      obtain ⟨hq, hv, hkept⟩ := hout
      obtain ⟨u, hu, hless⟩ := hlower
      dsimp only
      by_cases hreach : target ≤ v
      · rw [if_pos hreach]
        exact ⟨hq, hlt, hle, ⟨u, hkept lo u hu, hless⟩, v, hv, hreach⟩
      · rw [if_neg hreach]
        have hshort : ∃ u, q.cache hi = some u ∧ u < target := ⟨v, hv, not_le.1 hreach⟩
        unfold checkedMul
        by_cases hfits : hi * 2 ≤ u128Max
        · rw [if_pos hfits, Option.getD_some, if_neg (by omega)]
          exact hrest q _ hq hshort (by omega) hfits (.inl rfl)
        · rw [if_neg hfits, Option.getD_none]
          split_ifs with hmax
          · exact ⟨hq, hmax ▸ hshort⟩
          · exact hrest q _ hq hshort (by omega) le_rfl (.inr rfl)

theorem expand_spec (hp : p.Sound simulate) (hlt : lo < hi) (hle : hi ≤ u128Max)
    (hlower : ∃ u, p.cache lo = some u ∧ u < target) (hsteps : u128Max ≤ hi * 2 ^ n) :
    Ends simulate (fun b q => q.Brackets target b.1 b.2)
      (fun q => ∃ u, q.cache u128Max = some u ∧ u < target)
      (expand target simulate (n + 1) lo hi p) := by
  induction n generalizing lo hi p with
  | zero =>
      apply expand_step hp hlt hle hlower
      intro q next _ _ hnext hmax
      omega
  | succ n ih =>
      apply expand_step hp hlt hle hlower
      intro q next hq hshort hnext hmax hkind
      apply ih hq hnext hmax hshort
      rcases hkind with rfl | rfl
      · rwa [pow_succ', ← Nat.mul_assoc] at hsteps
      · exact Nat.le_mul_of_pos_right _ (Nat.two_pow_pos n)

theorem Probes.Brackets.of_narrow (hb : p.Brackets target lo hi) (hwidth : hi - lo ≤ 1) :
    p.Brackets target (hi - 1) hi := by
  have hlt := hb.lt
  have hlo : hi - 1 = lo := by omega
  rw [hlo]
  exact hb

theorem bisect_spec (hp : p.Sound simulate) (hb : p.Brackets target lo hi)
    (hsteps : hi - lo ≤ 2 ^ n) : Ends simulate (fun x q => q.Brackets target (x - 1) x)
      (fun _ => False) (bisect target simulate n lo hi p) := by
  induction n generalizing lo hi p with
  | zero =>
      have hlt := hb.lt
      have hwidth : hi - lo ≤ 1 := hsteps
      unfold bisect
      simp only [checkedSub, if_pos hlt.le, if_pos hwidth]
      exact ⟨hp, hb.of_narrow hwidth⟩
  | succ n ih =>
      have hlt := hb.lt
      have hle := hb.hi_le
      unfold bisect
      simp only [checkedSub, if_pos hlt.le]
      by_cases hwidth : hi - lo ≤ 1
      · rw [if_pos hwidth]
        exact ⟨hp, hb.of_narrow hwidth⟩
      · have hmid : lo + (hi - lo) / 2 ≤ u128Max := by omega
        have hout := Probes.output_spec hp hmid
        rw [if_neg hwidth]
        simp only [checkedAdd, if_pos hmid]
        generalize p.output simulate (lo + (hi - lo) / 2) = probe at hout ⊢
        obtain ⟨res, q⟩ := probe
        cases res with
        | error e => exact hout.failed
        | ok v =>
            obtain ⟨hq, hv, hkept⟩ := hout
            obtain ⟨u, hu, hless⟩ := hb.lower
            obtain ⟨w, hw, hmore⟩ := hb.upper
            rw [pow_succ] at hsteps
            dsimp only
            by_cases hreach : target ≤ v
            · rw [if_pos hreach]
              apply ih hq _ (by omega)
              exact ⟨by omega, hmid, ⟨u, hkept lo u hu, hless⟩, v, hv, hreach⟩
            · rw [if_neg hreach]
              apply ih hq _ (by omega)
              exact ⟨by omega, hle, ⟨v, hv, not_le.1 hreach⟩, w, hkept hi w hw, hmore⟩

theorem settle_spec (hp : p.Sound simulate) (hb : p.Brackets target lo hi) :
    Ends simulate (fun x q => q.Brackets target (x - 1) x) (fun _ => False)
      (settle target simulate lo hi p) := by
  have hlt := hb.lt
  have hle := hb.hi_le
  have hsteps : hi - lo ≤ 2 ^ 128 := ((Nat.sub_le hi lo).trans hle).trans (by decide)
  unfold settle
  by_cases hone : 1 < hi
  · have hbelow : hi - 1 ≤ u128Max := by omega
    have hout := Probes.output_spec hp hbelow
    rw [if_pos hone]
    simp only [checkedSub, if_pos hone.le]
    generalize p.output simulate (hi - 1) = probe at hout ⊢
    obtain ⟨res, q⟩ := probe
    cases res with
    | error e => exact hout.failed
    | ok v =>
        obtain ⟨hq, hv, hkept⟩ := hout
        obtain ⟨u, hu, hless⟩ := hb.lower
        obtain ⟨w, hw, hmore⟩ := hb.upper
        dsimp only
        by_cases hshort : v < target
        · rw [if_pos hshort]
          exact ⟨hq, by omega, hle, ⟨v, hv, hshort⟩, w, hkept hi w hw, hmore⟩
        · rw [if_neg hshort]
          apply bisect_spec hq _ hsteps
          exact ⟨hlt, hle, ⟨u, hkept lo u hu, hless⟩, w, hkept hi w hw, hmore⟩
  · rw [if_neg hone]
    exact bisect_spec hp hb hsteps

/-- What the search promises of its result and of the calls that it made. -/
structure Searched (target : ℕ) (simulate : ℕ → Except ε ℕ)
    (out : Except (ReverseError ε) ℕ × Probes) : Prop where
  once : out.2.calls.Nodup
  offers : ∀ x ∈ out.2.calls, x ≠ 0 ∧ x ≤ u128Max
  sufficient : ∀ x, out.1 = .ok x → (∀ y ∈ out.2.calls, ∃ v, simulate y = .ok v) ∧
    (0 < target → x ≤ u128Max ∧ (∃ v, simulate x = .ok v ∧ target ≤ v) ∧
      (x = 1 ∨ x - 1 ∈ out.2.calls ∧ ∃ u, simulate (x - 1) = .ok u ∧ u < target))
  nested : ∀ e, out.1 = .error (.nested e) → ∃ answered x, out.2.calls = answered ++ [x] ∧
    simulate x = .error e ∧ ∀ y ∈ answered, ∃ v, simulate y = .ok v
  infeasible : out.1 = .error .reverseTargetInfeasible →
    (∀ y ∈ out.2.calls, ∃ v, simulate y = .ok v) ∧ u128Max ∈ out.2.calls ∧
      ∃ u, simulate u128Max = .ok u ∧ u < target
  total : out.1 ≠ .error .abort ∧ out.1 ≠ .error .outOfSteps

theorem Probes.Sound.answered (hp : p.Sound simulate) :
    ∀ y ∈ p.calls, ∃ v, simulate y = .ok v := by
  intro y hy
  obtain ⟨hy0, -, hsome⟩ := hp.called y hy
  obtain ⟨v, hv⟩ := Option.isSome_iff_exists.1 hsome
  exact ⟨v, (hp.cached y v hv hy0).1⟩

theorem Ends.searched {out : Except (ReverseError ε) ℕ × Probes}
    (h : Ends simulate (fun x q => q.Brackets target (x - 1) x)
      (fun q => ∃ u, q.cache u128Max = some u ∧ u < target) out) :
    Searched target simulate out := by
  obtain ⟨res, q⟩ := out
  cases res with
  | ok x =>
      obtain ⟨hq, hb⟩ := h
      have hlt := hb.lt
      obtain ⟨w, hw, hmore⟩ := hb.upper
      refine ⟨hq.nodup, fun y hy => ⟨(hq.called y hy).1, (hq.called y hy).2.1⟩, ?_, nofun, nofun,
        nofun, nofun⟩
      intro y hy
      cases hy
      refine ⟨hq.answered, fun _ => ⟨hb.hi_le, ⟨w, (hq.cached x w hw (by omega)).1, hmore⟩, ?_⟩⟩
      by_cases hone : x = 1
      · exact .inl hone
      · obtain ⟨u, hu, hless⟩ := hb.lower
        obtain ⟨hsim, hcall⟩ := hq.cached (x - 1) u hu (by omega)
        exact .inr ⟨hcall, u, hsim, hless⟩
  | error e =>
      cases e with
      | nested e =>
          obtain ⟨r, x, hr, hnew, hmax, hsim, hcalls⟩ := h
          have hx0 : x ≠ 0 := by
            rintro rfl
            rw [hr.zero] at hnew
            cases hnew
          have hfresh : x ∉ r.calls := by
            intro hmem
            obtain ⟨-, -, hsome⟩ := hr.called x hmem
            rw [hnew] at hsome
            cases hsome
          refine ⟨?_, ?_, nofun, ?_, nofun, nofun, nofun⟩
          · rw [hcalls]
            exact List.Nodup.append hr.nodup (List.nodup_singleton x)
              (List.disjoint_singleton.2 hfresh)
          · intro y hy
            rw [hcalls] at hy
            rcases List.mem_append.1 hy with hold | hlast
            · exact ⟨(hr.called y hold).1, (hr.called y hold).2.1⟩
            · rw [List.mem_singleton.1 hlast]
              exact ⟨hx0, hmax⟩
          · intro e' he
            cases he
            exact ⟨r.calls, x, hcalls, hsim, hr.answered⟩
      | reverseTargetInfeasible =>
          obtain ⟨hq, u, hu, hless⟩ := h
          obtain ⟨hsim, hcall⟩ := hq.cached u128Max u hu (by decide)
          exact ⟨hq.nodup, fun y hy => ⟨(hq.called y hy).1, (hq.called y hy).2.1⟩, nofun, nofun,
            fun _ => ⟨hq.answered, hcall, u, hsim, hless⟩, nofun, nofun⟩
      | abort => exact absurd h id
      | outOfSteps => exact absurd h id

theorem greedy_search_sound (target seed : ℕ) (simulate : ℕ → Except ε ℕ)
    (hseed : seed ≤ u128Max) :
    Searched target simulate (greedyReverseSearch target simulate seed) := by
  unfold greedyReverseSearch
  by_cases htarget : target = 0
  · rw [if_pos htarget]
    refine ⟨.nil, nofun, ?_, nofun, nofun, nofun, nofun⟩
    intro x hx
    exact ⟨nofun, fun hpos => absurd htarget (Nat.pos_iff_ne_zero.1 hpos)⟩
  · rw [if_neg htarget]
    have hlower : ∃ u, Probes.start.cache 0 = some u ∧ u < target :=
      ⟨0, rfl, Nat.pos_of_ne_zero htarget⟩
    have hone : 1 ≤ max seed 1 := le_max_right seed 1
    have hmax : max seed 1 ≤ u128Max := max_le hseed (by decide)
    have hsteps : u128Max ≤ max seed 1 * 2 ^ 128 := by
      have hfits : u128Max ≤ 1 * 2 ^ 128 := by decide
      exact hfits.trans (Nat.mul_le_mul_right _ hone)
    have hstart : Probes.start.Sound simulate := Probes.start_sound
    have hexpand := expand_spec hstart hone hmax hlower hsteps
    generalize expand target simulate 129 0 (max seed 1) Probes.start = found at hexpand ⊢
    obtain ⟨res, q⟩ := found
    cases res with
    | error e =>
        apply Ends.searched
        cases e with
        | nested e => exact hexpand
        | reverseTargetInfeasible => exact hexpand
        | abort => exact hexpand
        | outOfSteps => exact hexpand
    | ok b =>
        apply Ends.searched
        have hsettle := settle_spec hexpand.1 hexpand.2
        dsimp only
        generalize settle target simulate b.1 b.2 q = settled at hsettle ⊢
        obtain ⟨res, r⟩ := settled
        cases res with
        | ok x => exact hsettle
        | error e => exact hsettle.failed

/-- The forward function pays what it is offered. -/
theorem greedy_search_sound_sample : Searched 13 (fun n => (.ok n : Except String ℕ))
    (greedyReverseSearch 13 (fun n => .ok n) 32) :=
  greedy_search_sound 13 32 (fun n => .ok n) (by decide)

end Brackets

end Cl8yDex.Router
