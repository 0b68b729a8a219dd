import Mathlib.Order.Bounds.Basic
import Mathlib.Order.Interval.Set.Basic

/-!
# The first input that reaches a target

An input has a level, which never falls as the input grows, and only some levels are good. A search
proposes inputs that no good input precedes. Where the level of a proposal is not good the whole
level can be skipped: the good inputs above the skipped level are all the good inputs there were.
-/

namespace Cl8yDex.FirstReaching

/-- A partial function without gaps in its domain, whose values do not fall. -/
def Rising (p : ℕ → Option ℕ) : Prop :=
  ∀ x y b, x ≤ y → p y = some b → ∃ a ≤ b, p x = some a

/-- The inputs that reach a target. -/
def reaching (f : ℕ → Option ℕ) (target : ℕ) : Set ℕ := {x | ∃ y, f x = some y ∧ target ≤ y}

/-- The inputs of a good level from `lower` on. -/
def good (p : ℕ → Option ℕ) (Q : ℕ → Prop) (lower : ℕ) : Set ℕ :=
  {x | ∃ o, p x = some o ∧ lower ≤ o ∧ Q o}

variable {p f g : ℕ → Option ℕ} {Q Q' : ℕ → Prop} {lower o x target wanted : ℕ}

theorem good_subset (h : ∀ o, Q' o → Q o) : good p Q' lower ⊆ good p Q lower :=
  fun _ ⟨o, hp, hle, hQ⟩ => ⟨o, hp, hle, h o hQ⟩

/-- An input of good level that no other one precedes is the first. -/
theorem isLeast_of_good (hp : p x = some o) (hle : lower ≤ o) (hQ : Q o)
    (hbound : x ∈ lowerBounds (good p Q lower)) : IsLeast (good p Q lower) x :=
  ⟨⟨o, hp, hle, hQ⟩, hbound⟩

/-- A level that is not good is skipped as a whole. -/
theorem good_skip (hrising : Rising p) (hp : p x = some o) (hle : lower ≤ o) (hQ : ¬Q o)
    (hbound : x ∈ lowerBounds (good p Q lower)) : good p Q (o + 1) = good p Q lower := by
  apply Set.Subset.antisymm
  · rintro y ⟨b, hb, hge, hgood⟩
    exact ⟨b, hb, by omega, hgood⟩
  · rintro y ⟨b, hb, hge, hgood⟩
    have hxy : x ≤ y := hbound ⟨b, hb, hge, hgood⟩
    obtain ⟨a, hab, ha⟩ := hrising x y b hxy hb
    have hoa : o = a := Option.some.inj (hp.symm.trans ha)
    have hne : o ≠ b := by
      rintro rfl
      exact hQ hgood
    exact ⟨b, hb, by omega, hgood⟩

/-- A bound on what the rest of a chain needs is a bound on what its head must deliver. -/
theorem reaching_bind_subset (h : wanted ∈ lowerBounds (reaching g target)) :
    reaching (fun x => (f x).bind g) target ⊆ reaching f wanted := by
  rintro x ⟨y, hy, hle⟩
  obtain ⟨z, hz, hgz⟩ := Option.bind_eq_some_iff.1 hy
  exact ⟨z, hz, h ⟨y, hgz, hle⟩⟩

end Cl8yDex.FirstReaching

/-!
## Inverting a chain backwards

A chain of rising partial functions is inverted from its end: each step asks the function before
for an input that reaches what the functions behind it need. What a step proposes precedes every
input that reaches the target of the whole chain, and reaches it wherever the chain has a value;
so it is the least such input if there is one.
-/

namespace Cl8yDex.FirstReaching

variable {f g : ℕ → Option ℕ} {target wanted w x : ℕ}

/-- One function after another. -/
def andThen (f g : ℕ → Option ℕ) (x : ℕ) : Option ℕ := (f x).bind g

def chain : List (ℕ → Option ℕ) → ℕ → Option ℕ
  | [], x => some x
  | f :: fs, x => andThen f (chain fs) x

/-- No input that reaches the target is smaller, and it reaches the target where it has a value. -/
structure Proposes (f : ℕ → Option ℕ) (target w : ℕ) : Prop where
  bound : w ∈ lowerBounds (reaching f target)
  reaches : ∀ y, f w = some y → target ≤ y

theorem andThen_eq_some {y : ℕ} : andThen f g x = some y ↔ ∃ a, f x = some a ∧ g a = some y :=
  Option.bind_eq_some_iff

theorem mem_reaching_andThen :
    x ∈ reaching (andThen f g) target ↔ ∃ a, f x = some a ∧ a ∈ reaching g target := by
  constructor
  · rintro ⟨y, hy, hle⟩
    obtain ⟨a, ha, hga⟩ := andThen_eq_some.1 hy
    exact ⟨a, ha, y, hga, hle⟩
  · rintro ⟨a, ha, y, hga, hle⟩
    exact ⟨y, andThen_eq_some.2 ⟨a, ha, hga⟩, hle⟩

theorem Rising.andThen (hf : Rising f) (hg : Rising g) : Rising (andThen f g) := by
  intro x y b hxy hb
  obtain ⟨c, hc, hgc⟩ := andThen_eq_some.1 hb
  obtain ⟨a, hac, ha⟩ := hf x y c hxy hc
  obtain ⟨d, hdb, hd⟩ := hg a c b hac hgc
  exact ⟨d, hdb, andThen_eq_some.2 ⟨a, ha, hd⟩⟩

theorem rising_chain {fs : List (ℕ → Option ℕ)} (h : ∀ f ∈ fs, Rising f) : Rising (chain fs) := by
  induction fs with
  | nil => exact fun x y b hxy hb => ⟨x, hxy.trans (Option.some.inj hb).le, rfl⟩
  | cons f fs ih =>
      have htail : Rising (chain fs) := ih fun g hg => h g (List.mem_cons_of_mem f hg)
      exact (h f List.mem_cons_self).andThen htail

theorem Proposes.of_isLeast (h : IsLeast (reaching f target) w) : Proposes f target w where
  bound := h.2
  reaches := by
    intro y hy
    obtain ⟨z, hz, hle⟩ := h.1
    exact hle.trans_eq (Option.some.inj (hz.symm.trans hy))

/-- What the head needs for a proposal to the tail is a proposal to both. -/
theorem Proposes.andThen (hg : Rising g) (htail : Proposes g target wanted)
    (hhead : Proposes f wanted w) : Proposes (andThen f g) target w where
  bound := by
    intro x hx
    exact hhead.bound (reaching_bind_subset htail.bound hx)
  reaches := by
    intro y hy
    obtain ⟨a, ha, hga⟩ := andThen_eq_some.1 hy
    -- the head may overshoot: the tail has a value at `wanted` too, since it has one above
    obtain ⟨b, hby, hb⟩ := hg wanted a y (hhead.reaches a ha) hga
    exact (htail.reaches b hb).trans hby

/-- Where the target can be reached at all, a proposal reaches it. -/
theorem Proposes.isLeast (hf : Rising f) (h : Proposes f target w)
    (hne : (reaching f target).Nonempty) : IsLeast (reaching f target) w := by
  obtain ⟨x, hx⟩ := hne
  have hle : w ≤ x := h.bound hx
  obtain ⟨y, hy, -⟩ := hx
  obtain ⟨b, -, hb⟩ := hf w x y hle hy
  exact ⟨⟨b, hb, h.reaches b hb⟩, h.bound⟩

theorem proposes_nil : Proposes (chain []) target target where
  bound := by
    rintro x ⟨y, hy, hle⟩
    exact hle.trans_eq (Option.some.inj hy).symm
  reaches := fun _ hy => (Option.some.inj hy).le

/-- A chain that reaches its target has a tail that does. -/
theorem reaching_tail (h : (reaching (andThen f g) target).Nonempty) :
    (reaching g target).Nonempty := by
  obtain ⟨x, hx⟩ := h
  obtain ⟨a, -, ha⟩ := mem_reaching_andThen.1 hx
  exact ⟨a, ha⟩

theorem reaching_head (htail : wanted ∈ lowerBounds (reaching g target))
    (h : (reaching (andThen f g) target).Nonempty) : (reaching f wanted).Nonempty :=
  h.mono (reaching_bind_subset htail)

/-- An input that reaches a positive target is positive, if nothing comes from nothing. -/
theorem pos_of_reaches (hzero : ∀ y, f 0 = some y → y = 0) (ht : 0 < target)
    (h : w ∈ reaching f target) : 0 < w := by
  obtain ⟨y, hy, hle⟩ := h
  rcases Nat.eq_zero_or_pos w with rfl | hpos
  · have hy0 := hzero y hy
    omega
  · exact hpos

end Cl8yDex.FirstReaching
