import Mathlib.Data.List.Basic
import Mathlib.Data.List.Chain
import Mathlib.Data.Nat.ModEq
import Mathlib.Logic.Function.Basic
import Mathlib.Tactic.Common

/-!
# A ring of slots read from a moving start

`Holds m cap start l` says that the slots of `m`, read from `start` modulo `cap`, are the list `l`.
A write behind the last element lengthens the list until the ring is full, and replaces the first
element from then on. A ring that is read from slot zero may be enlarged in place.
-/

namespace RingBuffer

universe u

variable {α : Type u} {m : ℕ → Option α} {cap start : ℕ} {l : List α} {a x : α}

def Holds (m : ℕ → Option α) (cap start : ℕ) (l : List α) : Prop :=
  ∀ k, k < l.length → m ((start + k) % cap) = l[k]?

theorem slot_injective {i j : ℕ} (hi : i < cap) (hj : j < cap)
    (h : (start + i) % cap = (start + j) % cap) : i = j := by
  have hij : i ≡ j [MOD cap] := Nat.ModEq.add_left_cancel' start h
  rwa [Nat.ModEq, Nat.mod_eq_of_lt hi, Nat.mod_eq_of_lt hj] at hij

theorem Holds.nil : Holds m cap start [] := fun k hk => absurd hk (Nat.not_lt_zero k)

theorem holds_mod : Holds m cap (start % cap) l ↔ Holds m cap start l := by
  unfold Holds
  simp only [Nat.mod_add_mod]

/-- Every slot that is read is a stored element. -/
theorem Holds.get (h : Holds m cap start l) {k : ℕ} (hk : k < l.length) :
    m ((start + k) % cap) = some l[k] := by
  rw [h k hk, List.getElem?_eq_getElem hk]

/-- A write behind the last element of a ring with room. -/
theorem Holds.push (h : Holds m cap start l) (hl : l.length < cap) :
    Holds (Function.update m ((start + l.length) % cap) (some a)) cap start (l ++ [a]) := by
  intro k hk
  rw [List.length_append, List.length_singleton] at hk
  by_cases hkl : k = l.length
  · subst hkl
    rw [Function.update_self, List.getElem?_concat_length]
  · have hlt : k < l.length := by omega
    have hne : (start + k) % cap ≠ (start + l.length) % cap := fun he =>
      hkl (slot_injective (hlt.trans hl) hl he)
    rw [Function.update_of_ne hne, h k hlt, List.getElem?_append_left hlt]

/-- A write over the first element of a full ring. -/
theorem Holds.rotate (h : Holds m cap start (x :: l)) (hl : (x :: l).length = cap) :
    Holds (Function.update m (start % cap) (some a)) cap (start + 1) (l ++ [a]) := by
  rw [List.length_cons] at hl
  intro k hk
  rw [List.length_append, List.length_singleton] at hk
  by_cases hkl : k = l.length
  · subst hkl
    have hslot : (start + 1 + l.length) % cap = start % cap := by
      rw [show start + 1 + l.length = start + cap by omega, Nat.add_mod_right]
    rw [hslot, Function.update_self, List.getElem?_concat_length]
  · have hlt : k < l.length := by omega
    have hne : (start + 1 + k) % cap ≠ start % cap := by
      intro he
      rw [show start + 1 + k = start + (k + 1) by omega] at he
      have hk0 : k + 1 = 0 := slot_injective (show k + 1 < cap by omega) (show 0 < cap by omega) he
      omega
    have hold := h (k + 1) (by rw [List.length_cons]; omega)
    rw [show start + (k + 1) = start + 1 + k by omega, List.getElem?_cons_succ] at hold
    rw [Function.update_of_ne hne, hold, List.getElem?_append_left hlt]

/-- A ring that starts at slot zero keeps its contents when it is enlarged. -/
theorem Holds.grow {cap' : ℕ} (h : Holds m cap 0 l) (hl : l.length ≤ cap) (hcap : cap ≤ cap') :
    Holds m cap' 0 l := by
  intro k hk
  have hold := h k hk
  rw [Nat.mod_eq_of_lt (by omega)] at hold
  rwa [Nat.mod_eq_of_lt (by omega)]

/-- The contents after one more write: the list grows until the ring is full. -/
def push (cap : ℕ) (l : List α) (a : α) : List α :=
  if l.length < cap then l ++ [a] else l.tail ++ [a]

theorem push_ne_nil : push cap l a ≠ [] := by
  unfold push
  split_ifs <;> simp

theorem getLast?_push : (push cap l a).getLast? = some a := by
  unfold push
  split_ifs <;> simp

theorem mem_push (h : x ∈ push cap l a) : x ∈ l ∨ x = a := by
  unfold push at h
  split_ifs at h
  · simpa using h
  · rcases List.mem_append.1 h with h | h
    · exact .inl (List.mem_of_mem_tail h)
    · exact .inr (List.mem_singleton.1 h)

theorem length_push (hcap : 0 < cap) (hl : l.length ≤ cap) :
    (push cap l a).length = if l.length < cap then l.length + 1 else l.length := by
  unfold push
  split_ifs with h
  · simp
  · rw [List.length_append, List.length_tail, List.length_singleton]
    omega

theorem pairwise_push {R : α → α → Prop} (h : l.Pairwise R) (ha : ∀ x ∈ l, R x a) :
    (push cap l a).Pairwise R := by
  unfold push
  split_ifs
  · exact List.pairwise_append.2 ⟨h, List.pairwise_singleton R a, fun x hx y hy => by
      rw [List.mem_singleton.1 hy]
      exact ha x hx⟩
  · exact List.pairwise_append.2 ⟨h.tail, List.pairwise_singleton R a, fun x hx y hy => by
      rw [List.mem_singleton.1 hy]
      exact ha x (List.mem_of_mem_tail hx)⟩

theorem isChain_push {R : α → α → Prop} (h : l.IsChain R) (ha : ∀ x ∈ l.getLast?, R x a) :
    (push cap l a).IsChain R := by
  have happ : (l ++ [a]).IsChain R := List.isChain_append.2
    ⟨h, .singleton a, fun x hx y hy => by
      obtain rfl : a = y := by simpa using hy
      exact ha x hx⟩
  unfold push
  split_ifs
  · exact happ
  · cases l with
    | nil => exact .singleton a
    | cons x l => exact happ.tail

end RingBuffer
