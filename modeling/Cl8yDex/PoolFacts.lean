import Cl8yDex.ConstantProduct
import Cl8yDex.PoolMath

/-!
# The pool leg and its re-checks

Whatever the quote accepts, the execution accepts: the product never falls, it rises by less than
the new input reserve, and the commission is rounded down by less than one unit.
-/

namespace Cl8yDex

open Outcome

variable {i o x fee : ℕ} {leg : PoolLeg} {ctx : String}

theorem ceilDivU256_eq {n d : ℕ} (hd : 0 < d) : ceilDivU256 n d = n ⌈/⌉ d := by
  have hmod := Nat.div_add_mod n d
  have hlt := Nat.mod_lt n hd
  rw [Nat.mul_comm] at hmod
  simp only [ceilDivU256]
  refine le_antisymm ?_ ((ceilDiv_le_iff_le_mul hd).2 ?_)
  · by_contra h
    rw [not_le] at h
    have hle : n ≤ d * (n ⌈/⌉ d) := (ceilDiv_le_iff_le_mul hd).1 le_rfl
    split_ifs at h with hr
    · have h1 : d * (n ⌈/⌉ d) ≤ d * (n / d) := Nat.mul_le_mul_left d (Nat.lt_succ_iff.1 h)
      rw [Nat.mul_comm d (n / d)] at h1
      omega
    · have h1 : d * (n ⌈/⌉ d + 1) ≤ d * (n / d) := Nat.mul_le_mul_left d h
      rw [Nat.mul_comm d (n / d), Nat.mul_add] at h1
      omega
  · split_ifs with hr
    · rw [Nat.mul_add, Nat.mul_comm d]
      omega
    · rw [Nat.mul_comm d]
      omega

/-- What a priced pool leg is. -/
structure PoolLeg.Priced (i o x fee : ℕ) (leg : PoolLeg) : Prop where
  reserves : 0 < i ∧ 0 < o
  inRange : i + x ≤ u128Max
  fee_le : fee ≤ 10000
  input : leg.input = x
  gross : leg.grossOutput = ConstantProduct.output i o x
  commission : leg.commissionAmount = leg.grossOutput * fee / 10000
  split : leg.returnAmount + leg.commissionAmount = leg.grossOutput

theorem poolOutput_eq_ok {k ni no g : ℕ} (h : poolOutput i o x ctx = .ok (k, ni, no, g)) :
    0 < i ∧ 0 < o ∧ k = i * o ∧ ni = i + x ∧ i + x ≤ u128Max ∧
      no = ConstantProduct.reserveAfter i o x ∧ no ≤ u128Max ∧
      g = ConstantProduct.output i o x := by
  unfold poolOutput at h
  obtain ⟨_, h1, h⟩ := bind_eq_ok.1 h
  obtain ⟨k', h2, h⟩ := bind_eq_ok.1 h
  obtain ⟨ni', h3, h⟩ := bind_eq_ok.1 h
  obtain ⟨no', h4, h⟩ := bind_eq_ok.1 h
  obtain ⟨g', h5, h⟩ := bind_eq_ok.1 h
  obtain ⟨hi, ho⟩ := ensure_eq_ok.1 h1
  have hi := Nat.pos_of_ne_zero hi
  have ho := Nat.pos_of_ne_zero ho
  obtain rfl : k' = i * o := by
    unfold mul256OrOverflow checkedMul256 at h2
    split_ifs at h2
    · exact (Except.ok.inj h2).symm
    · cases h2
  obtain ⟨hle, rfl⟩ := addOrOverflow_eq_ok.1 h3
  unfold narrowU128 at h4
  split_ifs at h4 with hn
  cases h4
  rw [ceilDivU256_eq (Nat.add_pos_left hi x)] at hn h5 h
  obtain ⟨-, rfl⟩ := subOrOverflow_eq_ok.1 h5
  cases h
  exact ⟨hi, ho, rfl, rfl, hle, rfl, hn, rfl⟩

theorem mul256_eq_ok {a b c : ℕ} : mul256OrOverflow a b = .ok c ↔ a * b ≤ u256Max ∧ c = a * b := by
  unfold mul256OrOverflow checkedMul256
  split_ifs with h <;> simp [h, orThrow, eq_comm]

theorem mul256_of_le {a b : ℕ} (h : a * b ≤ u256Max) : mul256OrOverflow a b = .ok (a * b) :=
  mul256_eq_ok.2 ⟨h, rfl⟩

theorem poolCommission_eq_ok {gross c : ℕ} (h : poolCommission gross fee = .ok c) :
    fee ≤ 10000 ∧ c = gross * fee / 10000 ∧ gross * fee ≤ u256Max := by
  unfold poolCommission at h
  obtain ⟨_, h1, h⟩ := bind_eq_ok.1 h
  obtain ⟨s, h2, h⟩ := bind_eq_ok.1 h
  obtain ⟨_, h3, h⟩ := bind_eq_ok.1 h
  obtain ⟨hle, rfl⟩ := mul256_eq_ok.1 h2
  cases h
  exact ⟨ensure_eq_ok.1 h1, rfl, hle⟩

theorem simulatePoolLeg_eq_ok (hx : x ≠ 0) (h : simulatePoolLeg i o x fee = .ok leg) :
    leg.Priced i o x fee := by
  unfold simulatePoolLeg at h
  rw [if_neg hx] at h
  obtain ⟨⟨k, ni, no, g⟩, h1, h⟩ := bind_eq_ok.1 h
  obtain ⟨c, h2, h⟩ := bind_eq_ok.1 h
  obtain ⟨r, h3, h⟩ := bind_eq_ok.1 h
  obtain ⟨s, h4, h⟩ := bind_eq_ok.1 h
  obtain ⟨hi, ho, -, -, hle, -, -, rfl⟩ := poolOutput_eq_ok h1
  obtain ⟨hfee, rfl, -⟩ := poolCommission_eq_ok h2
  obtain ⟨hcle, rfl⟩ := subOrOverflow_eq_ok.1 h3
  cases h
  exact ⟨⟨hi, ho⟩, hle, hfee, rfl, rfl, rfl, Nat.sub_add_cancel hcle⟩

theorem poolOutput_ctx (ctx' : String) {out : ℕ × ℕ × ℕ × ℕ}
    (h : poolOutput i o x ctx = .ok out) : poolOutput i o x ctx' = .ok out := by
  unfold poolOutput at h ⊢
  obtain ⟨u, h1, h⟩ := bind_eq_ok.1 h
  obtain ⟨k, h2, h⟩ := bind_eq_ok.1 h
  obtain ⟨ni, h3, h⟩ := bind_eq_ok.1 h
  obtain ⟨no, h4, h⟩ := bind_eq_ok.1 h
  have h4' : narrowU128 (ceilDivU256 k ni) ctx' = .ok no := by
    unfold narrowU128 at h4 ⊢
    split_ifs at h4 ⊢
    exact h4
  rw [h1, ok_bind, h2, ok_bind, h3, ok_bind, h4', ok_bind]
  exact h

/-- The execution's re-checks never fail where the quote succeeds. -/
theorem executePoolLeg_eq_ok_iff :
    executePoolLeg i o x fee = .ok leg ↔ simulatePoolLeg i o x fee = .ok leg := by
  unfold executePoolLeg simulatePoolLeg
  by_cases hx : x = 0
  · rw [if_pos hx, if_pos hx]
  rw [if_neg hx, if_neg hx]
  constructor
  · intro h
    obtain ⟨⟨k, ni, no, g⟩, h1, h⟩ := bind_eq_ok.1 h
    obtain ⟨_, -, h⟩ := bind_eq_ok.1 h
    obtain ⟨_, -, h⟩ := bind_eq_ok.1 h
    obtain ⟨_, -, h⟩ := bind_eq_ok.1 h
    obtain ⟨c, h2, h⟩ := bind_eq_ok.1 h
    obtain ⟨r, h3, h⟩ := bind_eq_ok.1 h
    obtain ⟨_, -, h⟩ := bind_eq_ok.1 h
    obtain ⟨_, -, h⟩ := bind_eq_ok.1 h
    obtain ⟨_, -, h⟩ := bind_eq_ok.1 h
    simp only [poolOutput_ctx "sim new_output_reserve" h1, ok_bind, h2, h3]
    exact h
  · intro h
    obtain ⟨⟨k, ni, no, g⟩, h1, h⟩ := bind_eq_ok.1 h
    obtain ⟨c, h2, h⟩ := bind_eq_ok.1 h
    obtain ⟨hi, ho, rfl, rfl, hle, hno, hnole, rfl⟩ := poolOutput_eq_ok h1
    obtain ⟨hfee, rfl, hscaled⟩ := poolCommission_eq_ok h2
    set g := ConstantProduct.output i o x with hg
    have hk : i * o ≤ (i + x) * no := hno ▸ ConstantProduct.product_le hi
    have hlt : (i + x) * no < i * o + (i + x) := hno ▸ ConstantProduct.product_lt hi ho
    have hk256 : (i + x) * no ≤ u256Max := (Nat.mul_le_mul hle hnole).trans (by decide)
    have hmod := Nat.div_add_mod (g * fee) 10000
    have hmodlt := Nat.mod_lt (g * fee) (by decide : 0 < 10000)
    have htaken : g * fee / 10000 * 10000 ≤ u256Max := by omega
    simp only [poolOutput_ctx "swap new_output_reserve" h1, ok_bind, h2,
      mul256_of_le hk256, mul256_of_le hscaled, mul256_of_le htaken]
    rw [ensure_pos hk, ok_bind, ensure_pos (by omega), ok_bind]
    obtain ⟨r, h3, h⟩ := bind_eq_ok.1 h
    rw [h3, ok_bind, ensure_pos (by omega), ok_bind]
    exact h

end Cl8yDex
