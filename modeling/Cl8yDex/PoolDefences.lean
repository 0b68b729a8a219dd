import Cl8yDex.ShareValue

/-!
# The bounds of a pool

Reserves and supply stay machine integers over whole runs, and Newton's iteration ends at the floor
of the square root.
-/

namespace Cl8yDex

open Outcome

section Sqrt

variable {n x : ℕ}

/-- One step of the iteration does not fall below the root. -/
theorem newton_above (hx : 0 < x) : n < ((x + n / x) / 2 + 1) * ((x + n / x) / 2 + 1) := by
  have hlt : n < x * (n / x + 1) := Nat.lt_mul_div_succ n hx
  have hsum : x + (n / x + 1) ≤ 2 * ((x + n / x) / 2 + 1) := by omega
  generalize n / x = q at hlt hsum ⊢
  generalize (x + q) / 2 = m at hsum ⊢
  have hamgm : 4 * (x * (q + 1)) ≤ (x + (q + 1)) * (x + (q + 1)) := by
    nlinarith [sq_nonneg ((x : ℤ) - (q + 1))]
  have hsquare : (x + (q + 1)) * (x + (q + 1)) ≤ (2 * (m + 1)) * (2 * (m + 1)) :=
    Nat.mul_le_mul hsum hsum
  have hfour : (2 * (m + 1)) * (2 * (m + 1)) = 4 * ((m + 1) * (m + 1)) := by ring
  omega

theorem isqrtLoop_spec (hn : 0 < n) (hx : 0 < x) (hroot : n < (x + 1) * (x + 1)) :
    isqrtLoop n x ((x + n / x) / 2) * isqrtLoop n x ((x + n / x) / 2) ≤ n ∧
      n < (isqrtLoop n x ((x + n / x) / 2) + 1) * (isqrtLoop n x ((x + n / x) / 2) + 1) := by
  induction x using Nat.strong_induction_on with
  | _ x ih =>
      rw [isqrtLoop]
      by_cases hlt : (x + n / x) / 2 < x
      · rw [if_pos hlt]
        have hpos : 0 < (x + n / x) / 2 := by
          rcases Nat.lt_or_ge 1 x with h1 | h1
          · generalize n / x = q
            omega
          · have hone : x = 1 := by omega
            rw [hone, Nat.div_one]
            omega
        exact ih _ hlt hpos (newton_above hx)
      · rw [if_neg hlt]
        have hle : x ≤ n / x := by omega
        exact ⟨(Nat.mul_le_mul_left x hle).trans (Nat.mul_div_le n x), hroot⟩

/-- The first estimate of the source is the step from the number itself. -/
theorem isqrtU256_spec (n : ℕ) :
    isqrtU256 n * isqrtU256 n ≤ n ∧ n < (isqrtU256 n + 1) * (isqrtU256 n + 1) := by
  unfold isqrtU256
  by_cases hzero : n = 0
  · rw [if_pos hzero, hzero]
    exact ⟨le_rfl, Nat.one_pos⟩
  · have hpos := Nat.pos_of_ne_zero hzero
    have hroot : n < (n + 1) * (n + 1) := by nlinarith
    have hfirst : (n + 1) / 2 = (n + n / n) / 2 := by rw [Nat.div_self hpos]
    rw [if_neg hzero, hfirst]
    exact isqrtLoop_spec hpos hpos hroot

theorem isqrt_le {b : ℕ} (h : n ≤ b * b) : isqrtU256 n ≤ b := by
  by_contra hgt
  have hle : (b + 1) * (b + 1) ≤ isqrtU256 n * isqrtU256 n :=
    Nat.mul_le_mul (not_le.1 hgt) (not_le.1 hgt)
  have hroot := (isqrtU256_spec n).1
  nlinarith

end Sqrt

/-- The reserves and the supply fit their fields. -/
structure PairStorage.Sized (p : PairStorage) : Prop where
  reserveA : p.reserves.1 ≤ u128Max
  reserveB : p.reserves.2 ≤ u128Max
  supply : p.totalLpSupply ≤ u128Max

section Sized

variable {p : PairStorage} {A : AbsBook} {q : Querier} {env : Env} {sender : Addr}
  {msg : ExecuteMsg} {out : PairStorage × Response}

theorem executeProvideLiquidity_sized {assets : Asset × Asset} {tolerance : Option Decimal}
    {receiver : Option Addr}
    (h : executeProvideLiquidity p q env sender assets tolerance receiver = .ok out) :
    out.1.Sized := by
  unfold executeProvideLiquidity at h
  obtain ⟨amounts, -, h⟩ := bind_eq_ok.1 h
  obtain ⟨_, -, h⟩ := bind_eq_ok.1 h
  obtain ⟨p', -, h⟩ := bind_eq_ok.1 h
  obtain ⟨lp, -, h⟩ := bind_eq_ok.1 h
  obtain ⟨_, -, h⟩ := bind_eq_ok.1 h
  obtain ⟨split, -, h⟩ := bind_eq_ok.1 h
  obtain ⟨_, -, h⟩ := bind_eq_ok.1 h
  obtain ⟨reserveA, hA, h⟩ := bind_eq_ok.1 h
  obtain ⟨reserveB, hB, h⟩ := bind_eq_ok.1 h
  obtain ⟨total, hT, h⟩ := bind_eq_ok.1 h
  obtain ⟨lpReceiver, -, h⟩ := bind_eq_ok.1 h
  obtain ⟨hfitA, rfl⟩ := addOrOverflow_eq_ok.1 hA
  obtain ⟨hfitB, rfl⟩ := addOrOverflow_eq_ok.1 hB
  obtain ⟨hfitT, rfl⟩ := addOrOverflow_eq_ok.1 hT
  cases h
  exact ⟨hfitA, hfitB, hfitT⟩

theorem Swapped.sized {token user : Addr} {amount bps : ℕ} {args : SwapArgs} {parts : SwapParts}
    (h : Swapped p A q env token user amount args bps out parts) (hs : p.Sized) :
    out.1.Sized := by
  have hreserves : out.1.reserves = parts.legs.reserves := by rw [h.stored]
  have htotal : out.1.totalLpSupply = p.totalLpSupply := by rw [h.stored]
  have hacc := h.accounts
  have hinput := hacc.input
  have houtput := hacc.output
  have hfits : inputReserve p.reserves parts.side + parts.legs.pool.input ≤ u128Max := by
    rcases hacc.pool with hnone | ⟨-, hpriced⟩
    · have hzero : parts.legs.pool.input = 0 := by
        rw [hnone]
        rfl
      have hle : inputReserve p.reserves parts.side ≤ u128Max := by
        cases parts.side with
        | bid => exact hs.reserveA
        | ask => exact hs.reserveB
      omega
    · exact hpriced.inRange
  have hA := hs.reserveA
  have hB := hs.reserveB
  have hT := hs.supply
  generalize parts.side = side at hinput houtput hfits
  rw [← hreserves] at hinput houtput
  cases side with
  | bid =>
      change out.1.reserves.1 = p.reserves.1 + parts.legs.pool.input at hinput
      change out.1.reserves.2 + parts.legs.pool.grossOutput = p.reserves.2 at houtput
      change p.reserves.1 + parts.legs.pool.input ≤ u128Max at hfits
      constructor <;> omega
  | ask =>
      change out.1.reserves.2 = p.reserves.2 + parts.legs.pool.input at hinput
      change out.1.reserves.1 + parts.legs.pool.grossOutput = p.reserves.1 at houtput
      change p.reserves.2 + parts.legs.pool.input ≤ u128Max at hfits
      constructor <;> omega

theorem execute_sized (hA : Healthy p A) (hs : p.Sized)
    (h : execute p q env sender msg = .ok out) : out.1.Sized := by
  have hserved := (execute_spec hA.rep hA.balanced msg).success h
  have hsame : ∀ p' : PairStorage, p'.reserves = p.reserves → p'.totalLpSupply = p.totalLpSupply →
      p'.Sized := by
    intro p' hreserves htotal
    constructor
    · rw [hreserves]
      exact hs.reserveA
    · rw [hreserves]
      exact hs.reserveB
    · rw [htotal]
      exact hs.supply
  cases hserved with
  | swapped bps parts hswap => exact hswap.sized hs
  | provided d _ =>
      obtain ⟨_, -, h⟩ := bind_eq_ok.1 h
      obtain ⟨_, -, h⟩ := bind_eq_ok.1 h
      obtain ⟨_, -, h⟩ := bind_eq_ok.1 h
      obtain ⟨_, -, h⟩ := bind_eq_ok.1 h
      exact executeProvideLiquidity_sized h
  | withdrawn hw =>
      rw [hw.stored]
      constructor
      · exact (Nat.sub_le _ _).trans hs.reserveA
      · exact (Nat.sub_le _ _).trans hs.reserveB
      · exact (Nat.sub_le _ _).trans hs.supply
  | booked _ stored _ => exact hsame _ (by rw [stored]) (by rw [stored])
  | grown _ => exact hsame _ rfl rfl
  | swept _ _ => exact hsame _ rfl rfl
  | governed _ _ stored _ => exact hsame _ (by rw [stored]) (by rw [stored])

theorem Pool.Reach.sized {s : Pool} (h : s.Reach) : s.storage.Sized := by
  induction h with
  | start h =>
      obtain ⟨-, -, hreserves, htotal⟩ := h.fresh
      constructor
      · rw [hreserves]
        exact Nat.zero_le _
      · rw [hreserves]
        exact Nat.zero_le _
      · rw [htotal]
        exact Nat.zero_le _
  | step hr hstep ih =>
      obtain ⟨A, hA⟩ := hr.healthy
      cases hstep with
      | call hcall _ => exact execute_sized hA ih hcall
      | burn _ => exact ih

end Sized

end Cl8yDex

/-!
## The pool's checks on itself

The pool re-checks its own roundings and narrows 256-bit results. On swaps and withdrawals these
checks are dead. On deposits two of them are alive: a share can outgrow its field while the deposit
fits the reserves, and the check of the largest possible root overflows.
-/

namespace Cl8yDex

open Outcome

/-- An error that a check of the pair on itself raises. -/
def ContractError.Violation (e : ContractError) : Prop := ∃ r, e = .invariantViolation r

theorem ensure_sound {P : Prop} [Decidable P] {e : ContractError} (he : ¬e.Violation) :
    Meets (ensure P e) (fun _ => P) (fun e => ¬e.Violation) :=
  meets_ensure fun _ => he

theorem orThrow_sound {α : Type} {x : Option α} {e : ContractError} (he : ¬e.Violation) :
    Meets (orThrow x e) (fun a => x = some a) (fun e => ¬e.Violation) :=
  meets_orThrow fun _ => he

section PoolLeg

variable {i o x fee n m : ℕ} {ctx : String}

theorem mul256_sound : Meets (mul256OrOverflow n m) (fun k => k = n * m)
    (fun e => ¬e.Violation) := by
  apply (orThrow_sound (by rintro ⟨_, ⟨⟩⟩)).self.weaken
  exact fun k hk => (mul256_eq_ok.1 hk.1).2

theorem sub_sound : Meets (subOrOverflow n m) (fun k => m ≤ n ∧ k = n - m)
    (fun e => ¬e.Violation) := by
  apply (orThrow_sound (by rintro ⟨_, ⟨⟩⟩)).self.weaken
  exact fun k hk => subOrOverflow_eq_ok.1 hk.1

theorem add_sound : Meets (addOrOverflow n m) (fun k => n + m ≤ u128Max ∧ k = n + m)
    (fun e => ¬e.Violation) := by
  apply (orThrow_sound (by rintro ⟨_, ⟨⟩⟩)).self.weaken
  exact fun k hk => addOrOverflow_eq_ok.1 hk.1

/-- The new output reserve is narrowed, and it is at most the old one. -/
theorem poolOutput_sound (ho : o ≤ u128Max) :
    Meets (poolOutput i o x ctx) (fun out => 0 < i ∧ 0 < o ∧ i + x ≤ u128Max ∧
      out = (i * o, i + x, ConstantProduct.reserveAfter i o x, ConstantProduct.output i o x))
      (fun e => ¬e.Violation) := by
  unfold poolOutput
  apply (ensure_sound (by rintro ⟨_, ⟨⟩⟩)).bind
  rintro _ ⟨hi, ho0⟩
  have hipos := Nat.pos_of_ne_zero hi
  apply mul256_sound.bind
  rintro k rfl
  apply add_sound.bind
  rintro newInput ⟨hroom, rfl⟩
  have hafter : (i * o) ⌈/⌉ (i + x) ≤ o := ConstantProduct.reserveAfter_le hipos
  have hnarrow : narrowU128 (ceilDivU256 (i * o) (i + x)) ctx = .ok ((i * o) ⌈/⌉ (i + x)) := by
    rw [ceilDivU256_eq (Nat.add_pos_left hipos x)]
    exact if_pos (hafter.trans ho)
  rw [hnarrow, ok_bind]
  apply sub_sound.bind
  rintro g ⟨-, rfl⟩
  exact ⟨hipos, Nat.pos_of_ne_zero ho0, hroom, rfl⟩

theorem poolCommission_sound : Meets (poolCommission n fee)
    (fun c => fee ≤ 10000 ∧ c = n * fee / 10000) (fun e => ¬e.Violation) := by
  unfold poolCommission
  apply (ensure_sound (by rintro ⟨_, ⟨⟩⟩)).bind
  intro _ hfee
  apply mul256_sound.bind
  rintro scaled rfl
  apply (ensure_sound (by rintro ⟨_, ⟨⟩⟩)).bind
  exact fun _ _ => ⟨hfee, rfl⟩

theorem spread_sound (g : ℕ) : Meets (spotLinearSpreadOverGross x i o g) (fun _ => True)
    (fun e => ¬e.Violation) := by
  unfold spotLinearSpreadOverGross
  apply (ensure_sound (by rintro ⟨_, ⟨⟩⟩)).bind
  intro _ _
  apply mul256_sound.bind
  intro product _
  exact (ensure_sound (by rintro ⟨_, ⟨⟩⟩)).bind fun _ _ => trivial

/-- The k checks and the commission check of a swap never fail. -/
theorem executePoolLeg_sound (ho : o ≤ u128Max) :
    Meets (executePoolLeg i o x fee) (fun _ => True) (fun e => ¬e.Violation) := by
  unfold executePoolLeg
  by_cases hx : x = 0
  · rw [if_pos hx]
    exact trivial
  rw [if_neg hx]
  apply (poolOutput_sound ho).bind
  rintro _ ⟨hi, hopos, hroom, rfl⟩
  dsimp only
  have hrises : i * o ≤ (i + x) * ConstantProduct.reserveAfter i o x :=
    ConstantProduct.product_le hi
  have hbound : (i + x) * ConstantProduct.reserveAfter i o x < i * o + (i + x) :=
    ConstantProduct.product_lt hi hopos
  apply mul256_sound.bind
  rintro newK rfl
  rw [ensure_pos hrises, ok_bind, ensure_pos (by omega), ok_bind]
  apply poolCommission_sound.bind
  rintro c ⟨hfee, rfl⟩
  apply sub_sound.bind
  rintro returned -
  apply mul256_sound.bind
  rintro scaled rfl
  apply mul256_sound.bind
  rintro taken rfl
  have hrest : ConstantProduct.output i o x * fee -
      ConstantProduct.output i o x * fee / 10000 * 10000 < 10000 := by
    have hmod := Nat.div_add_mod (ConstantProduct.output i o x * fee) 10000
    have hlt := Nat.mod_lt (ConstantProduct.output i o x * fee) (by decide : 0 < 10000)
    omega
  rw [ensure_pos hrest, ok_bind]
  exact (spread_sound _).bind fun _ _ => trivial

end PoolLeg

section Shares

variable {amount whole base n a b : ℕ} {ctx : String}

theorem floorShare_eq (ha : amount ≤ u128Max) (hw : whole ≤ u128Max) (hbase : 0 < base) :
    floorShare amount whole base ctx =
      if amount * whole / base ≤ u128Max then .ok (amount * whole, amount * whole / base)
      else .error (.invariantViolation (.exceedsU128 ctx (amount * whole / base))) := by
  have hproduct : amount * whole ≤ u256Max := (Nat.mul_le_mul ha hw).trans (by decide)
  have hquotient : divOrZero (amount * whole) base = .ok (amount * whole / base) :=
    divOrZero_eq_ok.2 ⟨hbase.ne', rfl⟩
  unfold floorShare narrowU128
  rw [mul256_of_le hproduct, ok_bind, hquotient, ok_bind]
  split_ifs <;> rfl

/-- What a floor division loses is less than its divisor. -/
theorem checkFloor_eq (hn : n ≤ u256Max) (hbase : 0 < base) (reason : ℕ → InvariantReason) :
    checkFloor n (n / base) base reason = .ok () := by
  have hle : n / base * base ≤ n := Nat.div_mul_le_self n base
  have hrest : n - n / base * base < base := by
    have hmod := Nat.div_add_mod n base
    have hlt := Nat.mod_lt n hbase
    rw [Nat.mul_comm] at hmod
    omega
  unfold checkFloor
  rw [mul256_of_le (hle.trans hn), ok_bind]
  exact ensure_pos hrest

theorem product_lt_square (ha : a ≤ u128Max) (hb : b ≤ u128Max) (h : ¬(a = u128Max ∧ b = u128Max)) :
    a * b < u128Max * u128Max := by
  have hpos : 0 < u128Max := by decide
  generalize u128Max = top at ha hb h hpos ⊢
  by_cases hatop : a = top
  · have hlt : b < top := by omega
    rw [hatop]
    exact Nat.mul_lt_mul_of_pos_left hlt hpos
  · have hlt : a < top := by omega
    calc a * b ≤ a * top := Nat.mul_le_mul_left a hb
      _ < top * top := Nat.mul_lt_mul_of_pos_right hlt hpos

/-- The root of every first deposit but the largest one passes its two-sided check. -/
theorem firstDepositLp_fits (ha : a ≤ u128Max) (hb : b ≤ u128Max)
    (h : ¬(a = u128Max ∧ b = u128Max)) :
    firstDepositLp a b = .ok (isqrtU256 (a * b)) ∧ isqrtU256 (a * b) < u128Max := by
  have hlt := product_lt_square ha hb h
  obtain ⟨hroot, hnext⟩ := isqrtU256_spec (a * b)
  have hsmall : isqrtU256 (a * b) < u128Max := by
    by_contra hge
    have hle := Nat.mul_le_mul (not_lt.1 hge) (not_lt.1 hge)
    omega
  have hproduct : a * b ≤ u256Max := (Nat.mul_le_mul ha hb).trans (by decide)
  have hnextmax : (isqrtU256 (a * b) + 1) * (isqrtU256 (a * b) + 1) ≤ u256Max :=
    (Nat.mul_le_mul hsmall hsmall).trans (by decide)
  refine ⟨?_, hsmall⟩
  unfold firstDepositLp narrowU128
  rw [mul256_of_le hproduct, ok_bind, if_pos hsmall.le, ok_bind,
    mul256_of_le (hroot.trans hproduct), ok_bind, ensure_pos hroot, ok_bind,
    mul256_of_le hnextmax, ok_bind, ensure_pos hnext]
  rfl

/-- The square above the largest root does not fit 256 bits. -/
theorem firstDepositLp_largest : firstDepositLp u128Max u128Max = .error .overflow := by
  have hroot : isqrtU256 (u128Max * u128Max) = u128Max := by
    have hle : isqrtU256 (u128Max * u128Max) ≤ u128Max := isqrt_le le_rfl
    obtain ⟨-, hnext⟩ := isqrtU256_spec (u128Max * u128Max)
    by_contra hne
    have hlt : isqrtU256 (u128Max * u128Max) + 1 ≤ u128Max := by omega
    have hsquare := Nat.mul_le_mul hlt hlt
    omega
  unfold firstDepositLp narrowU128
  rw [mul256_of_le (by decide), ok_bind, hroot, if_pos le_rfl, ok_bind, mul256_of_le (by decide),
    ok_bind, ensure_pos le_rfl, ok_bind]
  rfl

end Shares

end Cl8yDex
