import Mathlib.Tactic.Common

/-!
# Two-sided specifications of fallible computations

`Meets x Q E` says at once what a success and what a failure of `x` look like. The rules follow
the shape of `do` blocks, so a specification of a sequence is assembled from the specifications
of its parts, and the same pass that carries an invariant also excludes errors.
-/

namespace Outcome

universe u v

variable {ε : Type u} {α β : Type v}

/-- A success satisfies `Q` and a failure satisfies `E`. -/
def Meets (x : Except ε α) (Q : α → Prop) (E : ε → Prop) : Prop :=
  match x with
  | .ok a => Q a
  | .error e => E e

def ensure (p : Prop) [Decidable p] (e : ε) : Except ε Unit :=
  if p then .ok () else .error e

def orThrow (x : Option α) (e : ε) : Except ε α :=
  match x with
  | some a => .ok a
  | none => .error e

instance {x : Except ε α} {Q : α → Prop} {E : ε → Prop} [DecidablePred Q] [DecidablePred E] :
    Decidable (Meets x Q E) :=
  match x with
  | .ok a => inferInstanceAs (Decidable (Q a))
  | .error e => inferInstanceAs (Decidable (E e))

@[simp] theorem meets_ok (a : α) (Q : α → Prop) (E : ε → Prop) :
    Meets (.ok a) Q E ↔ Q a := Iff.rfl

@[simp] theorem meets_pure (a : α) (Q : α → Prop) (E : ε → Prop) :
    Meets (pure a) Q E ↔ Q a := Iff.rfl

theorem Meets.mono {x : Except ε α} {Q Q' : α → Prop} {E E' : ε → Prop} (h : Meets x Q E)
    (hQ : ∀ a, Q a → Q' a) (hE : ∀ e, E e → E' e) : Meets x Q' E' := by
  cases x with
  | ok a => exact hQ a h
  | error e => exact hE e h

theorem Meets.weaken {x : Except ε α} {Q Q' : α → Prop} {E : ε → Prop} (h : Meets x Q E)
    (hQ : ∀ a, Q a → Q' a) : Meets x Q' E := h.mono hQ fun _ he => he

theorem Meets.bind {x : Except ε α} {f : α → Except ε β} {Q : α → Prop} {R : β → Prop}
    {E : ε → Prop} (h : Meets x Q E) (hf : ∀ a, Q a → Meets (f a) R E) :
    Meets (x >>= f) R E := by
  cases x with
  | ok a => exact hf a h
  | error e => exact h

/-- An accepted computation has a value, for running a specification on a fixed input. -/
theorem Meets.accepted {x : Except ε α} {Q : α → Prop} (h : Meets x Q fun _ => False) :
    ∃ a, x = .ok a ∧ Q a := by
  cases x with
  | ok a => exact ⟨a, rfl, h⟩
  | error e => exact absurd h id

theorem Meets.success {x : Except ε α} {Q : α → Prop} {E : ε → Prop} {a : α} (h : Meets x Q E)
    (hx : x = .ok a) : Q a := by
  subst hx; exact h

theorem Meets.failure {x : Except ε α} {Q : α → Prop} {E : ε → Prop} {e : ε} (h : Meets x Q E)
    (hx : x = .error e) : E e := by
  subst hx; exact h

theorem meets_true (x : Except ε α) : Meets x (fun _ => True) (fun _ => True) := by
  cases x <;> exact trivial

/-- A success is the value of the computation itself. -/
theorem Meets.self {x : Except ε α} {Q : α → Prop} {E : ε → Prop} (h : Meets x Q E) :
    Meets x (fun a => x = .ok a ∧ Q a) E := by
  cases x with
  | ok a => exact ⟨rfl, h⟩
  | error e => exact h

theorem Meets.and {x : Except ε α} {Q Q' : α → Prop} {E E' : ε → Prop} (h : Meets x Q E)
    (h' : Meets x Q' E') : Meets x (fun a => Q a ∧ Q' a) (fun e => E e ∧ E' e) := by
  cases x with
  | ok a => exact ⟨h, h'⟩
  | error e => exact ⟨h, h'⟩

/-- What holds of every value, when nothing is said of a failure. -/
theorem meets_of_ok {x : Except ε α} {Q : α → Prop} (h : ∀ a, x = .ok a → Q a) :
    Meets x Q (fun _ => True) := by
  cases x with
  | ok a => exact h a rfl
  | error e => exact trivial

/-- What each step of a loop keeps, the loop keeps. -/
theorem Meets.foldlM {γ : Type u} {l : List γ} {f : α → γ → Except ε α} {I : α → Prop}
    {E : ε → Prop} (hstep : ∀ a c, I a → Meets (f a c) I E) {a : α} (h : I a) :
    Meets (l.foldlM f a) I E := by
  induction l generalizing a with
  | nil => exact h
  | cons c l ih => exact (hstep a c h).bind fun a' ha' => ih ha'

theorem meets_ensure {p : Prop} [Decidable p] {e : ε} {E : ε → Prop} (he : ¬p → E e) :
    Meets (ensure p e) (fun _ => p) E := by
  unfold ensure
  split_ifs with hp
  · exact hp
  · exact he hp

theorem meets_orThrow {x : Option α} {e : ε} {E : ε → Prop} (he : x = none → E e) :
    Meets (orThrow x e) (fun a => x = some a) E := by
  cases x with
  | some a => exact rfl
  | none => exact he rfl

theorem bind_eq_ok {x : Except ε α} {f : α → Except ε β} {b : β} :
    (x >>= f) = .ok b ↔ ∃ a, x = .ok a ∧ f a = .ok b := by
  cases x with
  | ok a =>
      constructor
      · exact fun h => ⟨a, rfl, h⟩
      · rintro ⟨_, ⟨⟩, h⟩
        exact h
  | error e =>
      constructor
      · intro h
        cases h
      · rintro ⟨_, ⟨⟩, _⟩

theorem bind_eq_error {x : Except ε α} {f : α → Except ε β} {e : ε} :
    (x >>= f) = .error e ↔ x = .error e ∨ ∃ a, x = .ok a ∧ f a = .error e := by
  cases x with
  | ok a =>
      constructor
      · exact fun h => .inr ⟨a, rfl, h⟩
      · rintro (h | ⟨_, ⟨⟩, h⟩)
        · cases h
        · exact h
  | error e' =>
      constructor
      · intro h
        cases h
        exact .inl rfl
      · rintro (h | ⟨_, ⟨⟩, _⟩)
        cases h
        rfl

@[simp] theorem ok_bind (a : α) (f : α → Except ε β) : ((.ok a : Except ε α) >>= f) = f a := rfl

@[simp] theorem error_bind (e : ε) (f : α → Except ε β) :
    ((.error e : Except ε α) >>= f) = .error e := rfl

@[simp] theorem orThrow_some (a : α) (e : ε) : orThrow (some a) e = .ok a := rfl

@[simp] theorem ensure_eq_ok {p : Prop} [Decidable p] {e : ε} {u : Unit} :
    ensure p e = .ok u ↔ p := by
  unfold ensure
  split_ifs with hp <;> simp [hp]

theorem ensure_pos {p : Prop} [Decidable p] {e : ε} (h : p) : ensure p e = .ok () := if_pos h

@[simp] theorem ensure_eq_error {p : Prop} [Decidable p] {e e' : ε} :
    ensure p e = .error e' ↔ ¬p ∧ e = e' := by
  unfold ensure
  split_ifs with hp <;> simp [hp]

@[simp] theorem orThrow_eq_ok {x : Option α} {e : ε} {a : α} :
    orThrow x e = .ok a ↔ x = some a := by
  cases x <;> simp [orThrow]

@[simp] theorem orThrow_eq_error {x : Option α} {e e' : ε} :
    orThrow x e = .error e' ↔ x = none ∧ e = e' := by
  cases x <;> simp [orThrow]

theorem toOption_eq_some {x : Except ε α} {a : α} : x.toOption = some a ↔ x = .ok a := by
  cases x <;> simp [Except.toOption]

end Outcome

/-!
## Computations that agree

Two fallible computations agree when they fail together and succeed with related values. The errors
themselves are not compared, so the rules let each side check in its own order and its own words.
-/

namespace Outcome

universe u v

variable {ε ε' : Type u} {α β γ δ : Type v} {x : Except ε α} {y : Except ε' β}
  {R : α → β → Prop} {S : γ → δ → Prop}

/-- Both fail, or both succeed and `R` relates the values. -/
def Agree (R : α → β → Prop) : Except ε α → Except ε' β → Prop
  | .ok a, .ok b => R a b
  | .error _, .error _ => True
  | _, _ => False

theorem Agree.bind {f : α → Except ε γ} {g : β → Except ε' δ} (h : Agree R x y)
    (hf : ∀ a b, R a b → Agree S (f a) (g b)) : Agree S (x >>= f) (y >>= g) := by
  cases x with
  | ok a =>
      cases y with
      | ok b => exact hf a b h
      | error e => exact h.elim
  | error e =>
      cases y with
      | ok b => exact h.elim
      | error e' => exact trivial

theorem Agree.success {a : α} (h : Agree R x y) (hx : x = .ok a) : ∃ b, y = .ok b ∧ R a b := by
  subst hx
  cases y with
  | ok b => exact ⟨b, rfl, h⟩
  | error e => exact h.elim

theorem Agree.failure {e : ε} (h : Agree R x y) (hx : x = .error e) : ∃ e', y = .error e' := by
  subst hx
  cases y with
  | ok b => exact h.elim
  | error e' => exact ⟨e', rfl⟩

/-- Two readings of one optional value. -/
theorem agree_orThrow (a : Option α) (e : ε) (e' : ε') :
    Agree (fun b c => a = some b ∧ c = b) (orThrow a e) (orThrow a e') := by
  cases a with
  | none => exact trivial
  | some a => exact ⟨rfl, rfl⟩

end Outcome
