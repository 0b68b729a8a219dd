import Mathlib.Logic.Relation
import Mathlib.Tactic.Common

/-!
# Interleaved programs

Programs that put requests to a shared server, one at a time, and may fail. Any number of them run
at once: a new one may start, one may get its next answer, which may change the state of the
server, and one may be given up. What every program keeps, every run keeps.
-/

namespace Interleaving

inductive Program (Request : Type) (Answer : Request → Type) (ε α : Type)
  | done (a : α)
  | fail (e : ε)
  | ask (r : Request) (next : Answer r → Program Request Answer ε α)

variable {Request : Type} {Answer : Request → Type} {ε α β σ : Type}

namespace Program

def bind : Program Request Answer ε α → (α → Program Request Answer ε β) →
    Program Request Answer ε β
  | done a, f => f a
  | fail e, _ => fail e
  | ask r next, f => ask r fun a => (next a).bind f

instance : Monad (Program Request Answer ε) where
  pure := done
  bind := bind

def request (r : Request) : Program Request Answer ε (Answer r) := ask r done

/-- What becomes of the state when a program runs by itself to its end. -/
def alone (reply : (r : Request) → σ → Answer r × σ) : Program Request Answer ε α → σ → σ
  | done _, s => s
  | fail _, s => s
  | ask r next, s => (next (reply r s).1).alone reply (reply r s).2

/-- What is left of a program, and the state, when at most `n` more requests are answered. -/
def served (reply : (r : Request) → σ → Answer r × σ) :
    ℕ → Program Request Answer ε α → σ → Program Request Answer ε α × σ
  | n + 1, ask r next, s => (next (reply r s).1).served reply n (reply r s).2
  | _, p, s => (p, s)

variable {serves : (r : Request) → σ → Answer r → σ → Prop} {Inv : σ → Prop}
  {Rel : σ → σ → Prop} {Q : α → Prop} {R : β → Prop}

/-- Whatever happens between its requests, each of them keeps the invariant and the relation of the
states around it, and the result is as told. -/
def Keeps (serves : (r : Request) → σ → Answer r → σ → Prop) (Inv : σ → Prop) (Rel : σ → σ → Prop)
    (Q : α → Prop) : Program Request Answer ε α → Prop
  | done a => Q a
  | fail _ => True
  | ask r next => ∀ s a s', Inv s → serves r s a s' →
      Inv s' ∧ Rel s s' ∧ (next a).Keeps serves Inv Rel Q

theorem Keeps.request {r : Request} {Q : Answer r → Prop}
    (h : ∀ s a s', Inv s → serves r s a s' → Inv s' ∧ Rel s s' ∧ Q a) :
    (request r : Program Request Answer ε (Answer r)).Keeps serves Inv Rel Q := h

theorem Keeps.bind {p : Program Request Answer ε α} {f : α → Program Request Answer ε β}
    (hp : p.Keeps serves Inv Rel Q) (hf : ∀ a, Q a → (f a).Keeps serves Inv Rel R) :
    (p >>= f).Keeps serves Inv Rel R := by
  induction p with
  | done a => exact hf a hp
  | fail e => exact trivial
  | ask r next ih =>
      intro s a s' hs hserves
      obtain ⟨hinv, hrel, hnext⟩ := hp s a s' hs hserves
      exact ⟨hinv, hrel, ih a hnext⟩

theorem Keeps.mono {p : Program Request Answer ε α} {Q' : α → Prop}
    (hp : p.Keeps serves Inv Rel Q) (h : ∀ a, Q a → Q' a) : p.Keeps serves Inv Rel Q' := by
  induction p with
  | done a => exact h a hp
  | fail e => exact trivial
  | ask r next ih =>
      intro s a s' hs hserves
      obtain ⟨hinv, hrel, hnext⟩ := hp s a s' hs hserves
      exact ⟨hinv, hrel, ih a hnext⟩

end Program

/-- The state of the server and what is left of each running program. -/
structure World (Request : Type) (Answer : Request → Type) (ε σ : Type) where
  state : σ
  running : List (Program Request Answer ε Unit)

inductive Step (serves : (r : Request) → σ → Answer r → σ → Prop)
    (Starts : Program Request Answer ε Unit → Prop) :
    World Request Answer ε σ → World Request Answer ε σ → Prop
  | start {w : World Request Answer ε σ} {p : Program Request Answer ε Unit} (hp : Starts p) :
      Step serves Starts w { w with running := p :: w.running }
  | answer {w : World Request Answer ε σ} {l₁ l₂ : List (Program Request Answer ε Unit)}
      {r : Request} {next : Answer r → Program Request Answer ε Unit} {a : Answer r} {s : σ}
      (hrunning : w.running = l₁ ++ .ask r next :: l₂) (hserves : serves r w.state a s) :
      Step serves Starts w ⟨s, l₁ ++ next a :: l₂⟩
  | drop {w : World Request Answer ε σ} {l₁ l₂ : List (Program Request Answer ε Unit)}
      {p : Program Request Answer ε Unit} (hrunning : w.running = l₁ ++ p :: l₂) :
      Step serves Starts w { w with running := l₁ ++ l₂ }

inductive Reachable (serves : (r : Request) → σ → Answer r → σ → Prop)
    (Starts : Program Request Answer ε Unit → Prop) (first : σ) :
    World Request Answer ε σ → Prop
  | first : Reachable serves Starts first ⟨first, []⟩
  | step {w w' : World Request Answer ε σ} (hw : Reachable serves Starts first w)
      (hs : Step serves Starts w w') : Reachable serves Starts first w'

section Runs

variable {serves : (r : Request) → σ → Answer r → σ → Prop}
  {Starts : Program Request Answer ε Unit → Prop} {Inv : σ → Prop} {Rel : σ → σ → Prop}
  {w w' : World Request Answer ε σ} {first : σ}

/-- The invariant holds, and what is left of each program keeps it. -/
def World.Kept (serves : (r : Request) → σ → Answer r → σ → Prop) (Inv : σ → Prop)
    (Rel : σ → σ → Prop) (w : World Request Answer ε σ) : Prop :=
  Inv w.state ∧ ∀ p ∈ w.running, p.Keeps serves Inv Rel fun _ => True

theorem Step.kept (hrefl : ∀ s, Rel s s)
    (hstarts : ∀ p, Starts p → p.Keeps serves Inv Rel fun _ => True)
    (hw : w.Kept serves Inv Rel) (hs : Step serves Starts w w') :
    w'.Kept serves Inv Rel ∧ Rel w.state w'.state := by
  obtain ⟨hinv, hall⟩ := hw
  cases hs with
  | start hp =>
      constructor
      · exact ⟨hinv, List.forall_mem_cons.2 ⟨hstarts _ hp, hall⟩⟩
      · exact hrefl _
  | @answer l₁ l₂ r next a s hrunning hserves =>
      have hask : Program.Keeps serves Inv Rel (fun _ => True) (.ask r next) :=
        hall _ (by rw [hrunning]; simp)
      obtain ⟨hstate, hrel, hnext⟩ := hask w.state a s hinv hserves
      refine ⟨⟨hstate, fun p hp => ?_⟩, hrel⟩
      rcases List.mem_append.1 hp with hp | hp
      · exact hall p (hrunning ▸ List.mem_append_left _ hp)
      · cases hp with
        | head => exact hnext
        | tail _ hp => exact hall p (hrunning ▸ List.mem_append_right _ (.tail _ hp))
  | @drop l₁ l₂ p hrunning =>
      constructor
      · refine ⟨hinv, fun q hq => hall q ?_⟩
        rw [hrunning]
        rcases List.mem_append.1 hq with hq | hq
        · exact List.mem_append_left _ hq
        · exact List.mem_append_right _ (.tail _ hq)
      · exact hrefl _

theorem Reachable.kept (hrefl : ∀ s, Rel s s)
    (hstarts : ∀ p, Starts p → p.Keeps serves Inv Rel fun _ => True) (hfirst : Inv first)
    (hw : Reachable serves Starts first w) : w.Kept serves Inv Rel := by
  induction hw with
  | first => exact ⟨hfirst, fun p hp => (List.not_mem_nil hp).elim⟩
  | step _ hs ih => exact (hs.kept hrefl hstarts ih).1

/-- Steps after one another are in the relation too when it is transitive. -/
theorem Reachable.related (hrefl : ∀ s, Rel s s) (htrans : ∀ {a b c}, Rel a b → Rel b c → Rel a c)
    (hstarts : ∀ p, Starts p → p.Keeps serves Inv Rel fun _ => True)
    (hw : w.Kept serves Inv Rel) (hrun : Relation.ReflTransGen (Step serves Starts) w w') :
    w'.Kept serves Inv Rel ∧ Rel w.state w'.state := by
  induction hrun with
  | refl => exact ⟨hw, hrefl _⟩
  | tail _ hs ih =>
      obtain ⟨hkept, hrel⟩ := hs.kept hrefl hstarts ih.1
      exact ⟨hkept, htrans ih.2 hrel⟩

theorem Step.drop_head (s : σ) (p : Program Request Answer ε Unit)
    (rest : List (Program Request Answer ε Unit)) :
    Step serves Starts ⟨s, p :: rest⟩ ⟨s, rest⟩ :=
  @Step.drop _ _ _ _ serves Starts ⟨s, p :: rest⟩ [] rest p rfl

theorem Step.answer_head {s s' : σ} {r : Request} {a : Answer r}
    {next : Answer r → Program Request Answer ε Unit}
    (rest : List (Program Request Answer ε Unit)) (hserves : serves r s a s') :
    Step serves Starts ⟨s, .ask r next :: rest⟩ ⟨s', next a :: rest⟩ :=
  @Step.answer _ _ _ _ serves Starts ⟨s, .ask r next :: rest⟩ [] rest r next a s' rfl hserves

/-- A program may start and run by itself. -/
theorem Reachable.alone {reply : (r : Request) → σ → Answer r × σ}
    (hreply : ∀ r s, serves r s (reply r s).1 (reply r s).2)
    (hw : Reachable serves Starts first w) {p : Program Request Answer ε Unit} (hp : Starts p) :
    Reachable serves Starts first ⟨p.alone reply w.state, w.running⟩ := by
  have hrun : ∀ s, Reachable serves Starts first ⟨s, p :: w.running⟩ →
      Reachable serves Starts first ⟨p.alone reply s, w.running⟩ := by
    clear hp
    induction p with
    | done a => exact fun s hs => hs.step (.drop_head s _ _)
    | fail e => exact fun s hs => hs.step (.drop_head s _ _)
    | ask r next ih =>
        intro s hs
        exact ih _ _ (hs.step (.answer_head _ (hreply r s)))
  exact hrun w.state (hw.step (.start hp))

/-- One of the running programs may get its next answers. -/
theorem Reachable.served {reply : (r : Request) → σ → Answer r × σ} {s : σ} (n : ℕ)
    (l₁ : List (Program Request Answer ε Unit)) {l₂ : List (Program Request Answer ε Unit)}
    {p : Program Request Answer ε Unit}
    (hreply : ∀ r s, serves r s (reply r s).1 (reply r s).2)
    (hw : Reachable serves Starts first ⟨s, l₁ ++ p :: l₂⟩) :
    Reachable serves Starts first ⟨(p.served reply n s).2, l₁ ++ (p.served reply n s).1 :: l₂⟩ := by
  induction n generalizing p s with
  | zero => cases p <;> exact hw
  | succ n ih =>
      cases p with
      | done a => exact hw
      | fail e => exact hw
      | ask r next => exact ih (hw.step (.answer rfl (hreply r s)))

end Runs

end Interleaving
