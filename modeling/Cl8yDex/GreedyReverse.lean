import Cl8yDex.Arithmetic
import Cl8yDex.Outcome

/-!
# The router's search for a greedy offer

An offer is looked for whose simulated output reaches a target. The bracket is doubled until it
holds one, the offer just below is tried, and only then the bracket is halved. The answers are
cached, so no offer is simulated twice and none is that the caller has not paid for.
-/

namespace Cl8yDex.Router

open Outcome

inductive ReverseError (ε : Type)
  /-- The nested query failed. -/
  | nested (e : ε)
  | reverseTargetInfeasible
  | abort
  | outOfSteps
  deriving DecidableEq

/-- The cached answers, and the offers that were simulated, in this order. -/
structure Probes where
  cache : ℕ → Option ℕ
  calls : List ℕ

def Probes.start : Probes := ⟨Function.update (fun _ => none) 0 (some 0), []⟩

/-- The answer to an offer is added. -/
def Probes.learn (p : Probes) (offer value : ℕ) : Probes :=
  ⟨Function.update p.cache offer (some value), p.calls ++ [offer]⟩

section Search

variable {ε : Type} (target : ℕ) (simulate : ℕ → Except ε ℕ)

def Probes.output (p : Probes) (offer : ℕ) : Except (ReverseError ε) ℕ × Probes :=
  match p.cache offer with
  | some value => (.ok value, p)
  | none =>
      match simulate offer with
      | .ok value => (.ok value, p.learn offer value)
      | .error e => (.error (.nested e), { p with calls := p.calls ++ [offer] })

/-- The upper end is doubled until its output reaches the target. -/
def expand : ℕ → ℕ → ℕ → Probes → Except (ReverseError ε) (ℕ × ℕ) × Probes
  | 0, _, _, p => (.error .outOfSteps, p)
  | steps + 1, lo, hi, p =>
      match p.output simulate hi with
      | (.error e, p) => (.error e, p)
      | (.ok value, p) =>
          if target ≤ value then (.ok (lo, hi), p)
          else
            let next := (checkedMul hi 2).getD u128Max
            if next = hi then (.error .reverseTargetInfeasible, p)
            else expand steps hi next p

/-- The bracket is halved until its ends are neighbours. -/
def bisect : ℕ → ℕ → ℕ → Probes → Except (ReverseError ε) ℕ × Probes
  | steps, lo, hi, p =>
      match checkedSub hi lo with
      | none => (.error .abort, p)
      | some width =>
          if width ≤ 1 then (.ok hi, p)
          else
            match steps, checkedAdd lo (width / 2) with
            | 0, _ => (.error .outOfSteps, p)
            | _, none => (.error .abort, p)
            | steps + 1, some mid =>
                match p.output simulate mid with
                | (.error e, p) => (.error e, p)
                | (.ok value, p) =>
                    if target ≤ value then bisect steps lo mid p else bisect steps mid hi p

/-- Behind an upper end that suffices. -/
def settle (lo hi : ℕ) (p : Probes) : Except (ReverseError ε) ℕ × Probes :=
  if 1 < hi then
    match checkedSub hi 1 with
    | none => (.error .abort, p)
    | some below =>
        match p.output simulate below with
        | (.error e, p) => (.error e, p)
        | (.ok value, p) =>
            if value < target then (.ok hi, p) else bisect target simulate 128 lo hi p
  else bisect target simulate 128 lo hi p

def greedyReverseSearch (seed : ℕ) : Except (ReverseError ε) ℕ × Probes :=
  if target = 0 then (.ok 0, .start)
  else
    match expand target simulate 129 0 (max seed 1) .start with
    | (.error e, p) => (.error e, p)
    | (.ok bracket, p) => settle target simulate bracket.1 bracket.2 p

end Search

end Cl8yDex.Router
