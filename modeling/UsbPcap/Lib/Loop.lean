import Mathlib.Computability.StateTransition
import Mathlib.Tactic.Common

/-!
# Loops

A loop takes the steps of a partial function until there is none. With fuel it can be executed, and
enough fuel gives the state in which the steps end.
-/

namespace Loop

open StateTransition

variable {σ : Type*} {step : σ → Option σ}

/-- The state in which the steps end, if there are fewer than `fuel`. -/
def run (step : σ → Option σ) : ℕ → σ → Option σ
  | 0, _ => none
  | fuel + 1, s =>
    match step s with
    | none => some s
    | some t => run step fuel t

theorem reaches_head {s t u : σ} (h : step s = some t) (hrest : Reaches step t u) :
    Reaches step s u :=
  Relation.ReflTransGen.head h hrest

theorem reaches_tail {s t u : σ} (hfront : Reaches step s t) (h : step t = some u) :
    Reaches step s u :=
  Relation.ReflTransGen.tail hfront h

theorem reaches_trans {s t u : σ} (hfront : Reaches step s t) (hrest : Reaches step t u) :
    Reaches step s u :=
  Relation.ReflTransGen.trans hfront hrest

/-- Enough fuel gives the state in which the steps end. -/
theorem run_of_reaches {s t : σ} (h : Reaches step s t) (hstop : step t = none) :
    ∃ n, ∀ fuel, n ≤ fuel → run step fuel s = some t := by
  induction h using Relation.ReflTransGen.head_induction_on with
  | refl =>
    refine ⟨1, fun fuel hfuel => ?_⟩
    obtain ⟨fuel, rfl⟩ := Nat.exists_eq_succ_of_ne_zero (Nat.one_le_iff_ne_zero.mp hfuel)
    rw [run, hstop]
  | head hstep _ ih =>
    obtain ⟨n, hn⟩ := ih
    refine ⟨n + 1, fun fuel hfuel => ?_⟩
    obtain ⟨fuel, rfl⟩ := Nat.exists_eq_add_of_le' (Nat.le_of_add_left_le hfuel)
    rw [run, show step _ = some _ from hstep]
    exact hn fuel (Nat.le_of_succ_le_succ hfuel)

end Loop
