import Mathlib.Data.List.Basic

/-!
# Runs of a system

A system is a step function on states and actions; a run applies a list of actions from left to
right. What every step preserves, every run preserves, and what every step relates reflexively and
transitively, every run relates.
-/

set_option autoImplicit false
set_option relaxedAutoImplicit false

namespace WebLens.Lib

variable {σ α : Type*} (step : σ → α → σ)

/-- The state after the actions. -/
def run (s : σ) (actions : List α) : σ :=
  actions.foldl step s

@[simp]
theorem run_nil (s : σ) : run step s [] = s := rfl

@[simp]
theorem run_cons (s : σ) (action : α) (actions : List α) :
    run step s (action :: actions) = run step (step s action) actions := rfl

theorem run_append (s : σ) (first second : List α) :
    run step s (first ++ second) = run step (run step s first) second :=
  List.foldl_append

theorem run_concat (s : σ) (actions : List α) (action : α) :
    run step s (actions ++ [action]) = step (run step s actions) action :=
  run_append step s actions [action]

variable {step}

/-- What every step preserves, every run preserves. -/
theorem run_invariant {P : σ → Prop} (hstep : ∀ s action, P s → P (step s action))
    {s : σ} (h : P s) (actions : List α) : P (run step s actions) := by
  induction actions generalizing s with
  | nil => exact h
  | cons action actions ih => exact ih (hstep s action h)

/-- A relation that is reflexive, transitive and respected by the steps from states that satisfy an
invariant relates the ends of every run from such a state. -/
theorem run_relation {P : σ → Prop} {R : σ → σ → Prop}
    (hP : ∀ s action, P s → P (step s action)) (hstep : ∀ s action, P s → R s (step s action))
    (hrefl : ∀ s, R s s) (htrans : ∀ {s₁ s₂ s₃}, R s₁ s₂ → R s₂ s₃ → R s₁ s₃)
    {s : σ} (h : P s) (actions : List α) : R s (run step s actions) := by
  induction actions generalizing s with
  | nil => exact hrefl s
  | cons action actions ih => exact htrans (hstep s action h) (ih (hP s action h))

end WebLens.Lib
