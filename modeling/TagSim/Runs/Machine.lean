import Mathlib.Data.List.Basic

/-!
# Machines and their runs

A machine is a partial step function: `step s a` is the state after the action `a`, or `none` when `a`
cannot happen in `s`. An action carries everything the environment decides (the answers of system
calls, the choice of the next event), so that a run is a list of actions and every property of a run
can be computed.

`AllStates P` says that `P` holds in every state a run passes through, `AllSteps C` that `C` holds of
every step it takes.
-/

namespace TagSim

universe u v

/-- A machine with states `σ` and actions `α`. -/
structure Machine (σ : Type u) (α : Type v) where
  /-- The state after an action, `none` when the action is not possible. -/
  step : σ → α → Option σ

namespace Machine

variable {σ : Type u} {α : Type v} (M : Machine σ α)

/-- The state reached from `s` by the actions `as`, `none` when one of them is not possible. -/
def run : σ → List α → Option σ
  | s, [] => some s
  | s, a :: as => (M.step s a).bind fun s' => run s' as

/-- `P` holds in every state that the run `as` from `s` passes through, `s` and the last one included. -/
def AllStates (P : σ → Prop) : σ → List α → Prop
  | s, [] => P s
  | s, a :: as => P s ∧ ∀ s', M.step s a = some s' → AllStates P s' as

/-- `C` holds of every step that the run `as` from `s` takes. -/
def AllSteps (C : σ → α → Prop) : σ → List α → Prop
  | _, [] => True
  | s, a :: as => C s a ∧ ∀ s', M.step s a = some s' → AllSteps C s' as

end Machine

end TagSim
