import TagSim.Runs.Machine

/-!
# Transducers

A transducer is a machine that can take every operation in every state and answers it. Two transducers agree
on a list of operations when they give the same answers and end in states that correspond.
-/

namespace TagSim

universe u v w x

/-- A transducer with states `σ`, operations `α` and answers `β`. -/
structure Transducer (σ : Type u) (α : Type v) (β : Type w) where
  /-- The state after an operation and the answer to it. -/
  step : σ → α → σ × β

namespace Transducer

variable {σ : Type u} {τ : Type x} {α : Type v} {β : Type w}

/-- The state reached from `s` by the operations, and the answers to them. -/
def run (T : Transducer σ α β) : σ → List α → σ × List β
  | s, [] => (s, [])
  | s, a :: as => ((T.run (T.step s a).1 as).1, (T.step s a).2 :: (T.run (T.step s a).1 as).2)

/-- The machine that takes the steps without the answers. -/
def toMachine (T : Transducer σ α β) : Machine σ α where
  step s a := some (T.step s a).1

/-- The same answers, and states at the end that correspond. -/
def Agree (T : Transducer σ α β) (U : Transducer τ α β) (R : σ → τ → Prop) (s : σ) (t : τ) (as : List α) :
    Prop :=
  (T.run s as).2 = (U.run t as).2 ∧ R (T.run s as).1 (U.run t as).1

end Transducer

end TagSim
