import Mathlib.Logic.Function.Basic

/-!
# Typestate protocols

Things in phases. An observation needs some things to be in given phases and may put one of them into a new
phase. A history, newest first, follows the protocol when every observation finds what it needs; `phases` is
then the phase that each thing is in.
-/

namespace TagSim

universe u v w

/-- A protocol about things `ι` in phases `π`, followed by observations `ο`. -/
structure Typestate (ι : Type u) (π : Type v) (ο : Type w) where
  /-- The phases in which an observation must find things. -/
  needs : ο → List (ι × π)
  /-- The thing that an observation puts into a new phase. -/
  sets : ο → Option (ι × π)

namespace Typestate

variable {ι : Type u} {π : Type v} {ο : Type w} [DecidableEq ι] [DecidableEq π] (P : Typestate ι π ο)

/-- The phases after an observation. -/
def after (o : ο) (f : ι → π) : ι → π :=
  match P.sets o with
  | none => f
  | some (i, p) => Function.update f i p

/-- The phases after a history from the phases `start`, `none` when the protocol is not followed. -/
def phases (start : ι → π) : List ο → Option (ι → π)
  | [] => some start
  | o :: h => (phases start h).bind fun f =>
      if ∀ x ∈ P.needs o, f x.1 = x.2 then some (P.after o f) else none

end Typestate

end TagSim
