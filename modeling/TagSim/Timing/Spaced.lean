import Mathlib.Data.List.Chain

/-!
# Spaced times

The times at which something happened, newest first. They are spaced by a period when any two consecutive
ones are at least the period apart.
-/

namespace TagSim.Timing

universe u

variable {α : Type u} [Add α] [LE α]

/-- Any two consecutive times are at least `d` apart. -/
def Spaced (d : α) (l : List α) : Prop := l.IsChain fun later earlier => earlier + d ≤ later

/-- The times in the window of length `T` from `t` on, both ends included. -/
def window [DecidableLE α] (t T : α) (l : List α) : List α := l.filter fun x => t ≤ x ∧ x ≤ t + T

end TagSim.Timing
