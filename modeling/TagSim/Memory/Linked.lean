import Mathlib.Data.List.Basic

/-!
# Linked lists in a memory

A memory is seen through the successor of each address: `next i` is `none` when nothing is allocated at
`i`, and otherwise the pointer stored there, which is `none` for null.
-/

namespace TagSim.Memory

universe u

variable {ι : Type u}

/-- The pointer `p` leads through the members of a list, in order, to null. -/
def Linked (next : ι → Option (Option ι)) : Option ι → List ι → Prop
  | p, [] => p = none
  | p, i :: l => p = some i ∧ ∃ n, next i = some n ∧ Linked next n l

end TagSim.Memory
