import Mathlib.Data.Finset.Basic

/-!
# Ownership ledgers

A history of acquisitions and releases, newest move first, and what is held after it. A history that
acquires what is held, or releases what is not, has no holdings. It is settled when it ends with nothing
held: then every acquisition was followed by exactly one release before the next acquisition of the same
thing, and nothing else was released.
-/

namespace TagSim.Ownership

universe u

inductive Move (ι : Type u) where
  | acquire (i : ι)
  | release (i : ι)

variable {ι : Type u} [DecidableEq ι]

/-- What is held after a history. -/
def holdings : List (Move ι) → Option (Finset ι)
  | [] => some ∅
  | .acquire i :: ms => (holdings ms).bind fun s => if i ∈ s then none else some (insert i s)
  | .release i :: ms => (holdings ms).bind fun s => if i ∈ s then some (s.erase i) else none

/-- Everything acquired was released exactly once, and nothing else was released. -/
def Settled (ms : List (Move ι)) : Prop := holdings ms = some ∅

instance (ms : List (Move ι)) : Decidable (Settled ms) :=
  inferInstanceAs (Decidable (holdings ms = some ∅))

/-- The history `ms` followed by the release of the members of a list, the first one first. -/
def releaseAll : List ι → List (Move ι) → List (Move ι)
  | [], ms => ms
  | i :: l, ms => releaseAll l (.release i :: ms)

end TagSim.Ownership
