import TagSim.Runs.Machine

/-!
# What a run adds up to

`total cost` is the sum of what the steps of a run cost, and `translate f` the list of all that they stand for
in another machine. A step that is not possible ends the run.
-/

namespace TagSim

universe u v w

namespace Machine

variable {σ : Type u} {α : Type v} (M : Machine σ α)

/-- What the steps that the actions lead through cost together. -/
def total (cost : σ → α → Nat) : σ → List α → Nat
  | _, [] => 0
  | s, a :: as => (M.step s a).elim 0 fun s' => cost s a + total cost s' as

/-- What the steps that the actions lead through stand for, in order. -/
def translate {β : Type w} (f : σ → α → List β) : σ → List α → List β
  | _, [] => []
  | s, a :: as => (M.step s a).elim [] fun s' => f s a ++ translate f s' as

end Machine

end TagSim
