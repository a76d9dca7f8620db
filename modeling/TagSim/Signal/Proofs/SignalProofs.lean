import Mathlib.Logic.Relation
import TagSim.Signal.Signal

/-!
# No raised flag is missed

The flag is raised before the token is put, and it is tested before the wait: where the waiter has missed the
flag the token is still to come, or it is there and nobody but the waiter takes it.
-/

namespace TagSim

namespace Signal

universe u

variable {ι : Type u} {s s' : Signal ι}

theorem sound_start : (start : Signal ι).Sound := ⟨nofun, nofun, nofun⟩

/-- A step keeps the invariant. -/
theorem Sound.step (h : s.Sound) (hs : Step s s') : s'.Sound := by
  cases hs with
  | raise i => exact ⟨h.idle, fun _ _ => Or.inr ⟨i, Set.mem_insert ..⟩, h.kept⟩
  | put i => exact ⟨h.idle, fun _ _ => Or.inl (Nat.succ_pos _), fun _ => Nat.succ_pos _⟩
  | wait hdown hdone =>
    refine ⟨fun _ => hdone, fun _ hraised => ?_, h.kept⟩
    rw [show s.raised = true from hraised] at hdown
    cases hdown
  | interrupt => exact ⟨nofun, nofun, h.kept⟩
  | wake told htold => exact ⟨nofun, nofun, htold⟩
  | take htold htoken =>
    have hnot : s.waiting ≠ true := by
      intro hwaiting
      rw [h.idle hwaiting] at htold
      cases htold
    exact ⟨fun hwaiting => absurd hwaiting hnot, fun hwaiting _ => absurd hwaiting hnot, nofun⟩

/-- Any number of steps keeps the invariant. -/
theorem Sound.steps (h : s.Sound) (hs : Relation.ReflTransGen Step s s') : s'.Sound := by
  induction hs with
  | refl => exact h
  | tail _ hstep ih => exact ih.step hstep

/-- A waiter that waits although the flag is raised, and no party has a token to put, has a token to take. -/
theorem Sound.tokens_pos (h : s.Sound) (hwaiting : s.waiting = true) (hraised : s.raised = true)
    (howing : s.owing = ∅) : 0 < s.tokens := by
  rcases h.heard hwaiting hraised with htokens | hsome
  · exact htokens
  · exact absurd howing hsome.ne_empty

end Signal

end TagSim
