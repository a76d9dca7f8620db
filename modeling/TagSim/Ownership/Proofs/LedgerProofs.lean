import TagSim.Ownership.Ledger

/-!
# Rules for ledgers

- `holdings_acquire`, `holdings_release`: one move.
- `settled_releaseAll_iff`: a final release of a list settles a history exactly when the list is what is
  held, each member once.
-/

namespace TagSim.Ownership

universe u

variable {ι : Type u} [DecidableEq ι] {ms : List (Move ι)} {s : Finset ι} {i : ι}

theorem holdings_acquire (h : holdings ms = some s) (hi : i ∉ s) :
    holdings (.acquire i :: ms) = some (insert i s) := by
  rw [holdings, h, Option.bind_some, if_neg hi]

theorem holdings_release (h : holdings ms = some s) (hi : i ∈ s) :
    holdings (.release i :: ms) = some (s.erase i) := by
  rw [holdings, h, Option.bind_some, if_pos hi]

/-- A release of what is not held. -/
theorem holdings_release_eq_none (h : holdings ms = some s) (hi : i ∉ s) :
    holdings (.release i :: ms) = none := by
  rw [holdings, h, Option.bind_some, if_neg hi]

/-- A history that went wrong is not put right by releases. -/
theorem holdings_releaseAll_eq_none (l : List ι) (h : holdings ms = none) :
    holdings (releaseAll l ms) = none := by
  induction l generalizing ms with
  | nil => exact h
  | cons i l ih =>
    apply ih
    rw [holdings, h, Option.bind_none]

/-- Releasing the members of `l` settles a history exactly when `l` lists what is held, each once. -/
theorem settled_releaseAll_iff (l : List ι) (h : holdings ms = some s) :
    Settled (releaseAll l ms) ↔ l.Nodup ∧ ∀ i, i ∈ l ↔ i ∈ s := by
  induction l generalizing ms s with
  | nil =>
    rw [releaseAll, Settled, h, Option.some.injEq, Finset.eq_empty_iff_forall_notMem]
    simp
  | cons i l ih =>
    by_cases hi : i ∈ s
    · rw [releaseAll, ih (holdings_release h hi), List.nodup_cons]
      constructor
      · rintro ⟨hnodup, hmem⟩
        have hil : i ∉ l := fun hl => by simpa using (hmem i).mp hl
        refine ⟨⟨hil, hnodup⟩, fun j => ?_⟩
        by_cases hj : j = i
        · simp [hj, hi]
        · simp [hj, hmem j]
      · rintro ⟨⟨hil, hnodup⟩, hmem⟩
        refine ⟨hnodup, fun j => ?_⟩
        by_cases hj : j = i
        · simp [hj, hil]
        · simp [← hmem j, hj]
    · have hnone := holdings_releaseAll_eq_none l (holdings_release_eq_none h hi)
      constructor
      · intro hs
        rw [releaseAll, Settled, hnone] at hs
        cases hs
      · rintro ⟨-, hmem⟩
        exact absurd ((hmem i).mp (List.mem_cons_self ..)) hi

end TagSim.Ownership
