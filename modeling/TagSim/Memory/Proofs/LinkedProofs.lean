import TagSim.Memory.Linked

/-!
# Properties of linked lists

A pointer leads through one list at most, and no member of it occurs twice. A change of the memory
outside the list does not affect it.
-/

namespace TagSim.Memory

universe u

variable {ι : Type u} {next next' : ι → Option (Option ι)} {p : Option ι} {l l' : List ι} {i : ι}

namespace Linked

theorem unique (h : Linked next p l) (h' : Linked next p l') : l = l' := by
  induction l generalizing p l' with
  | nil =>
    cases l' with
    | nil => rfl
    | cons j l' =>
      obtain rfl : p = none := h
      cases h'.1
  | cons i l ih =>
    obtain ⟨rfl, n, hn, h⟩ := h
    cases l' with
    | nil => cases h'
    | cons j l' =>
      obtain ⟨hij, m, hm, h'⟩ := h'
      obtain rfl := Option.some.inj hij
      obtain rfl := Option.some.inj (hn.symm.trans hm)
      rw [ih h h']

/-- From any member on, the list leads to null. -/
theorem from_mem (h : Linked next p l) (hi : i ∈ l) :
    ∃ l', Linked next (some i) l' ∧ l'.length ≤ l.length := by
  induction l generalizing p with
  | nil => cases hi
  | cons j l ih =>
    obtain ⟨rfl, n, hn, hl⟩ := h
    rcases List.mem_cons.mp hi with rfl | hi
    · exact ⟨i :: l, ⟨rfl, n, hn, hl⟩, Nat.le_refl _⟩
    · obtain ⟨l', hl', hle⟩ := ih hl hi
      exact ⟨l', hl', Nat.le_succ_of_le hle⟩

theorem nodup (h : Linked next p l) : l.Nodup := by
  induction l generalizing p with
  | nil => exact List.nodup_nil
  | cons i l ih =>
    obtain ⟨rfl, n, hn, hl⟩ := h
    refine List.nodup_cons.mpr ⟨fun hi => ?_, ih hl⟩
    -- a second occurrence would lead to null in fewer steps
    obtain ⟨l', hl', hle⟩ := hl.from_mem hi
    have heq : i :: l = l' := unique ⟨rfl, n, hn, hl⟩ hl'
    rw [← heq, List.length_cons] at hle
    omega

theorem allocated (h : Linked next p l) (hi : i ∈ l) : (next i).isSome := by
  obtain ⟨l', hl', -⟩ := h.from_mem hi
  cases l' with
  | nil => cases hl'
  | cons j l' =>
    obtain ⟨hij, n, hn, -⟩ := hl'
    rw [Option.some.inj hij, hn]
    rfl

/-- The memory may change outside the list. -/
theorem congr (h : Linked next p l) (hnext : ∀ i ∈ l, next' i = next i) : Linked next' p l := by
  induction l generalizing p with
  | nil => exact h
  | cons i l ih =>
    obtain ⟨rfl, n, hn, hl⟩ := h
    refine ⟨rfl, n, ?_, ih hl fun j hj => hnext j (List.mem_cons_of_mem _ hj)⟩
    rw [hnext i (List.mem_cons_self ..)]
    exact hn

end Linked

end TagSim.Memory
