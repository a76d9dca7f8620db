import TagSim.Runs.Typestate

/-!
# Rules for typestate protocols

- `phases_sets`, `phases_keeps`: one observation that sets a phase, or none.
- `phases_append`: several observations that set none.
-/

namespace TagSim

namespace Typestate

universe u v w

variable {ι : Type u} {π : Type v} {ο : Type w} [DecidableEq ι] [DecidableEq π] {P : Typestate ι π ο}
  {start f : ι → π} {h : List ο} {o : ο}

theorem phases_cons (hf : P.phases start h = some f) (hneeds : ∀ x ∈ P.needs o, f x.1 = x.2) :
    P.phases start (o :: h) = some (P.after o f) := by
  rw [phases, hf, Option.bind_some, if_pos hneeds]

/-- An observation that sets a phase. -/
theorem phases_sets {i : ι} {p : π} (hsets : P.sets o = some (i, p)) (hf : P.phases start h = some f)
    (hneeds : ∀ x ∈ P.needs o, f x.1 = x.2) :
    P.phases start (o :: h) = some (Function.update f i p) := by
  rw [phases_cons hf hneeds, after, hsets]

/-- An observation that sets none. -/
theorem phases_keeps (hsets : P.sets o = none) (hf : P.phases start h = some f)
    (hneeds : ∀ x ∈ P.needs o, f x.1 = x.2) : P.phases start (o :: h) = some f := by
  rw [phases_cons hf hneeds, after, hsets]

/-- Observations that set no phase. -/
theorem phases_append {pre : List ο} (hpre : ∀ o ∈ pre, P.sets o = none ∧ ∀ x ∈ P.needs o, f x.1 = x.2)
    (hf : P.phases start h = some f) : P.phases start (pre ++ h) = some f := by
  induction pre with
  | nil => exact hf
  | cons o pre ih =>
    obtain ⟨hsets, hneeds⟩ := hpre o (List.mem_cons_self ..)
    exact phases_keeps hsets (ih fun o ho => hpre o (List.mem_cons_of_mem _ ho)) hneeds

end Typestate

end TagSim
