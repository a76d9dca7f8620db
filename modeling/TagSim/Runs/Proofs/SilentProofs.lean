/-!
# Silent observations

A history is a list of observations, the latest one first. What one observation of a kind does not change, any
number of them in a row does not.
-/

namespace TagSim

universe u v

variable {α : Type u} {β : Type v} {P : α → Prop} {pre : List α}

/-- Where one observation relates the histories before and after it, the whole of `pre` does. -/
theorem append_related {R : List α → List α → Prop} (hrefl : ∀ h, R h h)
    (htrans : ∀ {h₁ h₂ h₃}, R h₁ h₂ → R h₂ h₃ → R h₁ h₃) (hcons : ∀ o h, P o → R h (o :: h))
    (hpre : ∀ o ∈ pre, P o) (h : List α) : R h (pre ++ h) := by
  induction pre with
  | nil => exact hrefl h
  | cons o pre ih =>
    have hrest := ih fun o' ho' => hpre o' (List.mem_cons_of_mem _ ho')
    exact htrans hrest (hcons o (pre ++ h) (hpre o (List.mem_cons_self ..)))

/-- What one observation leaves as it is, `pre` leaves as it is. -/
theorem append_silent {f : List α → β} (hcons : ∀ o h, P o → f (o :: h) = f h) (hpre : ∀ o ∈ pre, P o)
    (h : List α) : f (pre ++ h) = f h :=
  append_related (R := fun h h' => f h' = f h) (fun _ => rfl) (fun h₁₂ h₂₃ => h₂₃.trans h₁₂) hcons hpre h

end TagSim
