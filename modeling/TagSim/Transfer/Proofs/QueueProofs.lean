import Mathlib.Data.List.Nodup
import Mathlib.Data.List.Perm.Subperm

/-!
# What is taken from a queue

A queue that is first in, first out: what was put in is what was taken out, `r`, followed by what waits,
`q`. A part `l` of it that was picked in the same order is what was taken out exactly when it has
everything that was taken and nothing that waits.
-/

namespace TagSim.Transfer

universe u

variable {α : Type u} {l r q : List α}

/-- Where `l` is taken in order from `r` and `q`, which share nothing, it is all of `r` exactly when it has
    everything of `r` and nothing of `q`. -/
theorem eq_iff_of_sublist_append (hsub : l.Sublist (r ++ q)) (hnodup : (r ++ q).Nodup) :
    l = r ↔ (∀ x ∈ r, x ∈ l) ∧ ∀ x ∈ q, x ∉ l := by
  have hdisjoint := (List.nodup_append.mp hnodup).2.2
  constructor
  · rintro rfl
    exact ⟨fun x hx => hx, fun x hx hl => hdisjoint x hl x hx rfl⟩
  · rintro ⟨hall, hnone⟩
    obtain ⟨l₁, l₂, rfl, h₁, h₂⟩ := List.sublist_append_iff.mp hsub
    have hnil : l₂ = [] := by
      refine List.eq_nil_iff_forall_not_mem.mpr fun x hx => ?_
      exact hnone x (h₂.subset hx) (List.mem_append_right _ hx)
    subst hnil
    rw [List.append_nil] at hall ⊢
    have hr : r.Nodup := (List.nodup_append.mp hnodup).1
    exact h₁.eq_of_length_le (List.subperm_of_subset hr hall).length_le

/-- Such a part has the members of `r` exactly when it is `r`. -/
theorem perm_iff_of_sublist_append (hsub : l.Sublist (r ++ q)) (hnodup : (r ++ q).Nodup) :
    l.Perm r ↔ l = r := by
  constructor
  · intro hperm
    refine (eq_iff_of_sublist_append hsub hnodup).mpr ⟨fun x hx => hperm.mem_iff.mpr hx, fun x hx hl => ?_⟩
    exact (List.nodup_append.mp hnodup).2.2 x (hperm.mem_iff.mp hl) x hx rfl
  · rintro rfl
    exact .refl _

end TagSim.Transfer
