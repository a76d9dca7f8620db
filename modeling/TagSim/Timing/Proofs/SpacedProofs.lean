import Mathlib.Algebra.Order.Monoid.Canonical.Basic
import Mathlib.Algebra.Order.Group.Nat
import TagSim.Timing.Spaced

/-!
# Properties of spaced times

Spaced times stay so when some are left out, and `n + 1` of them span `n` periods. So a window has room for
as many as its length has periods, and one more.
-/

namespace TagSim.Timing

universe u

section Plain

variable {α : Type u} [Add α] [LE α] {d x : α} {l : List α}

theorem spaced_nil : Spaced d [] := .nil

/-- A time is added to spaced ones when it comes at least `d` after the last of them. -/
theorem spaced_cons : Spaced d (x :: l) ↔ (∀ y ∈ l.head?, y + d ≤ x) ∧ Spaced d l := List.isChain_cons

end Plain

section Ordered

variable {α : Type u} [AddCommMonoid α] [PartialOrder α] [IsOrderedCancelAddMonoid α] {d t T x : α}
  {l l' : List α}

/-- Times that are not consecutive are even further apart. -/
theorem Spaced.pairwise (h : Spaced d l) (hd : 0 ≤ d) :
    l.Pairwise fun later earlier => earlier + d ≤ later := by
  have htrans : IsTrans α fun later earlier => earlier + d ≤ later := by
    refine ⟨fun x y z hyx hzy => ?_⟩
    calc z + d ≤ y := hzy
      _ ≤ y + d := le_add_of_nonneg_right hd
      _ ≤ x := hyx
  exact List.isChain_iff_pairwise.mp h

theorem Spaced.sublist (h : Spaced d l) (hd : 0 ≤ d) (hl : l'.Sublist l) : Spaced d l' :=
  List.Pairwise.isChain ((h.pairwise hd).sublist hl)

/-- The times after the first span as many periods as there are. -/
theorem Spaced.span (h : Spaced d (x :: l)) (hall : ∀ y ∈ x :: l, t ≤ y) : t + l.length • d ≤ x := by
  induction l generalizing x with
  | nil =>
    rw [List.length_nil, zero_nsmul, add_zero]
    exact hall x (List.mem_singleton.mpr rfl)
  | cons y l ih =>
    obtain ⟨hlast, hrest⟩ := spaced_cons.mp h
    have hspan := ih hrest fun z hz => hall z (List.mem_cons_of_mem x hz)
    calc t + (y :: l).length • d = t + l.length • d + d := by rw [List.length_cons, succ_nsmul, add_assoc]
      _ ≤ y + d := add_le_add_left hspan d
      _ ≤ x := hlast y rfl

/-- A window that contains `n + 1` of the times is at least `n` periods long. -/
theorem Spaced.window_length [DecidableLE α] {n : Nat} (h : Spaced d l) (hd : 0 ≤ d)
    (hn : (window t T l).length = n + 1) : n • d ≤ T := by
  have hspaced : Spaced d (window t T l) := h.sublist hd List.filter_sublist
  have hmem : ∀ y ∈ window t T l, t ≤ y ∧ y ≤ t + T := by
    intro y hy
    simpa using (List.mem_filter.mp hy).2
  cases hwindow : window t T l with
  | nil => simp [hwindow] at hn
  | cons x l' =>
    rw [hwindow] at hspaced hmem hn
    obtain rfl : l'.length = n := Nat.succ.inj hn
    have hspan := hspaced.span fun y hy => (hmem y hy).1
    have hle : x ≤ t + T := (hmem x (List.mem_cons_self ..)).2
    exact le_of_add_le_add_left (hspan.trans hle)

end Ordered

/-- The number of times in a window of length `T`, on a discrete clock. -/
theorem Spaced.window_le {d t T : Nat} {l : List Nat} (h : Spaced d l) (hd : 0 < d) :
    (window t T l).length ≤ T / d + 1 := by
  cases hn : (window t T l).length with
  | zero => exact Nat.zero_le _
  | succ n =>
    have hle : n • d ≤ T := h.window_length (Nat.zero_le d) hn
    have hdiv : n ≤ T / d := (Nat.le_div_iff_mul_le hd).mpr hle
    omega

end TagSim.Timing
