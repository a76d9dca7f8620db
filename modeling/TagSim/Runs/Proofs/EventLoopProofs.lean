import TagSim.Runs.EventLoop
import TagSim.Runs.Proofs.AccountProofs

/-!
# What stopping an event loop does

Once the flag is up, the loop never waits again, and it handles the events of the batch it has, or of the one
it is waiting for. `Implements.stopped` is this for the machines that implement an event loop.
-/

namespace TagSim

universe u v

namespace EventLoop

variable {capacity : Nat} {l l' : EventLoop} {a : Action} {as : List Action}

theorem handle_cases (h : step capacity l .handle = some l') :
    ∃ n, l.point = .batch (n + 1) ∧ l' = { l with point := .batch n } := by
  rw [step] at h
  split at h
  · next n hpoint => exact ⟨n, hpoint, (Option.some.inj h).symm⟩
  · cases h

/-- The flag is not lowered. -/
theorem step_stop (hstop : l.stop = true) (h : (machine capacity).step l a = some l') : l'.stop = true := by
  change step capacity l a = some l' at h
  cases a with
  | enter | interrupt =>
    rw [step, Option.ite_none_right_eq_some, Option.some.injEq] at h
    rw [← h.2]
    exact hstop
  | test | fetch n =>
    rw [step, Option.ite_none_right_eq_some, Option.some.injEq] at h
    rw [← h.2]
    exact hstop
  | raise | halt =>
    obtain rfl := Option.some.inj h
    rfl
  | handle =>
    obtain ⟨n, hpoint, rfl⟩ := handle_cases h
    exact hstop

/-- A step with the flag up takes what it handles from what is left, and leaves no more. -/
theorem step_left (hstop : l.stop = true) (h : (machine capacity).step l a = some l') :
    left capacity l' + handles l a ≤ left capacity l := by
  change step capacity l a = some l' at h
  cases a with
  | enter =>
    rw [step, Option.ite_none_right_eq_some, Option.some.injEq] at h
    obtain ⟨hpoint, rfl⟩ := h
    simp [left, handles]
  | raise =>
    obtain rfl := Option.some.inj h
    exact Nat.le_refl _
  | test =>
    rw [step, Option.ite_none_right_eq_some, Option.some.injEq, if_pos hstop] at h
    obtain ⟨hpoint, rfl⟩ := h
    simp [left, handles]
  | fetch n =>
    rw [step, Option.ite_none_right_eq_some, Option.some.injEq] at h
    obtain ⟨⟨hpoint, hn⟩, rfl⟩ := h
    simpa [left, handles, hpoint] using hn
  | interrupt =>
    rw [step, Option.ite_none_right_eq_some, Option.some.injEq] at h
    obtain ⟨hpoint, rfl⟩ := h
    simp [left, handles]
  | handle =>
    obtain ⟨n, hpoint, rfl⟩ := handle_cases h
    simp [left, handles, hpoint]
  | halt =>
    obtain rfl := Option.some.inj h
    exact Nat.zero_le _

/-- No more events are left than a batch has room for. -/
theorem left_le (hleft : left capacity l ≤ capacity) (h : (machine capacity).step l a = some l') :
    left capacity l' ≤ capacity := by
  change step capacity l a = some l' at h
  cases a with
  | enter | test | interrupt =>
    rw [step, Option.ite_none_right_eq_some, Option.some.injEq] at h
    obtain ⟨-, rfl⟩ := h
    cases l.stop <;> simp [left]
  | fetch n =>
    rw [step, Option.ite_none_right_eq_some, Option.some.injEq] at h
    obtain ⟨⟨-, hn⟩, rfl⟩ := h
    exact hn
  | raise | halt =>
    obtain rfl := Option.some.inj h
    first | exact hleft | exact Nat.zero_le _
  | handle =>
    obtain ⟨n, hpoint, rfl⟩ := handle_cases h
    have hle : n + 1 ≤ capacity := by simpa [left, hpoint] using hleft
    exact Nat.le_of_succ_le hle

/-- Once the flag is up, no more events are handled than are left. -/
theorem total_handles_le (hstop : l.stop = true) (hrun : (machine capacity).run l as = some l') :
    left capacity l' + (machine capacity).total handles l as ≤ left capacity l :=
  Machine.total_le (I := fun l => l.stop = true) (fun _ _ _ => step_stop) (fun _ _ _ => step_left) hstop hrun

/-- Once the flag is up, the loop does not wait any more. -/
theorem total_waits_eq_zero (hstop : l.stop = true) (hrun : (machine capacity).run l as = some l') :
    (machine capacity).total waits l as = 0 := by
  have hstep : ∀ l a l', l.stop = true → (machine capacity).step l a = some l' → 0 + waits l a ≤ 0 := by
    intro l a l' hstop _
    simp [waits, hstop]
  have h := Machine.total_le (I := fun l => l.stop = true) (B := fun _ => 0) (fun _ _ _ => step_stop) hstep
    hstop hrun
  omega

/-- Once such a machine is stopped, it handles what is left of its batch, and does not wait any more. -/
theorem Implements.stopped {σ : Type u} {α : Type v} {M : Machine σ α} {I : σ → Prop} {view : σ → EventLoop}
    {actions : σ → α → List Action} {handled waited : σ → α → Nat} {s₀ s s' : σ} {bs cs : List α}
    (h : Implements M capacity I view actions handled waited) (hI : I s₀)
    (hleft : left capacity (view s₀) ≤ capacity) (hrun : M.run s₀ bs = some s)
    (hstop : (view s).stop = true) (hcont : M.run s cs = some s') :
    M.total handled s cs ≤ left capacity (view s) ∧ left capacity (view s) ≤ capacity ∧
      M.total waited s cs = 0 := by
  have hIs := Machine.run_preserves h.keeps hI hrun
  have hfits : left capacity (view s) ≤ capacity :=
    Machine.run_preserves (fun _ _ _ => left_le) hleft (Machine.run_translate h.keeps h.simulates hI hrun)
  have hloop := Machine.run_translate h.keeps h.simulates hIs hcont
  have hhandled := Machine.total_le_translate h.keeps h.simulates h.handled_le hIs hcont
  have hwaited := Machine.total_le_translate h.keeps h.simulates h.waited_le hIs hcont
  have hhandles := total_handles_le hstop hloop
  have hwaits := total_waits_eq_zero hstop hloop
  omega

end EventLoop

end TagSim
