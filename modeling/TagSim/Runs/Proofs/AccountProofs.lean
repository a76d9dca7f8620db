import TagSim.Runs.Account
import TagSim.Runs.Proofs.MachineProofs

/-!
# Rules for what a run adds up to

- `account_eq`, `account_le`: where every step changes a balance by what it pays in and takes out, a run
  changes it by the totals.
- `total_le`: the same where nothing is paid in.
- `run_translate`: where every step is a run of another machine, a run is the run of all that its steps stand
  for.
- `total_le_translate`: where no step costs more than what it stands for, no run does.
- `reaches_of_progress`: a run that makes as much progress as its variant allows reaches the goal.
-/

namespace TagSim

namespace Machine

universe u v w x

variable {σ : Type u} {α : Type v} {M : Machine σ α} {s s' t : σ} {a : α} {as bs : List α}

theorem total_cons (cost : σ → α → Nat) (ht : M.step s a = some t) :
    M.total cost s (a :: as) = cost s a + M.total cost t as := by
  rw [total, ht, Option.elim_some]

/-- A run costs at least what its first step does. -/
theorem le_total_cons (cost : σ → α → Nat) (ht : M.step s a = some t) :
    cost s a ≤ M.total cost s (a :: as) := by
  rw [total_cons cost ht]
  exact Nat.le_add_right ..

theorem total_append (cost : σ → α → Nat) (hrun : M.run s as = some t) :
    M.total cost s (as ++ bs) = M.total cost s as + M.total cost t bs := by
  induction as generalizing s with
  | nil =>
    obtain rfl := Option.some.inj hrun
    rw [List.nil_append, total, Nat.zero_add]
  | cons a as ih =>
    obtain ⟨u, hu, hrun⟩ := run_cons_some hrun
    rw [List.cons_append, total_cons cost hu, total_cons cost hu, ih hrun, Nat.add_assoc]

/-- Where every step changes the balance `B` by what it pays in and takes out, a run changes it by the
    totals. -/
theorem account_eq {I : σ → Prop} {B : σ → Nat} {paid taken : σ → α → Nat}
    (hI : ∀ s a s', I s → M.step s a = some s' → I s')
    (hstep : ∀ s a s', I s → M.step s a = some s' → B s' + taken s a = B s + paid s a)
    (hs : I s) (hrun : M.run s as = some s') :
    B s' + M.total taken s as = B s + M.total paid s as := by
  induction as generalizing s with
  | nil => rw [Option.some.inj hrun, total, total]
  | cons a as ih =>
    obtain ⟨t, ht, hrun⟩ := run_cons_some hrun
    have hone := hstep s a t hs ht
    have hrest := ih (hI s a t hs ht) hrun
    rw [total_cons taken ht, total_cons paid ht]
    omega

/-- Where no step leaves more in the balance `B` than it pays in and takes out, no run does. -/
theorem account_le {I : σ → Prop} {B : σ → Nat} {paid taken : σ → α → Nat}
    (hI : ∀ s a s', I s → M.step s a = some s' → I s')
    (hstep : ∀ s a s', I s → M.step s a = some s' → B s' + taken s a ≤ B s + paid s a)
    (hs : I s) (hrun : M.run s as = some s') :
    B s' + M.total taken s as ≤ B s + M.total paid s as := by
  induction as generalizing s with
  | nil =>
    obtain rfl := Option.some.inj hrun
    exact Nat.le_refl _
  | cons a as ih =>
    obtain ⟨t, ht, hrun⟩ := run_cons_some hrun
    have hone := hstep s a t hs ht
    have hrest := ih (hI s a t hs ht) hrun
    rw [total_cons taken ht, total_cons paid ht]
    omega

/-- A run that costs nothing consists of steps that cost nothing. -/
theorem allSteps_of_total_eq_zero {cost : σ → α → Nat} (hrun : M.run s as = some s')
    (h : M.total cost s as = 0) : M.AllSteps (fun s a => cost s a = 0) s as := by
  induction as generalizing s with
  | nil => trivial
  | cons a as ih =>
    obtain ⟨t, ht, hrun⟩ := run_cons_some hrun
    rw [total_cons cost ht, Nat.add_eq_zero_iff] at h
    exact (allSteps_cons ht).mpr ⟨h.1, ih hrun h.2⟩

theorem total_zero (s : σ) (as : List α) : M.total (fun _ _ => 0) s as = 0 := by
  induction as generalizing s with
  | nil => rfl
  | cons a as ih =>
    cases ht : M.step s a with
    | none => rw [total, ht, Option.elim_none]
    | some t => rw [total_cons _ ht, ih]

/-- Where no step leaves more in the balance than it takes out, a run takes out no more than there was. -/
theorem total_le {I : σ → Prop} {B : σ → Nat} {taken : σ → α → Nat}
    (hI : ∀ s a s', I s → M.step s a = some s' → I s')
    (hstep : ∀ s a s', I s → M.step s a = some s' → B s' + taken s a ≤ B s)
    (hs : I s) (hrun : M.run s as = some s') : B s' + M.total taken s as ≤ B s := by
  have hnone : ∀ s a s', I s → M.step s a = some s' → B s' + taken s a ≤ B s + 0 := hstep
  have h := account_le hI hnone hs hrun
  rwa [total_zero, Nat.add_zero] at h

/-- Where every step pays in and none takes out, the balance of a run has grown by the total. -/
theorem balance_eq {I : σ → Prop} {B : σ → Nat} {paid : σ → α → Nat}
    (hI : ∀ s a s', I s → M.step s a = some s' → I s')
    (hstep : ∀ s a s', I s → M.step s a = some s' → B s' = B s + paid s a)
    (hs : I s) (hrun : M.run s as = some s') : B s' = B s + M.total paid s as := by
  have hnone : ∀ s a s', I s → M.step s a = some s' → B s' + 0 = B s + paid s a := hstep
  have h := account_eq hI hnone hs hrun
  rwa [total_zero, Nat.add_zero] at h

/-- Where progress uses up a variant that is positive until the goal is reached, and the goal is not lost, a run
    that makes as much progress as the variant was at its start has reached the goal. -/
theorem reaches_of_progress {I G : σ → Prop} {V P : σ → Nat}
    (hI : ∀ s a s', I s → M.step s a = some s' → I s')
    (hG : ∀ s a s', I s → G s → M.step s a = some s' → G s')
    (hstep : ∀ s a s', I s → ¬ G s → M.step s a = some s' → G s' ∨ V s' + P s' ≤ V s + P s)
    (hpos : ∀ s, I s → ¬ G s → 0 < V s) (hs : I s) (hrun : M.run s as = some s')
    (hP : V s + P s ≤ P s') : G s' := by
  have hinv : I s' ∧ (G s' ∨ V s' + P s' ≤ V s + P s) := by
    refine run_preserves (M := M) (I := fun t => I t ∧ (G t ∨ V t + P t ≤ V s + P s))
      (fun t a t' ht h => ?_) ⟨hs, Or.inr (Nat.le_refl _)⟩ hrun
    obtain ⟨hIt, hgoal⟩ := ht
    refine ⟨hI t a t' hIt h, ?_⟩
    by_cases hGt : G t
    · exact Or.inl (hG t a t' hIt hGt h)
    · have hle := hgoal.resolve_left hGt
      rcases hstep t a t' hIt hGt h with hGt' | hone
      · exact Or.inl hGt'
      · exact Or.inr (Nat.le_trans hone hle)
  obtain ⟨hIs, hgoal⟩ := hinv
  by_contra hnot
  have hle := hgoal.resolve_left hnot
  have hv := hpos s' hIs hnot
  omega

section Translate

variable {τ : Type w} {β : Type x} {N : Machine τ β} {f : σ → α → List β} {view : σ → τ}

theorem translate_cons (ht : M.step s a = some t) :
    M.translate f s (a :: as) = f s a ++ M.translate f t as := by
  rw [translate, ht, Option.elim_some]

theorem run_cons (ht : M.step s a = some t) : M.run s (a :: as) = M.run t as := by
  rw [run, ht, Option.bind_some]

theorem run_append {u v : τ} {cs ds : List β} (hrun : N.run u cs = some v) :
    N.run u (cs ++ ds) = N.run v ds := by
  induction cs generalizing u with
  | nil => rw [Option.some.inj hrun, List.nil_append]
  | cons c cs ih =>
    obtain ⟨x, hx, hrun⟩ := run_cons_some hrun
    rw [List.cons_append, run, hx, Option.bind_some, ih hrun]

/-- A run that ends where it began can be repeated. -/
theorem run_replicate {u : τ} {cs : List β} (hrun : N.run u cs = some u) (n : Nat) :
    N.run u (List.replicate n cs).flatten = some u := by
  induction n with
  | zero => rfl
  | succ n ih => rw [List.replicate_succ, List.flatten_cons, run_append hrun, ih]

/-- Where every step is a run of another machine between the views of its states, every run is. -/
theorem run_translate {I : σ → Prop} (hI : ∀ s a s', I s → M.step s a = some s' → I s')
    (hstep : ∀ s a s', I s → M.step s a = some s' → N.run (view s) (f s a) = some (view s'))
    (hs : I s) (hrun : M.run s as = some s') :
    N.run (view s) (M.translate f s as) = some (view s') := by
  induction as generalizing s with
  | nil => rw [Option.some.inj hrun, translate, run]
  | cons a as ih =>
    obtain ⟨t, ht, hrun⟩ := run_cons_some hrun
    rw [translate_cons ht, run_append (hstep s a t hs ht)]
    exact ih (hI s a t hs ht) hrun

/-- Where no step costs more than what it stands for, no run does. -/
theorem total_le_translate {I : σ → Prop} (hI : ∀ s a s', I s → M.step s a = some s' → I s')
    (hstep : ∀ s a s', I s → M.step s a = some s' → N.run (view s) (f s a) = some (view s'))
    {cost : σ → α → Nat} {cost' : τ → β → Nat}
    (hcost : ∀ s a s', I s → M.step s a = some s' → cost s a ≤ N.total cost' (view s) (f s a))
    (hs : I s) (hrun : M.run s as = some s') :
    M.total cost s as ≤ N.total cost' (view s) (M.translate f s as) := by
  induction as generalizing s with
  | nil => exact Nat.zero_le _
  | cons a as ih =>
    obtain ⟨t, ht, hrun⟩ := run_cons_some hrun
    rw [translate_cons ht, total_append cost' (hstep s a t hs ht), total_cons cost ht]
    exact Nat.add_le_add (hcost s a t hs ht) (ih (hI s a t hs ht) hrun)

end Translate

end Machine

end TagSim
