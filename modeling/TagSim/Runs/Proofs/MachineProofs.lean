import Mathlib.Logic.Relation
import TagSim.Runs.Machine

/-!
# Rules for the runs of a machine

The induction over a run is made here once. A development about a concrete machine proves what one
step does and takes what every run does from one of these rules:

- `run_preserves`: an invariant of every step is an invariant of every run.
- `run_preserves_of_allSteps`: the same, for the runs whose steps all satisfy a condition.
- `allStates_of_allSteps`: and of every state these runs pass through.
- `run_iff_allSteps`: a property that a step keeps exactly when a condition holds is kept by a run
  exactly when the condition holds of all its steps.
- `allStates_iff_allSteps`: the same for a property of every state, not of the last one.
- `allSteps_congr`: conditions that agree on every step that is taken agree on every run.
- `allSteps_iff`: and conditions that agree on every step, taken or not, on every list of actions.
- `run_simulates`: a simulation of every step is a simulation of every run.
- `run_refines`: where every step is a step of another machine between views of the states, so is every run.
-/

namespace TagSim

namespace Machine

universe u v w

variable {σ : Type u} {α : Type v} {M : Machine σ α}

/-- A run that starts with the action `a` takes a step and goes on from the state reached. -/
theorem run_cons_some {s s' : σ} {a : α} {as : List α} (h : M.run s (a :: as) = some s') :
    ∃ t, M.step s a = some t ∧ M.run t as = some s' :=
  Option.bind_eq_some_iff.mp h

/-- An invariant of every step is an invariant of every run. -/
theorem run_preserves {I : σ → Prop} (hstep : ∀ s a s', I s → M.step s a = some s' → I s')
    {s s' : σ} {as : List α} (hs : I s) (hrun : M.run s as = some s') : I s' := by
  induction as generalizing s with
  | nil => exact Option.some.inj hrun ▸ hs
  | cons a as ih =>
    obtain ⟨t, ht, hrun⟩ := run_cons_some hrun
    exact ih (hstep s a t hs ht) hrun

/-- An invariant of the steps that satisfy `C` is an invariant of the runs that take only such steps. -/
theorem run_preserves_of_allSteps {I : σ → Prop} {C : σ → α → Prop}
    (hstep : ∀ s a s', I s → C s a → M.step s a = some s' → I s')
    {s s' : σ} {as : List α} (hs : I s) (hC : M.AllSteps C s as) (hrun : M.run s as = some s') :
    I s' := by
  induction as generalizing s with
  | nil => exact Option.some.inj hrun ▸ hs
  | cons a as ih =>
    obtain ⟨t, ht, hrun⟩ := run_cons_some hrun
    exact ih (hstep s a t hs hC.1 ht) (hC.2 t ht) hrun

/-- An invariant of the steps that satisfy `C` holds in every state of the runs that take only such steps. -/
theorem allStates_of_allSteps {I : σ → Prop} {C : σ → α → Prop}
    (hstep : ∀ s a s', I s → C s a → M.step s a = some s' → I s') {s : σ} {as : List α} (hs : I s)
    (hC : M.AllSteps C s as) : M.AllStates I s as := by
  induction as generalizing s with
  | nil => exact hs
  | cons a as ih => exact ⟨hs, fun s' hs' => ih (hstep s a s' hs hC.1 hs') (hC.2 s' hs')⟩

theorem allStates_mono {P Q : σ → Prop} (hPQ : ∀ s, P s → Q s) {s : σ} {as : List α}
    (h : M.AllStates P s as) : M.AllStates Q s as := by
  induction as generalizing s with
  | nil => exact hPQ s h
  | cons a as ih => exact ⟨hPQ s h.1, fun s' hs' => ih (h.2 s' hs')⟩

/-- Where the first action is possible, the conditions are on it and on the steps from the state it leads to. -/
theorem allSteps_cons {C : σ → α → Prop} {s t : σ} {a : α} {as : List α} (ht : M.step s a = some t) :
    M.AllSteps C s (a :: as) ↔ C s a ∧ M.AllSteps C t as := by
  refine and_congr_right fun _ => ⟨fun h => h t ht, fun h t' ht' => ?_⟩
  rw [← Option.some.inj (ht.symm.trans ht')]
  exact h

/-- Where every step keeps `P` exactly when it satisfies `C`, a run ends with `P` exactly when all its
    steps satisfy `C`. The invariant `J` is available to the step. -/
theorem run_iff_allSteps {J P : σ → Prop} {C : σ → α → Prop}
    (hJ : ∀ s a s', J s → M.step s a = some s' → J s')
    (hP : ∀ s a s', J s → M.step s a = some s' → (P s' ↔ P s ∧ C s a))
    {s s' : σ} {as : List α} (hs : J s) (hrun : M.run s as = some s') :
    P s' ↔ P s ∧ M.AllSteps C s as := by
  induction as generalizing s with
  | nil =>
    obtain rfl := Option.some.inj hrun
    exact ⟨fun h => ⟨h, trivial⟩, fun h => h.1⟩
  | cons a as ih =>
    obtain ⟨t, ht, hrun⟩ := run_cons_some hrun
    rw [ih (hJ s a t hs ht) hrun, hP s a t hs ht, allSteps_cons ht, and_assoc]

/-- Where a state with `P` is followed by one with `P` exactly when the step satisfies `C`, `P` holds in
    every state of a run exactly when all its steps satisfy `C`. -/
theorem allStates_iff_allSteps {J P : σ → Prop} {C : σ → α → Prop}
    (hJ : ∀ s a s', J s → M.step s a = some s' → J s')
    (hP : ∀ s a s', J s → P s → M.step s a = some s' → (P s' ↔ C s a))
    {s s' : σ} {as : List α} (hs : J s) (hPs : P s) (hrun : M.run s as = some s') :
    M.AllStates P s as ↔ M.AllSteps C s as := by
  induction as generalizing s with
  | nil => exact ⟨fun _ => trivial, fun _ => hPs⟩
  | cons a as ih =>
    obtain ⟨t, ht, hrun⟩ := run_cons_some hrun
    have hPt := hP s a t hs hPs ht
    have hJt := hJ s a t hs ht
    rw [allSteps_cons ht]
    constructor
    · rintro ⟨-, hall⟩
      have hat := hall t ht
      have hP't : P t := by
        cases as with
        | nil => exact hat
        | cons b bs => exact hat.1
      exact ⟨hPt.mp hP't, (ih hJt hP't hrun).mp hat⟩
    · rintro ⟨hC, hall⟩
      refine ⟨hPs, fun t' ht' => ?_⟩
      obtain rfl := Option.some.inj (ht.symm.trans ht')
      exact (ih hJt (hPt.mpr hC) hrun).mpr hall

theorem allSteps_of_forall {C : σ → α → Prop} {as : List α} (h : ∀ a ∈ as, ∀ s, C s a) (s : σ) :
    M.AllSteps C s as := by
  induction as generalizing s with
  | nil => trivial
  | cons a as ih =>
    refine ⟨h a (List.mem_cons_self ..) s, fun s' _ => ?_⟩
    exact ih (fun b hb => h b (List.mem_cons_of_mem _ hb)) s'

theorem allSteps_mono {C D : σ → α → Prop} (hCD : ∀ s a, C s a → D s a) {s : σ} {as : List α}
    (h : M.AllSteps C s as) : M.AllSteps D s as := by
  induction as generalizing s with
  | nil => trivial
  | cons a as ih => exact ⟨hCD s a h.1, fun s' hs' => ih (h.2 s' hs')⟩

/-- The steps of a run are those of its beginning and those of the rest. -/
theorem allSteps_append {C : σ → α → Prop} {s t : σ} {as bs : List α} (hrun : M.run s as = some t) :
    M.AllSteps C s (as ++ bs) ↔ M.AllSteps C s as ∧ M.AllSteps C t bs := by
  induction as generalizing s with
  | nil =>
    obtain rfl := Option.some.inj hrun
    exact (and_iff_right trivial).symm
  | cons a as ih =>
    obtain ⟨u, hu, hrun⟩ := run_cons_some hrun
    rw [List.cons_append, allSteps_cons hu, allSteps_cons hu, ih hrun, and_assoc]

/-- Two conditions that agree on every step that is taken, given an invariant, agree on every run. -/
theorem allSteps_congr {J : σ → Prop} {C D : σ → α → Prop}
    (hJ : ∀ s a s', J s → M.step s a = some s' → J s')
    (hCD : ∀ s a s', J s → M.step s a = some s' → (C s a ↔ D s a))
    {s s' : σ} {as : List α} (hs : J s) (hrun : M.run s as = some s') :
    M.AllSteps C s as ↔ M.AllSteps D s as := by
  induction as generalizing s with
  | nil => exact Iff.rfl
  | cons a as ih =>
    obtain ⟨t, ht, hrun⟩ := run_cons_some hrun
    rw [allSteps_cons ht, allSteps_cons ht, hCD s a t hs ht, ih (hJ s a t hs ht) hrun]

/-- Two conditions that agree on every step, taken or not, agree on every list of actions. -/
theorem allSteps_iff {J : σ → Prop} {C D : σ → α → Prop}
    (hJ : ∀ s a s', J s → M.step s a = some s' → J s') (hCD : ∀ s a, J s → (C s a ↔ D s a)) {s : σ}
    {as : List α} (hs : J s) : M.AllSteps C s as ↔ M.AllSteps D s as := by
  induction as generalizing s with
  | nil => exact Iff.rfl
  | cons a as ih =>
    rw [AllSteps, AllSteps, hCD s a hs]
    exact and_congr_right fun _ => forall_congr' fun s' => forall_congr' fun hs' => ih (hJ s a s' hs hs')

/-- A simulation: where every step of the machine is matched by some steps `T` of an abstract system,
    every run is. -/
theorem run_simulates {τ : Type w} {T : τ → τ → Prop} {R : σ → τ → Prop}
    (hstep : ∀ s a s' t, R s t → M.step s a = some s' → ∃ t', Relation.ReflTransGen T t t' ∧ R s' t')
    {s s' : σ} {t : τ} {as : List α} (hs : R s t) (hrun : M.run s as = some s') :
    ∃ t', Relation.ReflTransGen T t t' ∧ R s' t' := by
  induction as generalizing s t with
  | nil => exact ⟨t, .refl, Option.some.inj hrun ▸ hs⟩
  | cons a as ih =>
    obtain ⟨u, hu, hrun⟩ := run_cons_some hrun
    obtain ⟨t₁, ht₁, hR₁⟩ := hstep s a u t hs hu
    obtain ⟨t₂, ht₂, hR₂⟩ := ih hR₁ hrun
    exact ⟨t₂, ht₁.trans ht₂, hR₂⟩

/-- A refinement: where every step that satisfies `C` is a step of `N` between the views of the states, every
    run of such steps is a run of `N`. -/
theorem run_refines {τ : Type w} {β : Type*} {N : Machine τ β} {I : σ → Prop} {C : σ → α → Prop}
    {view : σ → τ} {f : α → β}
    (hstep : ∀ s a s', I s → C s a → M.step s a = some s' → I s' ∧ N.step (view s) (f a) = some (view s'))
    {s s' : σ} {as : List α} (hs : I s) (hC : M.AllSteps C s as) (hrun : M.run s as = some s') :
    I s' ∧ N.run (view s) (as.map f) = some (view s') := by
  induction as generalizing s with
  | nil =>
    obtain rfl := Option.some.inj hrun
    exact ⟨hs, rfl⟩
  | cons a as ih =>
    obtain ⟨t, ht, hrun⟩ := run_cons_some hrun
    obtain ⟨hI, hview⟩ := hstep s a t hs hC.1 ht
    obtain ⟨hend, hrest⟩ := ih hI (hC.2 t ht) hrun
    refine ⟨hend, ?_⟩
    rw [List.map_cons, run, hview, Option.bind_some, hrest]

end Machine

end TagSim
