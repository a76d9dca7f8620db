import TagSim.Runs.Transducer
import TagSim.Runs.Proofs.MachineProofs

/-!
# Agreement of two transducers

Transducers agree step by step as long as a condition on the steps holds. The condition is exact when a step
that violates it is answered differently or leads to states apart, and states apart either stay apart or give
themselves away by an answer. Where states apart may come together again, the condition is exact for agreement after
every operation.
-/

namespace TagSim

namespace Transducer

universe u v w x

variable {σ : Type u} {τ : Type x} {α : Type v} {β : Type w} {T : Transducer σ α β} {U : Transducer τ α β}
  {R D : σ → τ → Prop} {C : σ → α → Prop} {P : α → Prop} {s : σ} {t : τ}

theorem agree_nil : Agree T U R s t [] ↔ R s t :=
  and_iff_right rfl

/-- Agreement on a run is the same answer to the first operation and agreement afterwards. -/
theorem agree_cons {a : α} {as : List α} : Agree T U R s t (a :: as) ↔
    (T.step s a).2 = (U.step t a).2 ∧ Agree T U R (T.step s a).1 (U.step t a).1 as := by
  rw [Agree, Agree, run, run, List.cons.injEq, and_assoc]

theorem allSteps_toMachine_cons {a : α} {as : List α} : T.toMachine.AllSteps C s (a :: as) ↔
    C s a ∧ T.toMachine.AllSteps C (T.step s a).1 as :=
  Machine.allSteps_cons rfl

/-- States apart do not agree on any run of operations that satisfy `P`. -/
theorem not_agree_of_apart
    (happart : ∀ s t a, P a → D s t → (T.step s a).2 = (U.step t a).2 → D (T.step s a).1 (U.step t a).1)
    (hD : ∀ s t, D s t → ¬ R s t) {as : List α} (hP : ∀ a ∈ as, P a) (h : D s t) : ¬ Agree T U R s t as := by
  induction as generalizing s t with
  | nil =>
    rw [agree_nil]
    exact hD s t h
  | cons a as ih =>
    rw [agree_cons]
    rintro ⟨hanswer, hrest⟩
    obtain ⟨hPa, hPas⟩ := List.forall_mem_cons.mp hP
    exact ih hPas (happart s t a hPa h hanswer) hrest

/-- Where the steps that satisfy `C` are in lockstep, and the others lead apart, agreement on a run of operations
    that satisfy `P` is `C` for all its steps. -/
theorem agree_iff_allSteps
    (hlockstep : ∀ s t a, R s t → C s a →
      (T.step s a).2 = (U.step t a).2 ∧ R (T.step s a).1 (U.step t a).1)
    (hdiverge : ∀ s t a, P a → R s t → ¬ C s a → (T.step s a).2 = (U.step t a).2 →
      D (T.step s a).1 (U.step t a).1)
    (happart : ∀ s t a, P a → D s t → (T.step s a).2 = (U.step t a).2 → D (T.step s a).1 (U.step t a).1)
    (hD : ∀ s t, D s t → ¬ R s t) {as : List α} (hP : ∀ a ∈ as, P a) (hR : R s t) :
    Agree T U R s t as ↔ T.toMachine.AllSteps C s as := by
  induction as generalizing s t with
  | nil => exact ⟨fun _ => trivial, fun _ => agree_nil.mpr hR⟩
  | cons a as ih =>
    obtain ⟨hPa, hPas⟩ := List.forall_mem_cons.mp hP
    rw [agree_cons, allSteps_toMachine_cons]
    constructor
    · rintro ⟨hanswer, hrest⟩
      by_cases hC : C s a
      · obtain ⟨-, hR'⟩ := hlockstep s t a hR hC
        exact ⟨hC, (ih hPas hR').mp hrest⟩
      · have hapart := hdiverge s t a hPa hR hC hanswer
        exact absurd hrest (not_agree_of_apart happart hD hPas hapart)
    · rintro ⟨hC, hrest⟩
      obtain ⟨hanswer, hR'⟩ := hlockstep s t a hR hC
      exact ⟨hanswer, (ih hPas hR').mpr hrest⟩

/-- Where the steps in lockstep are those that satisfy `C`, agreement after every operation of a run is `C` for all
    its steps. -/
theorem agree_throughout_iff_allSteps
    (hlockstep : ∀ s t a, R s t →
      ((T.step s a).2 = (U.step t a).2 ∧ R (T.step s a).1 (U.step t a).1 ↔ C s a))
    {as : List α} (hR : R s t) :
    (∀ bs, bs <+: as → Agree T U R s t bs) ↔ T.toMachine.AllSteps C s as := by
  induction as generalizing s t with
  | nil =>
    refine ⟨fun _ => trivial, fun _ bs hbs => ?_⟩
    rw [List.prefix_nil.mp hbs]
    exact agree_nil.mpr hR
  | cons a as ih =>
    rw [allSteps_toMachine_cons]
    constructor
    · intro hall
      have hfirst := agree_cons.mp (hall [a] ⟨as, rfl⟩)
      have hR' := agree_nil.mp hfirst.2
      refine ⟨(hlockstep s t a hR).mp ⟨hfirst.1, hR'⟩, (ih hR').mp fun bs hbs => ?_⟩
      exact (agree_cons.mp (hall (a :: bs) (List.cons_prefix_cons.mpr ⟨rfl, hbs⟩))).2
    · rintro ⟨hC, hrest⟩ bs hbs
      obtain ⟨hanswer, hR'⟩ := (hlockstep s t a hR).mpr hC
      cases bs with
      | nil => exact agree_nil.mpr hR
      | cons b bs =>
        obtain ⟨rfl, htail⟩ := List.cons_prefix_cons.mp hbs
        exact agree_cons.mpr ⟨hanswer, (ih hR').mpr hrest bs htail⟩

end Transducer

end TagSim
