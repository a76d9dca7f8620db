import TagSim.Util.Shims
import TagSim.Runs.Proofs.TransducerProofs

/-!
# The atomic operations on two platforms

The macros for Windows return the contents after an addition, where C11 returns those before it, and they do
not write `expected` when a compare-exchange fails. From then on the cells differ in `expected` alone: only a
compare-exchange that succeeds on one platform could tell, and the other one returns something else there.

`atomic_fetch_sub` writes a minus sign before its operand on Windows, and no parentheses. Where the sign applies to a
part of the operand only, the contents themselves differ, which a later store can hide.
-/

namespace TagSim.Shims

/-! ## The operations of each platform -/

section Steps

variable {c : Cell}

theorem windows_fetchAdd (value : Operand) : windows.step c (.fetchAdd value) =
    ({ c with atomic := c.atomic + value.eval }, some (c.atomic + value.eval)) := rfl

theorem c11_fetchAdd (value : Operand) : c11.step c (.fetchAdd value) =
    ({ c with atomic := c.atomic + value.eval }, some c.atomic) := rfl

theorem windows_fetchSub (value : Operand) : windows.step c (.fetchSub value) =
    ({ c with atomic := c.atomic + value.negated }, some (c.atomic + value.negated)) := rfl

theorem c11_fetchSub (value : Operand) : c11.step c (.fetchSub value) =
    ({ c with atomic := c.atomic - value.eval }, some c.atomic) := rfl

theorem windows_exchange (desired : Operand) (h : c.atomic = c.expected) :
    windows.step c (.compareExchangeStrong desired) = ({ c with atomic := desired.eval }, some 1) := by
  simp [windows, Macros.step, Windows.macros, Windows.interlockedCompareExchange, h]

theorem c11_exchange (desired : Operand) (h : c.atomic = c.expected) :
    c11.step c (.compareExchangeStrong desired) = ({ c with atomic := desired.eval }, some 1) := by
  simp [c11, Macros.step, C11.macros, C11.atomicCompareExchangeStrongExplicit, h]

/-- A compare-exchange that fails changes nothing on Windows. -/
theorem windows_fail (desired : Operand) (h : c.atomic ≠ c.expected) :
    windows.step c (.compareExchangeStrong desired) = (c, some 0) := by
  simp [windows, Macros.step, Windows.macros, Windows.interlockedCompareExchange, h]

/-- Where C11 tells what it found. -/
theorem c11_fail (desired : Operand) (h : c.atomic ≠ c.expected) :
    c11.step c (.compareExchangeStrong desired) = ({ c with expected := c.atomic }, some 0) := by
  simp [c11, Macros.step, C11.macros, C11.atomicCompareExchangeStrongExplicit, h]

end Steps

/-! ## Agreement -/

/-- The cells differ in what compare-exchanges expect. -/
def Apart (c d : Cell) : Prop := c.atomic = d.atomic ∧ c.expected ≠ d.expected

theorem add_eq_self {x value : Word} : x + value = x ↔ value = 0 := BitVec.add_right_eq_self

theorem sub_eq_self {x value : Word} : x - value = x ↔ value = 0 := by
  constructor <;> intro h <;> bv_omega

/-- An operation is portable exactly when it does the same in the same cell. -/
theorem step_portable_iff {c d : Cell} {op : Op} (hcell : c = d) :
    (windows.step c op).2 = (c11.step d op).2 ∧ (windows.step c op).1 = (c11.step d op).1 ↔ op.Portable c := by
  subst hcell
  cases op with
  | load => exact ⟨fun _ => trivial, fun _ => ⟨rfl, rfl⟩⟩
  | store value => exact ⟨fun _ => trivial, fun _ => ⟨rfl, rfl⟩⟩
  | fetchAdd value =>
    rw [windows_fetchAdd, c11_fetchAdd, and_iff_left rfl, Option.some.injEq, add_eq_self]
    rfl
  | fetchSub value =>
    rw [windows_fetchSub, c11_fetchSub, Option.some.injEq, add_eq_self]
    constructor
    · rintro ⟨hnegated, hcells⟩
      have hatomic : c.atomic + value.negated = c.atomic - value.eval := congrArg Cell.atomic hcells
      rw [add_eq_self.mpr hnegated] at hatomic
      exact ⟨sub_eq_self.mp hatomic.symm, hnegated⟩
    · rintro ⟨heval, hnegated⟩
      rw [add_eq_self.mpr hnegated, sub_eq_self.mpr heval]
      exact ⟨hnegated, rfl⟩
  | compareExchangeStrong desired =>
    by_cases hexpected : c.atomic = c.expected
    · rw [windows_exchange desired hexpected, c11_exchange desired hexpected]
      exact ⟨fun _ => hexpected, fun _ => ⟨rfl, rfl⟩⟩
    · rw [windows_fail desired hexpected, c11_fail desired hexpected]
      refine ⟨fun h => ?_, fun h => absurd h hexpected⟩
      exact (congrArg Cell.expected h.2).symm

/-- Where another operation returns the same, it is a compare-exchange that fails. -/
theorem step_not_portable {c d : Cell} {op : Op} (hwhole : op.NegatedWhole) (hcell : c = d) (h : ¬ op.Portable c)
    (hanswer : (windows.step c op).2 = (c11.step d op).2) :
    Apart (windows.step c op).1 (c11.step d op).1 := by
  subst hcell
  cases op with
  | load => exact absurd trivial h
  | store value => exact absurd trivial h
  | fetchAdd value =>
    rw [windows_fetchAdd, c11_fetchAdd] at hanswer
    exact absurd (add_eq_self.mp (Option.some.inj hanswer)) h
  | fetchSub value =>
    rw [windows_fetchSub, c11_fetchSub] at hanswer
    have hnegated := add_eq_self.mp (Option.some.inj hanswer)
    have hminus : value.negated = -value.eval := hwhole
    refine absurd ⟨?_, hnegated⟩ h
    rw [hnegated] at hminus
    exact BitVec.neg_eq_zero_iff.mp hminus.symm
  | compareExchangeStrong desired =>
    rw [windows_fail desired h, c11_fail desired h]
    exact ⟨rfl, fun hexpected => h hexpected.symm⟩

/-- Cells apart stay apart: a compare-exchange succeeds in one of them at most. -/
theorem step_apart {c d : Cell} {op : Op} (hwhole : op.NegatedWhole) (h : Apart c d)
    (hanswer : (windows.step c op).2 = (c11.step d op).2) :
    Apart (windows.step c op).1 (c11.step d op).1 := by
  obtain ⟨hatomic, hexpected⟩ := h
  cases op with
  | load => exact ⟨hatomic, hexpected⟩
  | store value => exact ⟨rfl, hexpected⟩
  | fetchAdd value =>
    refine ⟨?_, hexpected⟩
    show c.atomic + value.eval = d.atomic + value.eval
    rw [hatomic]
  | fetchSub value =>
    have hminus : value.negated = -value.eval := hwhole
    refine ⟨?_, hexpected⟩
    show c.atomic + value.negated = d.atomic - value.eval
    rw [hatomic, hminus, BitVec.sub_eq_add_neg]
  | compareExchangeStrong desired =>
    by_cases hwindows : c.atomic = c.expected
    · by_cases hc11 : d.atomic = d.expected
      · exact absurd (hwindows.symm.trans (hatomic.trans hc11)) hexpected
      · rw [windows_exchange desired hwindows, c11_fail desired hc11] at hanswer
        exact absurd (Option.some.inj hanswer) (by decide)
    · by_cases hc11 : d.atomic = d.expected
      · rw [windows_fail desired hwindows, c11_exchange desired hc11] at hanswer
        exact absurd (Option.some.inj hanswer) (by decide)
      · rw [windows_fail desired hwindows, c11_fail desired hc11]
        refine ⟨hatomic, fun hsame => hwindows ?_⟩
        exact hatomic.trans hsame.symm

/-- A thread gets the same answers on both platforms, and the same contents of the atomic and of `expected` after
    every operation, exactly when all its operations are portable. Where no minus sign is cut off from a part of its
    operand it is enough that the contents are the same at the end. -/
theorem platforms_agree_iff (c : Cell) (ops : List Op) :
    ((∀ done, done <+: ops → windows.run c done = c11.run c done) ↔
      windows.toMachine.AllSteps (fun c op => op.Portable c) c ops) ∧
    ((∀ op ∈ ops, op.NegatedWhole) → (windows.run c ops = c11.run c ops ↔
      windows.toMachine.AllSteps (fun c op => op.Portable c) c ops)) := by
  have hagree : ∀ done, windows.run c done = c11.run c done ↔ Transducer.Agree windows c11 Eq c c done := by
    intro done
    rw [Transducer.Agree, Prod.ext_iff, and_comm]
  simp only [hagree]
  refine ⟨Transducer.agree_throughout_iff_allSteps (fun c d op hcell => step_portable_iff hcell) rfl, ?_⟩
  intro hwhole
  apply Transducer.agree_iff_allSteps (P := Op.NegatedWhole) (D := Apart)
  · intro c d op hcell h
    exact (step_portable_iff hcell).mpr h
  · intro c d op hop hcell h hanswer
    exact step_not_portable hop hcell h hanswer
  · intro c d op hop h hanswer
    exact step_apart hop h hanswer
  · intro c d h hcell
    exact h.2 (congrArg Cell.expected hcell)
  · exact hwhole
  · rfl

/-- An addition of 1 returns 1 on Windows, and 0 with C11. -/
theorem platforms_disagree :
    windows.run ⟨0, 0⟩ [.fetchAdd (.value 1)] ≠ c11.run ⟨0, 0⟩ [.fetchAdd (.value 1)] := by
  decide

-- `atomic_fetch_sub(&x, 1 - 1)` adds `-1 - 1` on Windows
example : windows.run ⟨10, 0⟩ [.fetchSub (.binary (· - ·) (.value 1) (.value 1))] = (⟨8, 0⟩, [some 8]) ∧
    c11.run ⟨10, 0⟩ [.fetchSub (.binary (· - ·) (.value 1) (.value 1))] = (⟨10, 0⟩, [some 10]) := by
  decide

end TagSim.Shims
