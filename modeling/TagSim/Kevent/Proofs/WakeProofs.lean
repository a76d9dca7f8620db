import TagSim.Kevent.History
import TagSim.Kevent.Proofs.HistoryProofs
import TagSim.Runs.Proofs.MachineProofs
import TagSim.Runs.Proofs.SilentProofs

/-!
# The wake pipe

Each `proactor_net_wake` writes a byte and each event of the pipe takes one byte out, however many there
are. So the pipe is empty after its event exactly when one call at most was pending, and the backlog is
bounded by the calls since the last event exactly when this is so for every event.
-/

namespace TagSim.Kevent

/-- In a run, an event of the wake pipe leaves no byte behind. So the bytes in the pipe come from calls
    that were made since the last event: without such a call the pipe is not ready, and it is full only
    when as many calls were made as it has room for bytes. -/
structure WakesCleared (w₀ : World) (as : List Action) : Prop where
  cleared : machine.AllSteps
    (fun w act => HandlesWake w act → ∀ w', machine.step w act = some w' → unread w'.history = 0) w₀ as
  bounded : machine.AllStates (fun w => unread w.history ≤ wakesSince w.history) w₀ as
  notReady : machine.AllStates (fun w => wakesSince w.history = 0 → unread w.history = 0) w₀ as
  notFull : ∀ capacity, machine.AllStates
    (fun w => capacity ≤ unread w.history → capacity ≤ wakesSince w.history) w₀ as

variable {w₀ w w' : World} {act : Action} {as : List Action} {h pre : List Obs}

@[simp] theorem unread_wakeRead (fd : Fd) : unread (.wakeRead fd :: h) = unread h - 1 := rfl

@[simp] theorem wakesSince_wakeRead (fd : Fd) : wakesSince (.wakeRead fd :: h) = 0 := rfl

@[simp] theorem wakesSince_wakeWrite (fd : Fd) (ret : Int) :
    wakesSince (.wakeWrite fd ret :: h) = wakesSince h + 1 := rfl

theorem unread_wakeWrite_le (fd : Fd) (ret : Int) : unread (.wakeWrite fd ret :: h) ≤ unread h + 1 := by
  show (if ret = 1 then unread h + 1 else unread h) ≤ unread h + 1
  split <;> omega

theorem pipe_append (hpre : ∀ o ∈ pre, o.OfSocket) :
    unread (pre ++ h) = unread h ∧ wakesSince (pre ++ h) = wakesSince h := by
  refine ⟨append_silent (fun o h ho => ?_) hpre h, append_silent (fun o h ho => ?_) hpre h⟩
  all_goals
    cases o with
    | wakeRead | wakeWrite => exact ho.elim
    | _ => rfl

theorem pipe_eventTickObs : unread (eventTickObs w ++ h) = unread h ∧
    wakesSince (eventTickObs w ++ h) = wakesSince h := by
  unfold eventTickObs
  cases w.eventCb <;> exact ⟨rfl, rfl⟩

/-- Only calls and the events of the pipe change what is in it. -/
theorem pipe_step (hstep : machine.step w act = some w') (hnot : ¬ HandlesWake w act) :
    unread w'.history = unread w.history ∧ wakesSince w'.history = wakesSince w.history ∨
      ∃ ret, w'.history = .wakeWrite w.wakeupFds.2 ret :: w.history := by
  cases step_adds hstep with
  | wakeRead hhandles => exact absurd hhandles hnot
  | wakeWrite ret hact hhist => exact Or.inr ⟨ret, hhist⟩
  | nothing hact hhist =>
    rw [hhist]
    exact Or.inl ⟨rfl, rfl⟩
  | event accept read hact _ hlogs =>
    obtain ⟨pre, hpre, hhist⟩ := hlogs
    rw [hhist]
    exact Or.inl (pipe_append hpre)
  | tick start fuel hact hhist =>
    obtain ⟨pre, hpre, hhist⟩ := hhist
    obtain ⟨hunread, hwakes⟩ := pipe_append (h := eventTickObs w ++ w.history) hpre
    rw [hhist, hunread, hwakes]
    exact Or.inl pipe_eventTickObs

/-- An event of the wake pipe takes one byte out. -/
theorem wakeRead_step (hstep : machine.step w act = some w') (hhandles : HandlesWake w act) :
    w'.history = .wakeRead w.wakeupFds.1 :: w.history := by
  obtain ⟨accept', read', ev, rest, hact', -⟩ := id hhandles
  cases step_adds hstep with
  | wakeRead _ hhist => exact hhist
  | wakeWrite ret hact =>
    rcases hact with hact | hact <;> cases hact'.symm.trans hact
  | nothing hact =>
    rcases hact with hact | ⟨ans, hact⟩ <;> cases hact'.symm.trans hact
  | event accept read hact hnot => exact absurd hhandles hnot
  | tick start fuel hact => cases hact'.symm.trans hact

/-- An event of the wake pipe empties it when there is one byte at most. -/
theorem cleared_step (hstep : machine.step w act = some w') (hhandles : HandlesWake w act) :
    unread w'.history = 0 ↔ unread w.history ≤ 1 := by
  rw [wakeRead_step hstep hhandles, unread_wakeRead]
  omega

/-- The bound is kept by a step that handles one byte at most. -/
theorem bounded_step (hbound : unread w.history ≤ wakesSince w.history)
    (hone : HandlesWake w act → unread w.history ≤ 1) (hstep : machine.step w act = some w') :
    unread w'.history ≤ wakesSince w'.history := by
  by_cases hhandles : HandlesWake w act
  · have hle := hone hhandles
    rw [wakeRead_step hstep hhandles, unread_wakeRead, wakesSince_wakeRead]
    omega
  · rcases pipe_step hstep hhandles with ⟨hunread, hwakes⟩ | ⟨ret, hhist⟩
    · rw [hunread, hwakes]
      exact hbound
    · have hle := unread_wakeWrite_le w.wakeupFds.2 ret (h := w.history)
      rw [hhist, wakesSince_wakeWrite]
      omega

section Run

/-- In a run, the events of the wake pipe clear it exactly when each of them finds one byte at most. -/
theorem wakes_cleared_iff (hstart : w₀.history = []) (hrun : machine.run w₀ as = some w) :
    WakesCleared w₀ as ↔
      machine.AllSteps (fun v act => HandlesWake v act → unread v.history ≤ 1) w₀ as := by
  have hcleared : machine.AllSteps
      (fun v act => HandlesWake v act → ∀ v', machine.step v act = some v' → unread v'.history = 0) w₀ as ↔
      machine.AllSteps (fun v act => HandlesWake v act → unread v.history ≤ 1) w₀ as := by
    refine Machine.allSteps_congr (J := fun _ => True) (fun _ _ _ h _ => h) (fun v act v' _ hv => ?_) trivial
      hrun
    refine forall_congr' fun hhandles => ?_
    rw [← cleared_step hv hhandles]
    refine ⟨fun h => h v' hv, fun h v'' hv'' => ?_⟩
    rw [← Option.some.inj (hv.symm.trans hv'')]
    exact h
  constructor
  · exact fun h => hcleared.mp h.cleared
  · intro hone
    have hinit : unread w₀.history ≤ wakesSince w₀.history := by
      rw [hstart]
      exact Nat.zero_le _
    have hbounded := Machine.allStates_of_allSteps (fun _ _ _ => bounded_step) hinit hone
    refine ⟨hcleared.mpr hone, hbounded, ?_, fun capacity => ?_⟩
    · exact Machine.allStates_mono (fun v hv hzero => by omega) hbounded
    · exact Machine.allStates_mono (fun v hv hfull => by omega) hbounded

/-- A proactor without sockets. -/
def idleWorld : World :=
  { kq := 3
    wakeupFds := (4, 5)
    heap := fun _ => none
    registered := fun fd filter => if fd = 4 ∧ filter = .read then some none else none }

/-- The proactor is woken before a pass of `proactor_net_run`. -/
def wakeRun (wakes : Nat) : List Action :=
  List.replicate wakes (.wake 1) ++ [.run, .wait (.events [⟨4, .read, none⟩]), .event {} {}]

theorem wakeRun_cleared : WakesCleared idleWorld (wakeRun 1) := by
  have hsome : (machine.run idleWorld (wakeRun 1)).isSome = true := rfl
  have hrun := (Option.some_get hsome).symm
  refine (wakes_cleared_iff rfl hrun).mpr ?_
  -- `wake`, `run` and `kevent` handle no event
  refine (Machine.allSteps_cons rfl).mpr ⟨by simp [HandlesWake], ?_⟩
  refine (Machine.allSteps_cons rfl).mpr ⟨by simp [HandlesWake], ?_⟩
  refine (Machine.allSteps_cons rfl).mpr ⟨by simp [HandlesWake], ?_⟩
  exact (Machine.allSteps_cons rfl).mpr ⟨fun _ => Nat.le_refl 1, trivial⟩

/-- The proactor is woken twice before a pass, and a byte stays in the pipe. -/
theorem wakeRun_not_cleared : ¬ ∀ w₀ as w, w₀.history = [] → machine.run w₀ as = some w →
    WakesCleared w₀ as := by
  intro h
  have hsome : (machine.run idleWorld (wakeRun 2)).isSome = true := rfl
  have hrun := (Option.some_get hsome).symm
  have hcleared := (h _ _ _ rfl hrun).cleared
  obtain ⟨-, hcleared⟩ := hcleared
  obtain ⟨-, hcleared⟩ := hcleared _ rfl
  obtain ⟨-, hcleared⟩ := hcleared _ rfl
  obtain ⟨-, hcleared⟩ := hcleared _ rfl
  have hzero : 1 = 0 := hcleared _ rfl |>.1 ⟨{}, {}, _, _, rfl, rfl, rfl⟩ _ rfl
  cases hzero

end Run

end TagSim.Kevent
