import TagSim.Iocp.Proofs.StepProofs

/-!
# Stopping the event loop

`proactor_tcp_iocp_stop` sets `stop` and queues no packet, and `proactor_tcp_iocp_wake` queues none either:
a loop that waits sees `stop` when the next packet arrives. The loop is stuck exactly where it is stopped
while it waits and the queue is empty.
-/

namespace TagSim.Iocp

/-- The event loop waits for a packet although `stop` is set and the queue is empty. Every call of
    `proactor_tcp_iocp_stop` has returned, for it is one step. -/
def Stuck (w : World) : Prop :=
  w.exited = false ∧ w.loop = .wait ∧ w.stop = true ∧ w.kernel.queue = []

/-- `proactor_tcp_iocp_stop` is called while the event loop waits, or is past the test of `stop` on its way to
    `GetQueuedCompletionStatus`, and the queue is empty. -/
def StopsIdle (w : World) (act : Action) : Prop :=
  act = .stop ∧ w.loop = .wait ∧ w.kernel.queue = []

variable {w₀ w w' : World} {act : Action} {as : List Action}

/-- Nothing but the event loop takes a packet from the queue. -/
theorem Effect.queue_nil (he : Effect w w') (hnil : w'.kernel.queue = []) : w.kernel.queue = [] := by
  have hpost : ∀ {socket a kind answer}, w.kernel.post socket a kind answer = some w'.kernel →
      w.kernel.queue = [] := by
    intro socket a kind answer h
    obtain ⟨-, -, honce, hlater⟩ := Kernel.post_spec h
    cases answer with
    | atOnce result =>
      obtain ⟨-, -, key, -, hqueue⟩ := honce result rfl
      rw [hnil] at hqueue
      simp at hqueue
    | pending | failed => rw [← hlater nofun, hnil]
  cases he with
  | quiet hheap hqueue hpending hkeys hhist => rw [← hqueue, hnil]
  | receives socket a answer hfresh h hheap hhist => exact hpost h
  | sends socket data a answer hfresh h hheap hhist => exact hpost h
  | completes a result op hop hcomplete hheap hhist =>
    obtain ⟨socket, kind, key, -, -, -, hk⟩ := Kernel.complete_cases hcomplete
    have hqueue : w'.kernel.queue = w.kernel.queue ++ [⟨key, some a, result⟩] := by
      rw [hk]
      rfl
    rw [hnil] at hqueue
    simp at hqueue
  | arrives key overlapped hkernel hheap hhist =>
    have hqueue : w'.kernel.queue = w.kernel.queue ++ [⟨key, overlapped, .other⟩] := by
      rw [hkernel]
      rfl
    rw [hnil] at hqueue
    simp at hqueue

/-- A step either leaves the loop and `stop` alone, or it is a call of `stop`, a step of the loop that does not
    end in a wait with `stop` set, or the end of the process. -/
theorem step_loop (h : machine.step w act = some w') : w.exited = false ∧
    (SameLoop w w' ∨ act = .stop ∧ w' = { w with stop := true } ∨
      ¬ (w'.loop = .wait ∧ w'.stop = true) ∨ w'.exited = true) := by
  have hstep : step w act = some w' := h
  have halive := alive_of_step hstep
  unfold step at hstep
  rw [if_neg (by simp [halive])] at hstep
  refine ⟨halive, ?_⟩
  cases act with
  | startServer port ans =>
    obtain rfl := Option.some.inj hstep
    exact Or.inl startServer_spec.2
  | connect address port ans =>
    obtain rfl := Option.some.inj hstep
    exact Or.inl connect_spec.2
  | send socket data ans => exact Or.inl (send_spec hstep).2
  | stop =>
    obtain rfl := Option.some.inj hstep
    exact Or.inr (Or.inl ⟨rfl, rfl⟩)
  | wake | setReceiveCallback func userData | setSendCompleteCallback func userData
    | setAcceptCallback func userData | arrive key overlapped =>
    obtain rfl := Option.some.inj hstep
    exact Or.inl ⟨rfl, rfl⟩
  | run =>
    simp only at hstep
    split_ifs at hstep
    obtain rfl := Option.some.inj hstep
    exact Or.inr (Or.inr (Or.inl (by simp)))
  | test =>
    by_cases htest : w.loop = .test
    · rw [if_pos htest] at hstep
      obtain rfl := Option.some.inj hstep
      refine Or.inr (Or.inr (Or.inl ?_))
      rintro ⟨hwait, hstop⟩
      have hreturned : (if w.stop then LoopPoint.returned else .wait) = .wait := hwait
      have hset : w.stop = true := hstop
      rw [if_pos hset] at hreturned
      cases hreturned
    · rw [if_neg htest] at hstep
      cases hstep
  | dequeue accept io =>
    obtain ⟨p, rest, -, -, hhandle⟩ := dequeue_cases h
    have htest : w'.loop = .test := (packet_spec hhandle).2.loop
    exact Or.inr (Or.inr (Or.inl (by simp [htest])))
  | dequeueFails =>
    simp only at hstep
    split_ifs at hstep
    obtain rfl := Option.some.inj hstep
    exact Or.inr (Or.inr (Or.inr rfl))
  | complete a result => exact Or.inl (ioCompletes_spec hstep).2

/-- The loop gets stuck where it is stopped while it waits and the queue is empty, and nowhere else. -/
theorem stuck_step (hnot : ¬ Stuck w) (h : machine.step w act = some w') :
    ¬ Stuck w' ↔ ¬ StopsIdle w act := by
  obtain ⟨halive, hloop⟩ := step_loop h
  refine not_congr ⟨?_, ?_⟩
  · rintro ⟨halive', hwait, hstop, hqueue⟩
    rcases hloop with hsame | ⟨rfl, rfl⟩ | hother | hexit
    · -- it was stuck before, or the packet that it took has been taken by nobody
      exfalso
      cases step_outcome h with
      | calls hact heffect =>
        exact hnot ⟨halive, hsame.loop.symm.trans hwait, hsame.stop.symm.trans hstop, heffect.queue_nil hqueue⟩
      | dequeues p rest accept io hact hloop hq hhandle heffect =>
        have htest : w'.loop = .test := (packet_spec hhandle).2.loop
        rw [hwait] at htest
        cases htest
    · exact ⟨rfl, hwait, hqueue⟩
    · exact absurd ⟨hwait, hstop⟩ hother
    · rw [halive'] at hexit
      cases hexit
  · rintro ⟨rfl, hwait, hqueue⟩
    have hstep : step w .stop = some w' := h
    rw [step, if_neg (by simp [halive])] at hstep
    obtain rfl := Option.some.inj hstep
    exact ⟨halive, hwait, rfl, hqueue⟩

section Run

/-- The event loop is stuck in no state of a run exactly when it is never stopped while it waits and the
    queue is empty. -/
theorem never_stuck_iff (hstart : ¬ Stuck w₀) (hrun : machine.run w₀ as = some w) :
    machine.AllStates (fun v => ¬ Stuck v) w₀ as ↔ machine.AllSteps (fun v act => ¬ StopsIdle v act) w₀ as :=
  Machine.allStates_iff_allSteps (fun _ _ _ _ _ => trivial) (fun _ _ _ _ hnot hact => stuck_step hnot hact)
    trivial hstart hrun

/-- The loop is stopped before it tests `stop`. -/
def stoppedInTime : List Action := [.connect "127.0.0.1" 502 ⟨6, true, true⟩, .run, .stop, .wake, .test]

/-- The loop is stopped while it waits on an idle connection. -/
def stoppedIdle : List Action := [.connect "127.0.0.1" 502 ⟨6, true, true⟩, .run, .test, .stop, .wake]

theorem start_not_stuck : ¬ Stuck {} := fun h => by cases h.2.1

theorem stoppedInTime_never_stuck : machine.AllStates (fun v => ¬ Stuck v) {} stoppedInTime := by
  have hsome : (machine.run {} stoppedInTime).isSome = true := rfl
  have hrun := (Option.some_get hsome).symm
  refine (never_stuck_iff start_not_stuck hrun).mpr ?_
  refine (Machine.allSteps_cons rfl).mpr ⟨(fun h => by cases h.1), ?_⟩
  refine (Machine.allSteps_cons rfl).mpr ⟨(fun h => by cases h.1), ?_⟩
  -- the loop is at the test
  refine (Machine.allSteps_cons rfl).mpr ⟨(fun h => by cases h.2.1), ?_⟩
  refine (Machine.allSteps_cons rfl).mpr ⟨(fun h => by cases h.1), ?_⟩
  exact (Machine.allSteps_cons rfl).mpr ⟨(fun h => by cases h.1), trivial⟩

theorem stoppedIdle_stuck : ¬ ∀ w₀ as w, ¬ Stuck w₀ → machine.run w₀ as = some w →
    machine.AllStates (fun v => ¬ Stuck v) w₀ as := by
  intro h
  have hsome : (machine.run {} stoppedIdle).isSome = true := rfl
  have hrun := (Option.some_get hsome).symm
  have hall := h _ _ _ start_not_stuck hrun
  -- the states after `connect`, `run`, `test` and `stop`
  obtain ⟨-, hall⟩ := hall
  obtain ⟨-, hall⟩ := hall _ rfl
  obtain ⟨-, hall⟩ := hall _ rfl
  obtain ⟨-, hall⟩ := hall _ rfl
  exact (hall _ rfl).1 ⟨rfl, rfl, rfl, rfl⟩

end Run

end TagSim.Iocp
