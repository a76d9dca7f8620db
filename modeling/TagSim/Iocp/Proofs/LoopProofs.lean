import TagSim.Iocp.Proofs.FrameProofs
import TagSim.Runs.Proofs.EventLoopProofs

/-!
# The packets after a stop

The backend is an event loop whose batches are single packets: it tests `stop` before each of them.
-/

namespace TagSim.Iocp

/-- Where the loop stands as an event loop. -/
def LoopPoint.view : LoopPoint → TagSim.LoopPoint
  | .returned => .returned
  | .test => .batch 0
  | .wait => .waiting

/-- The event loop that the process is. A process that has exited has stopped. -/
def loopView (w : World) : EventLoop := if w.exited then ⟨true, .returned⟩ else ⟨w.stop, w.loop.view⟩

/-- What a step is for the event loop, up to the end of the process. -/
def Action.loopActions : Action → List EventLoop.Action
  | .run => [.enter]
  | .stop => [.raise]
  | .test => [.test]
  | .dequeue .. => [.fetch 1, .handle]
  | _ => []

/-- What a step is for the event loop. -/
def loopActions (w : World) (act : Action) : List EventLoop.Action :=
  act.loopActions ++ if (step w act).any World.exited then [.halt] else []

/-- The event loop handles a packet. -/
def handlesPacket (_ : World) : Action → Nat
  | .dequeue .. => 1
  | _ => 0

/-- The event loop calls `GetQueuedCompletionStatus`. -/
def callsDequeue (w : World) : Action → Nat
  | .test => if w.stop then 0 else 1
  | _ => 0

variable {w₀ w w' : World} {act : Action} {as bs : List Action}

theorem loopView_alive (h : w.exited = false) : loopView w = ⟨w.stop, w.loop.view⟩ := if_neg (by simp [h])

/-- A function that leaves the loop alone is nothing for the event loop. -/
theorem SameLoop.view (h : SameLoop w w') (halive : w.exited = false) (halive' : w'.exited = false) :
    loopView w' = loopView w := by
  rw [loopView_alive halive, loopView_alive halive', h.stop, h.loop]

/-- Up to the end of the process, every step is what it stands for in the event loop. -/
theorem step_view_alive (h : step w act = some w') :
    ∃ l, (EventLoop.machine 1).run (loopView w) act.loopActions = some l ∧
      (w'.exited = false → loopView w' = l) := by
  have halive := alive_of_step h
  cases step_way h with
  | startServer port ans => exact ⟨_, rfl, startServer_spec.2.view halive⟩
  | connect address port ans => exact ⟨_, rfl, connect_spec.2.view halive⟩
  | send socket data ans hsend => exact ⟨_, rfl, (send_spec hsend).2.view halive⟩
  | complete a result hcomplete => exact ⟨_, rfl, (ioCompletes_spec hcomplete).2.view halive⟩
  | wake | setReceiveCallback func userData | setSendCompleteCallback func userData
    | setAcceptCallback func userData | arrive key overlapped =>
    exact ⟨_, rfl, SameLoop.view ⟨rfl, rfl⟩ halive⟩
  | stop =>
    refine ⟨_, rfl, fun halive' => ?_⟩
    rw [loopView_alive halive, loopView_alive halive']
    rfl
  | run hloop =>
    rw [loopView_alive halive, hloop]
    refine ⟨_, rfl, fun halive' => ?_⟩
    rw [loopView_alive halive']
    rfl
  | test hloop =>
    rw [loopView_alive halive, hloop]
    refine ⟨_, rfl, fun halive' => ?_⟩
    rw [loopView_alive halive']
    cases w.stop <;> simp [LoopPoint.view]
  | dequeue accept io p rest hloop hqueue hhandle =>
    rw [loopView_alive halive, hloop]
    refine ⟨_, rfl, fun halive' => ?_⟩
    have hsame := (packet_spec hhandle).2
    rw [loopView_alive halive', hsame.stop, hsame.loop]
    rfl
  | dequeueFails => exact ⟨_, rfl, fun halive' => by cases halive'⟩

/-- Every step is what it stands for in the event loop. -/
theorem step_view (h : step w act = some w') :
    (EventLoop.machine 1).run (loopView w) (loopActions w act) = some (loopView w') := by
  obtain ⟨l, hl, hview⟩ := step_view_alive h
  by_cases hexit : w'.exited = true
  · rw [loopActions, h, if_pos (by simpa using hexit), Machine.run_append hl, loopView, if_pos hexit]
    rfl
  · rw [loopActions, h, if_neg (by simpa using hexit), List.append_nil, hl, hview (by simpa using hexit)]

theorem implements_eventLoop :
    EventLoop.Implements machine 1 (fun _ => True) loopView loopActions handlesPacket callsDequeue where
  keeps _ _ _ _ _ := trivial
  simulates _ _ _ _ h := step_view h
  handled_le w act w' _ h := by
    obtain ⟨l, hl, -⟩ := step_view_alive h
    cases act with
    | dequeue accept io =>
      obtain ⟨l₁, hfetch, hrun⟩ := Machine.run_cons_some hl
      obtain ⟨l₂, hhandle, -⟩ := Machine.run_cons_some hrun
      rw [loopActions, Action.loopActions, List.cons_append, Machine.total_cons _ hfetch]
      exact Nat.le_trans (Machine.le_total_cons EventLoop.handles hhandle) (Nat.le_add_left ..)
    | _ => exact Nat.zero_le _
  waited_le w act w' _ h := by
    obtain ⟨l, hl, -⟩ := step_view_alive h
    cases act with
    | test =>
      obtain ⟨l₁, htest, -⟩ := Machine.run_cons_some hl
      refine Nat.le_trans ?_ (Machine.le_total_cons EventLoop.waits htest)
      have hstep : step w .test = some w' := h
      rw [loopView_alive (alive_of_step hstep), callsDequeue, EventLoop.waits]
      cases w.stop <;> simp
    | _ => exact Nat.zero_le _

/-- Once `stop` is set the loop handles one packet at most, and that only if it is waiting for it, and it never
    calls `GetQueuedCompletionStatus` again, however often `proactor_tcp_iocp_run` is called. -/
theorem one_packet_after_stop (hstop : w.stop = true) (hcont : machine.run w bs = some w') :
    machine.total handlesPacket w bs ≤ (if w.loop = .wait then 1 else 0) ∧
      machine.total callsDequeue w bs = 0 := by
  have hraised : (loopView w).stop = true := by
    unfold loopView
    split_ifs
    · rfl
    · exact hstop
  have hleft : EventLoop.left 1 (loopView w) ≤ if w.loop = .wait then 1 else 0 := by
    unfold loopView
    by_cases hexit : w.exited = true
    · rw [if_pos hexit]
      exact Nat.zero_le _
    · rw [if_neg hexit]
      cases w.loop <;> simp [LoopPoint.view, EventLoop.left]
  have hfits : EventLoop.left 1 (loopView w) ≤ 1 := by
    refine Nat.le_trans hleft ?_
    split_ifs <;> simp
  have hnil : machine.run w [] = some w := rfl
  obtain ⟨hdone, -, hnone⟩ := implements_eventLoop.stopped trivial hfits hnil hraised hcont
  exact ⟨Nat.le_trans hdone hleft, hnone⟩

/-- A stop while the loop waits for the packet of a send, and two packets. -/
def stopWhileWaiting : List Action × List Action :=
  ([.connect "127.0.0.1" 502 ⟨6, true, true⟩, .run, .test, .stop],
    [.send 6 [1] ⟨some 1, .atOnce (.sent 1)⟩, .arrive 7 none, .dequeue {} ⟨some 2, .pending⟩, .test, .run, .test])

theorem one_packet_after_stop_waiting : ∃ w w', machine.run {} stopWhileWaiting.1 = some w ∧
    machine.run w stopWhileWaiting.2 = some w' ∧ w'.loop = .returned ∧
    machine.total handlesPacket w stopWhileWaiting.2 ≤ (if w.loop = .wait then 1 else 0) ∧
    machine.total callsDequeue w stopWhileWaiting.2 = 0 := by
  have hsome : (machine.run {} stopWhileWaiting.1).isSome = true := rfl
  have hrun := (Option.some_get hsome).symm
  have hsome' : (machine.run (Option.get _ hsome) stopWhileWaiting.2).isSome = true := rfl
  have hcont := (Option.some_get hsome').symm
  exact ⟨_, _, hrun, hcont, rfl, one_packet_after_stop rfl hcont⟩

end TagSim.Iocp
