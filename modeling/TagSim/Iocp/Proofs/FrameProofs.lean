import TagSim.Iocp.Proofs.StepProofs

/-!
# Proofs: what a step of the IOCP backend is, and what it leaves alone

`StepWay` says once which function each step calls and where the loop has to be for it. The functions that handle a
packet or post an operation set neither `server_socket` nor `client_socket`. A function that posts an operation
allocates one.
-/

namespace TagSim.Iocp

/-- The ways through a step, one for each action. -/
inductive StepWay (w : World) : Action → World → Prop
  | startServer (port ans) : StepWay w (.startServer port ans) (proactorTcpIocpStartServer port ans w)
  | connect (address port ans) : StepWay w (.connect address port ans) (proactorTcpIocpConnect address port ans w)
  | send (socket data ans) {w'} (hsend : proactorTcpIocpSend socket data ans w = some w') :
    StepWay w (.send socket data ans) w'
  | wake : StepWay w .wake (proactorTcpIocpWake w)
  | stop : StepWay w .stop (proactorTcpIocpStop w)
  | setReceiveCallback (func userData) : StepWay w (.setReceiveCallback func userData)
      { w with receiveCallback := func, receiveCallbackUserData := userData }
  | setSendCompleteCallback (func userData) : StepWay w (.setSendCompleteCallback func userData)
      { w with sendCompleteCallback := func, sendCompleteCallbackUserData := userData }
  | setAcceptCallback (func userData) : StepWay w (.setAcceptCallback func userData)
      { w with acceptCallback := func, acceptCallbackUserData := userData }
  | run (hloop : w.loop = .returned) : StepWay w .run { w with loop := .test }
  | test (hloop : w.loop = .test) : StepWay w .test { w with loop := if w.stop then .returned else .wait }
  | dequeue (accept io) {w'} (p rest) (hloop : w.loop = .wait) (hqueue : w.kernel.queue = p :: rest)
      (hhandle : handlePacket p accept io (w.take p rest) = some w') : StepWay w (.dequeue accept io) w'
  | dequeueFails (hloop : w.loop = .wait) :
    StepWay w .dequeueFails (handleError "GetQueuedCompletionStatus" w)
  | complete (a result) {w'} (hcomplete : ioCompletes a result w = some w') : StepWay w (.complete a result) w'
  | arrive (key overlapped) : StepWay w (.arrive key overlapped)
      { w with kernel := w.kernel.enqueue ⟨key, overlapped, .other⟩ }

variable {w w' : World} {act : Action}

theorem step_way (h : step w act = some w') : StepWay w act w' := by
  have hstep := h
  have halive := alive_of_step h
  unfold step at hstep
  rw [if_neg (by simp [halive])] at hstep
  cases act with
  | send socket data ans => exact .send socket data ans hstep
  | complete a result => exact .complete a result hstep
  | startServer | connect | wake | stop | setReceiveCallback | setSendCompleteCallback | setAcceptCallback | arrive =>
    obtain rfl := Option.some.inj hstep
    constructor
  | run | test | dequeueFails =>
    obtain ⟨hloop, hw⟩ := Option.ite_none_right_eq_some.mp hstep
    obtain rfl := Option.some.inj hw
    constructor
    exact hloop
  | dequeue accept io =>
    obtain ⟨p, rest, hloop, hqueue, hhandle⟩ := dequeue_cases h
    exact .dequeue accept io p rest hloop hqueue hhandle

/-- A step of the functions that leave `server_socket` and `client_socket` alone. -/
structure SameSockets (w w' : World) : Prop where
  server : w'.serverSocket = w.serverSocket
  client : w'.clientSocket = w.clientSocket

/-- The allocations of a function: one more if it is given memory. -/
inductive Allocates (given : Bool) (w w' : World) : Prop
  | nothing (hgiven : given = false) (hheap : w'.heap = w.heap)
  | one (a op) (hgiven : given = true) (hfresh : w.heap a = none)
      (hheap : w'.heap = Function.update w.heap a (some op))

theorem dataEvent_framed {socket : Socket} {ans : IoAnswers} (h : handleDataEvent socket ans w = some w') :
    SameSockets w w' ∧ Allocates ans.malloc.isSome w w' := by
  unfold handleDataEvent at h
  cases hmalloc : ans.malloc with
  | none =>
    simp only [hmalloc] at h
    obtain rfl := Option.some.inj h
    exact ⟨⟨rfl, rfl⟩, .nothing rfl rfl⟩
  | some a =>
    simp only [hmalloc] at h
    obtain ⟨hfresh, h⟩ := eq_of_fresh h
    cases hpost : w.kernel.post socket a .recv ans.io with
    | none => simp [hpost] at h
    | some kernel =>
      simp only [hpost] at h
      by_cases hfailed : ans.io = .failed
      · rw [if_pos hfailed] at h
        obtain rfl := Option.some.inj h
        refine ⟨?_, .one a _ rfl hfresh rfl⟩
        constructor <;> simp only [handleError, World.log, World.store]
      · rw [if_neg hfailed] at h
        split at h
        · obtain rfl := Option.some.inj h
          exact ⟨⟨rfl, rfl⟩, .one a _ rfl hfresh rfl⟩
        · split_ifs at h
          all_goals
            obtain rfl := Option.some.inj h
            exact ⟨⟨rfl, rfl⟩, .one a _ rfl hfresh rfl⟩

theorem send_framed {socket : Socket} {data : List Byte} {ans : IoAnswers}
    (h : proactorTcpIocpSend socket data ans w = some w') :
    SameSockets w w' ∧ Allocates ans.malloc.isSome w w' := by
  unfold proactorTcpIocpSend at h
  cases hmalloc : ans.malloc with
  | none =>
    simp only [hmalloc] at h
    obtain rfl := Option.some.inj h
    exact ⟨⟨rfl, rfl⟩, .nothing rfl rfl⟩
  | some a =>
    simp only [hmalloc] at h
    obtain ⟨hfresh, h⟩ := eq_of_fresh h
    cases hpost : w.kernel.post socket a (.send (data.length % ulongSize)) ans.io with
    | none => simp [hpost] at h
    | some kernel =>
      simp only [hpost] at h
      split_ifs at h
      all_goals
        obtain rfl := Option.some.inj h
        refine ⟨?_, .one a _ rfl hfresh rfl⟩
        constructor <;> simp only [handleError, World.log, World.store]

theorem acceptEvent_framed (server : Socket) (ans : AcceptAnswers) (w : World) :
    SameSockets w (handleAcceptEvent server ans w) := by
  unfold handleAcceptEvent
  dsimp only
  split_ifs
  · exact ⟨rfl, rfl⟩
  · exact ⟨rfl, rfl⟩
  · cases w.acceptCallback
    all_goals exact ⟨rfl, rfl⟩

theorem packet_framed {packet : Packet} {accept : AcceptAnswers} {io : IoAnswers}
    (h : handlePacket packet accept io w = some w') : SameSockets w w' := by
  unfold handlePacket at h
  split_ifs at h
  · obtain rfl := Option.some.inj h
    exact acceptEvent_framed ..
  · exact (dataEvent_framed h).1
  · obtain rfl := Option.some.inj h
    exact ⟨rfl, rfl⟩

/-- The kernel finishes the operation, and may write to its buffer. -/
theorem ioCompletes_framed {a : Addr} {result : Finished} (h : ioCompletes a result w = some w') :
    SameSockets w w' ∧ w.kernel.complete a result = some w'.kernel ∧
      ∃ op op', w.heap a = some op ∧ w'.heap = Function.update w.heap a (some op') := by
  unfold ioCompletes at h
  cases hcomplete : w.kernel.complete a result with
  | none => simp [hcomplete] at h
  | some kernel =>
    cases hop : w.heap a with
    | none => simp [hcomplete, hop] at h
    | some op =>
      simp only [hcomplete, hop] at h
      cases result with
      | received data =>
        obtain rfl := Option.some.inj h
        exact ⟨⟨rfl, rfl⟩, rfl, op, { op with buffer := data }, rfl, rfl⟩
      | sent n | other =>
        obtain rfl := Option.some.inj h
        refine ⟨⟨rfl, rfl⟩, rfl, op, op, rfl, ?_⟩
        rw [← hop, Function.update_eq_self]

end TagSim.Iocp
