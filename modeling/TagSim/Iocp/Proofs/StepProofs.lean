import TagSim.Iocp.Proactor
import TagSim.Runs.Proofs.MachineProofs

/-!
# What one step of the IOCP backend can do

`Effect w w'` lists what a function of the backend, the application or the kernel can do: nothing of
interest, a receive or a send posted, an operation finished, a packet queued that is not the backend's.
`Outcome` adds the packet that the event loop takes first. `step_outcome` is the only place where the step
function is unfolded.
-/

namespace TagSim.Iocp

/-- Observations that concern no operation. -/
def Obs.Neutral : Obs → Prop
  | .perror _ | .listen .. | .connect .. | .acceptCallback .. => True
  | _ => False

/-- The call of the receive callback, if there is one and there is something to receive. -/
def receiveObs (w : World) (socket : Socket) (a : Addr) (data : List Byte) : List Obs :=
  if data ≠ [] then
    (w.receiveCallback.map fun func =>
      .receiveCallback func socket a data w.receiveCallbackUserData).toList
  else []

/-- Sockets are associated under themselves as keys. -/
def NewKeys (w w' : World) : Prop :=
  ∀ s key, w'.kernel.keys s = some key → w.kernel.keys s = some key ∨ key = s

/-- What a function or the kernel can do. -/
inductive Effect (w w' : World) : Prop
  | quiet (hheap : w'.heap = w.heap) (hqueue : w'.kernel.queue = w.kernel.queue)
      (hpending : w'.kernel.pending = w.kernel.pending) (hkeys : NewKeys w w')
      (hhist : ∃ pre, (∀ o ∈ pre, o.Neutral) ∧ w'.history = pre ++ w.history)
  | receives (socket a answer) (hfresh : w.heap a = none)
      (hpost : w.kernel.post socket a .recv answer = some w'.kernel)
      (hheap : w'.heap = Function.update w.heap a
        (some { wsabufBuf := .own, wsabufLen := bufferSize, buffer := answer.data }))
      (hhist : ∃ pre, (∀ o ∈ pre, o.Neutral) ∧ w'.history = pre ++ (receiveObs w socket a answer.data ++
        .wsaRecv socket a answer w.receiveCallback :: w.history))
  | sends (socket data a answer) (hfresh : w.heap a = none)
      (hpost : w.kernel.post socket a (.send (data.length % ulongSize)) answer = some w'.kernel)
      (hheap : w'.heap = Function.update w.heap a
        (some { wsabufBuf := .app data, wsabufLen := data.length % ulongSize }))
      (hhist : ∃ o, (o = .perror "WSASend" ∧ answer = .failed ∨
        o = .sendReturned socket data a ∧ answer ≠ .failed) ∧
        w'.history = o :: .wsaSend socket a (data.take (data.length % ulongSize)) answer :: w.history)
  | completes (a result op) (hop : w.heap a = some op)
      (hcomplete : w.kernel.complete a result = some w'.kernel)
      (hheap : ∃ buffer, w'.heap = Function.update w.heap a (some { op with buffer := buffer }))
      (hhist : w'.history = w.history)
  | arrives (key overlapped) (hkernel : w'.kernel = w.kernel.enqueue ⟨key, overlapped, .other⟩)
      (hheap : w'.heap = w.heap) (hhist : w'.history = w.history)

/-- The event loop stands where it stood, and `stop` is as it was. -/
structure SameLoop (w w' : World) : Prop where
  loop : w'.loop = w.loop
  stop : w'.stop = w.stop

/-- The outcomes of a step. -/
inductive Outcome (w : World) (act : Action) (w' : World) : Prop
  | calls (hact : ∀ accept io, act ≠ .dequeue accept io) (heffect : Effect w w')
  | dequeues (p rest accept io) (hact : act = .dequeue accept io) (hloop : w.loop = .wait)
      (hqueue : w.kernel.queue = p :: rest)
      (hhandle : handlePacket p accept io (w.take p rest) = some w') (heffect : Effect (w.take p rest) w')

namespace Kernel

variable {k k' : Kernel} {socket : Socket} {a : Addr} {kind : OpKind} {answer : IoAnswer}
  {result : Finished}

/-- A packet is queued when the operation is finished at once, and only then. -/
theorem post_spec (h : k.post socket a kind answer = some k') : k'.keys = k.keys ∧
    (∀ a', k'.pending a' ≠ none → k.pending a' ≠ none ∨ a' = a) ∧
    (∀ result, answer = .atOnce result → kind.allows result = true ∧ k'.pending = k.pending ∧
      ∃ key, k.keys socket = some key ∧ k'.queue = k.queue ++ [⟨key, some a, result⟩]) ∧
    ((∀ result, answer ≠ .atOnce result) → k'.queue = k.queue) := by
  unfold post at h
  cases answer with
  | failed =>
    obtain rfl := Option.some.inj h
    exact ⟨rfl, fun _ ha' => Or.inl ha', nofun, fun _ => rfl⟩
  | pending =>
    simp only at h
    split_ifs at h
    obtain rfl := Option.some.inj h
    refine ⟨rfl, fun a' ha' => ?_, nofun, fun _ => rfl⟩
    by_cases heq : a' = a
    · exact Or.inr heq
    · have hsame : Function.update k.pending a (some (socket, kind)) a' = k.pending a' :=
        Function.update_of_ne heq ..
      rw [← hsame]
      exact Or.inl ha'
  | atOnce result =>
    cases hkey : k.keys socket with
    | none => simp [hkey] at h
    | some key =>
      simp only [hkey] at h
      split_ifs at h with hallows
      obtain rfl := Option.some.inj h
      refine ⟨rfl, fun _ ha' => Or.inl ha', ?_, fun hno => absurd rfl (hno result)⟩
      intro result' heq
      obtain rfl := IoAnswer.atOnce.inj heq
      exact ⟨hallows, rfl, key, rfl, rfl⟩

theorem complete_cases (h : k.complete a result = some k') :
    ∃ socket kind key, k.pending a = some (socket, kind) ∧ kind.allows result = true ∧
      k.keys socket = some key ∧
      k' = { k.enqueue ⟨key, some a, result⟩ with pending := Function.update k.pending a none } := by
  unfold complete at h
  cases hpending : k.pending a with
  | none => simp [hpending] at h
  | some posted =>
    obtain ⟨socket, kind⟩ := posted
    cases hkey : k.keys socket with
    | none => simp [hpending, hkey] at h
    | some key =>
      simp only [hpending, hkey] at h
      split_ifs at h with hallows
      exact ⟨socket, kind, key, rfl, hallows, hkey, (Option.some.inj h).symm⟩

end Kernel

variable {w w' : World} {act : Action}

theorem NewKeys.refl (w : World) : NewKeys w w := fun _ _ h => Or.inl h

theorem NewKeys.associate (hkernel : w'.kernel = w.kernel.associate s s) : NewKeys w w' := by
  intro s' key hkey
  rw [hkernel] at hkey
  by_cases heq : s' = s
  · subst heq
    have hself : (w.kernel.associate s' s').keys s' = some s' := Function.update_self ..
    exact Or.inr (Option.some.inj (hself.symm.trans hkey)).symm
  · have hold : (w.kernel.associate s s).keys s' = w.kernel.keys s' := Function.update_of_ne heq ..
    exact Or.inl (hold.symm.trans hkey)

/-- A function that touches neither operations nor packets. -/
theorem Effect.of_neutral (hheap : w'.heap = w.heap) (hkernel : w'.kernel = w.kernel) (pre : List Obs)
    (hpre : ∀ o ∈ pre, o.Neutral) (hhist : w'.history = pre ++ w.history) : Effect w w' := by
  refine .quiet hheap (by rw [hkernel]) (by rw [hkernel]) ?_ ⟨pre, hpre, hhist⟩
  intro s key hkey
  rw [hkernel] at hkey
  exact Or.inl hkey

/-- A function that associates a socket with the port. -/
theorem Effect.of_associate {s : Socket} (hheap : w'.heap = w.heap)
    (hkernel : w'.kernel = w.kernel.associate s s) (pre : List Obs) (hpre : ∀ o ∈ pre, o.Neutral)
    (hhist : w'.history = pre ++ w.history) : Effect w w' :=
  .quiet hheap (by rw [hkernel]; rfl) (by rw [hkernel]; rfl) (.associate hkernel) ⟨pre, hpre, hhist⟩

/-- A call of the system that fails is reported. -/
theorem reported_spec (msg : String) (hheap : w'.heap = w.heap) (hkernel : w'.kernel = w.kernel)
    (hhist : w'.history = .perror msg :: w.history) (hsame : SameLoop w w') : Effect w w' ∧ SameLoop w w' :=
  ⟨.of_neutral hheap hkernel [.perror msg] (by simp [Obs.Neutral]) hhist, hsame⟩

theorem startServer_spec {port : UInt16} {ans : StartServerAnswers} :
    Effect w (proactorTcpIocpStartServer port ans w) ∧ SameLoop w (proactorTcpIocpStartServer port ans w) := by
  unfold proactorTcpIocpStartServer
  simp only
  split_ifs
  · exact reported_spec "socket" rfl rfl rfl ⟨rfl, rfl⟩
  · exact reported_spec "bind" rfl rfl rfl ⟨rfl, rfl⟩
  · exact reported_spec "listen" rfl rfl rfl ⟨rfl, rfl⟩
  · exact ⟨.of_neutral rfl rfl [.perror "CreateIoCompletionPort", .listen ans.socket port]
      (by simp [Obs.Neutral]) rfl, rfl, rfl⟩
  · exact ⟨.of_associate rfl rfl [.listen ans.socket port] (by simp [Obs.Neutral]) rfl, rfl, rfl⟩

theorem connect_spec {address : String} {port : UInt16} {ans : ConnectAnswers} :
    Effect w (proactorTcpIocpConnect address port ans w) ∧
      SameLoop w (proactorTcpIocpConnect address port ans w) := by
  unfold proactorTcpIocpConnect
  simp only
  split_ifs
  · exact reported_spec "socket" rfl rfl rfl ⟨rfl, rfl⟩
  · exact reported_spec "connect" rfl rfl rfl ⟨rfl, rfl⟩
  · exact ⟨.of_neutral rfl rfl [.perror "CreateIoCompletionPort", .connect ans.socket address port]
      (by simp [Obs.Neutral]) rfl, rfl, rfl⟩
  · exact ⟨.of_associate rfl rfl [.connect ans.socket address port] (by simp [Obs.Neutral]) rfl, rfl, rfl⟩

theorem acceptEvent_spec {server : Socket} {ans : AcceptAnswers} :
    Effect w (handleAcceptEvent server ans w) ∧ SameLoop w (handleAcceptEvent server ans w) := by
  unfold handleAcceptEvent
  simp only
  split_ifs
  · exact reported_spec "accept" rfl rfl rfl ⟨rfl, rfl⟩
  · exact reported_spec "CreateIoCompletionPort" rfl rfl rfl ⟨rfl, rfl⟩
  · cases hfunc : w.acceptCallback with
    | none => exact ⟨.of_associate rfl rfl [] (by simp) rfl, rfl, rfl⟩
    | some func =>
      exact ⟨.of_associate rfl rfl [.acceptCallback func server ans.accept w.acceptCallbackUserData]
        (by simp [Obs.Neutral]) rfl, rfl, rfl⟩

/-- `malloc` returns an address that is not in use. -/
theorem eq_of_fresh {a : Addr} {x : Option World} (h : (if (w.heap a).isSome then none else x) = some w') :
    w.heap a = none ∧ x = some w' := by
  split_ifs at h with hused
  exact ⟨by simpa using hused, h⟩

theorem dataEvent_spec {socket : Socket} {ans : IoAnswers} (h : handleDataEvent socket ans w = some w') :
    Effect w w' ∧ SameLoop w w' := by
  unfold handleDataEvent at h
  cases hmalloc : ans.malloc with
  | none =>
    simp only [hmalloc] at h
    obtain rfl := Option.some.inj h
    exact reported_spec "malloc" rfl rfl rfl ⟨rfl, rfl⟩
  | some a =>
    simp only [hmalloc] at h
    obtain ⟨hnone, h⟩ := eq_of_fresh h
    cases hpost : w.kernel.post socket a .recv ans.io with
    | none => simp [hpost] at h
    | some kernel =>
      simp only [hpost] at h
      by_cases hfailed : ans.io = .failed
      · rw [if_pos hfailed] at h
        obtain rfl := Option.some.inj h
        refine ⟨.receives socket a ans.io hnone hpost rfl ⟨[.perror "WSARecv"], by simp [Obs.Neutral], ?_⟩,
          ?_, ?_⟩
        · rw [receiveObs, if_neg (by simp [hfailed, IoAnswer.data])]
          rfl
        all_goals simp only [handleError, World.log, World.store]
      · rw [if_neg hfailed] at h
        -- the receive callback is the last thing that is called
        cases hfunc : w.receiveCallback <;> by_cases hdata : ans.io.data = []
        all_goals
          simp only [World.log, World.store, hfunc, hdata, ne_eq, not_true_eq_false, not_false_eq_true,
            if_true, if_false] at h
          obtain rfl := Option.some.inj h
          refine ⟨.receives socket a ans.io hnone ?_ ?_ ⟨[], by simp, ?_⟩, rfl, rfl⟩
        all_goals simp [hpost, hfunc, hdata, receiveObs]

theorem send_spec {socket : Socket} {data : List Byte} {ans : IoAnswers}
    (h : proactorTcpIocpSend socket data ans w = some w') : Effect w w' ∧ SameLoop w w' := by
  unfold proactorTcpIocpSend at h
  cases hmalloc : ans.malloc with
  | none =>
    simp only [hmalloc] at h
    obtain rfl := Option.some.inj h
    exact reported_spec "malloc" rfl rfl rfl ⟨rfl, rfl⟩
  | some a =>
    simp only [hmalloc] at h
    obtain ⟨hnone, h⟩ := eq_of_fresh h
    cases hpost : w.kernel.post socket a (.send (data.length % ulongSize)) ans.io with
    | none => simp [hpost] at h
    | some kernel =>
      simp only [hpost] at h
      by_cases hfailed : ans.io = .failed
      · rw [if_pos hfailed] at h
        obtain rfl := Option.some.inj h
        refine ⟨.sends socket data a ans.io hnone hpost rfl ⟨_, Or.inl ⟨rfl, hfailed⟩, rfl⟩, ?_, ?_⟩
        all_goals simp only [handleError, World.log, World.store]
      · rw [if_neg hfailed] at h
        obtain rfl := Option.some.inj h
        exact ⟨.sends socket data a ans.io hnone hpost rfl ⟨_, Or.inr ⟨rfl, hfailed⟩, rfl⟩, rfl, rfl⟩

theorem packet_spec {p : Packet} {accept : AcceptAnswers} {io : IoAnswers}
    (h : handlePacket p accept io w = some w') : Effect w w' ∧ SameLoop w w' := by
  unfold handlePacket at h
  split_ifs at h
  · obtain rfl := Option.some.inj h
    exact acceptEvent_spec
  · exact dataEvent_spec h
  · obtain rfl := Option.some.inj h
    exact ⟨.of_neutral rfl rfl [] (by simp) rfl, rfl, rfl⟩

theorem ioCompletes_spec {a : Addr} {result : Finished} (h : ioCompletes a result w = some w') :
    Effect w w' ∧ SameLoop w w' := by
  unfold ioCompletes at h
  cases hcomplete : w.kernel.complete a result with
  | none => simp [hcomplete] at h
  | some kernel =>
    cases hop : w.heap a with
    | none => simp [hcomplete, hop] at h
    | some op =>
      have hself : w.heap = Function.update w.heap a (some { op with buffer := op.buffer }) := by
        rw [← hop, Function.update_eq_self]
      simp only [hcomplete, hop] at h
      cases result with
      | received data =>
        obtain rfl := Option.some.inj h
        exact ⟨.completes a _ op hop hcomplete ⟨data, rfl⟩ rfl, rfl, rfl⟩
      | sent n | other =>
        obtain rfl := Option.some.inj h
        exact ⟨.completes a _ op hop hcomplete ⟨op.buffer, hself⟩ rfl, rfl, rfl⟩

/-- A process that has exited takes no step. -/
theorem alive_of_step (h : step w act = some w') : w.exited = false := by
  apply Bool.eq_false_iff.mpr
  intro hexit
  unfold step at h
  rw [if_pos hexit] at h
  cases h

/-- A packet is dequeued while the loop waits. -/
theorem dequeue_cases {accept : AcceptAnswers} {io : IoAnswers} (h : step w (.dequeue accept io) = some w') :
    ∃ p rest, w.loop = .wait ∧ w.kernel.queue = p :: rest ∧
      handlePacket p accept io (w.take p rest) = some w' := by
  have halive := alive_of_step h
  rw [step, if_neg (by simp [halive])] at h
  cases hloop : w.loop with
  | returned | test => simp [hloop] at h
  | wait =>
    cases hqueue : w.kernel.queue with
    | nil => simp [hloop, hqueue] at h
    | cons p rest =>
      simp only [hloop, hqueue] at h
      exact ⟨p, rest, rfl, rfl, h⟩

/-- Every step has one of the outcomes listed. -/
theorem step_outcome (h : machine.step w act = some w') : Outcome w act w' := by
  have hstep : step w act = some w' := h
  have halive := alive_of_step hstep
  unfold step at hstep
  rw [if_neg (by simp [halive])] at hstep
  cases act with
  | startServer port ans =>
    obtain rfl := Option.some.inj hstep
    exact .calls nofun startServer_spec.1
  | connect address port ans =>
    obtain rfl := Option.some.inj hstep
    exact .calls nofun connect_spec.1
  | send socket data ans => exact .calls nofun (send_spec hstep).1
  | wake =>
    obtain rfl := Option.some.inj hstep
    exact .calls nofun (.of_neutral rfl rfl [] (by simp) rfl)
  | stop =>
    obtain rfl := Option.some.inj hstep
    exact .calls nofun (.of_neutral rfl rfl [] (by simp) rfl)
  | setReceiveCallback func userData | setSendCompleteCallback func userData
    | setAcceptCallback func userData =>
    obtain rfl := Option.some.inj hstep
    exact .calls nofun (.of_neutral rfl rfl [] (by simp) rfl)
  | run | test =>
    simp only at hstep
    split_ifs at hstep
    all_goals
      obtain rfl := Option.some.inj hstep
      exact .calls nofun (.of_neutral rfl rfl [] (by simp) rfl)
  | dequeue accept io =>
    obtain ⟨p, rest, hloop, hqueue, hhandle⟩ := dequeue_cases h
    exact .dequeues p rest accept io rfl hloop hqueue hhandle (packet_spec hhandle).1
  | dequeueFails =>
    simp only at hstep
    split_ifs at hstep
    obtain rfl := Option.some.inj hstep
    exact .calls nofun (.of_neutral rfl rfl [.perror "GetQueuedCompletionStatus"] (by simp [Obs.Neutral]) rfl)
  | complete a result => exact .calls nofun (ioCompletes_spec hstep).1
  | arrive key overlapped =>
    obtain rfl := Option.some.inj hstep
    exact .calls nofun (.arrives key overlapped rfl rfl rfl)

end TagSim.Iocp
