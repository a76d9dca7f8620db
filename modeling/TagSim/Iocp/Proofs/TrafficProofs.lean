import Mathlib.Data.Set.Card
import TagSim.Iocp.Proofs.FrameProofs
import TagSim.Runs.Proofs.AccountProofs

/-!
# Where the work of the event loop comes from

An operation is in flight from its posting until its packet is dequeued. The loop posts a receive only for a
packet that it has dequeued, so that it never has more in flight than was brought in by sends and by packets
from elsewhere.
-/

namespace TagSim.Iocp

/-- The operations that are pending, and the packets in the queue. -/
noncomputable def inFlight (k : Kernel) : Nat := Set.ncard {a | k.pending a ≠ none} + k.queue.length

/-- The application posts a send, or a packet is queued that the backend did not ask for. -/
def bringsWork (_ : World) : Action → Nat
  | .send .. => 1
  | .arrive .. => 1
  | _ => 0

/-- `handle_data_event` is called for a packet. -/
def Packet.startsReceive (w : World) (p : Packet) : Bool := p.key != w.serverSocket && p.key == w.clientSocket

/-- A packet is handled that does not start a receive. -/
def endsWork (w : World) (act : Action) : Nat :=
  match act, w.kernel.queue with
  | .dequeue .., p :: _ => if p.startsReceive w then 0 else 1
  | _, _ => 0

variable {w₀ w w' : World} {act : Action} {as : List Action}

/-- Nothing is posted, finished or taken. -/
structure SameTraffic (w w' : World) : Prop where
  pending : w'.kernel.pending = w.kernel.pending
  queue : w'.kernel.queue = w.kernel.queue
  heap : w'.heap = w.heap

theorem SameTraffic.inFlight_eq (h : SameTraffic w w') : inFlight w'.kernel = inFlight w.kernel := by
  rw [inFlight, inFlight, h.pending, h.queue]

theorem startServer_traffic (port : UInt16) (ans : StartServerAnswers) (w : World) :
    SameTraffic w (proactorTcpIocpStartServer port ans w) := by
  unfold proactorTcpIocpStartServer
  simp only
  split_ifs <;> exact ⟨rfl, rfl, rfl⟩

theorem connect_traffic (address : String) (port : UInt16) (ans : ConnectAnswers) (w : World) :
    SameTraffic w (proactorTcpIocpConnect address port ans w) := by
  unfold proactorTcpIocpConnect
  simp only
  split_ifs <;> exact ⟨rfl, rfl, rfl⟩

theorem acceptEvent_traffic (server : Socket) (ans : AcceptAnswers) (w : World) :
    SameTraffic w (handleAcceptEvent server ans w) := by
  unfold handleAcceptEvent
  simp only
  split_ifs
  · exact ⟨rfl, rfl, rfl⟩
  · exact ⟨rfl, rfl, rfl⟩
  · cases w.acceptCallback <;> exact ⟨rfl, rfl, rfl⟩

section Counting

variable {α : Type}

theorem support_update_some (f : Addr → Option α) (a : Addr) (x : α) :
    {b | Function.update f a (some x) b ≠ none} = insert a {b | f b ≠ none} := by
  ext b
  by_cases hb : b = a
  · subst hb
    simp
  · simp [hb]

theorem support_update_none (f : Addr → Option α) (a : Addr) :
    {b | Function.update f a none b ≠ none} = {b | f b ≠ none} \ {a} := by
  ext b
  by_cases hb : b = a
  · subst hb
    simp
  · simp [hb]

end Counting

namespace Kernel

variable {k k' : Kernel} {socket : Socket} {a : Addr} {kind : OpKind} {answer : IoAnswer} {result : Finished}

/-- Only finitely many operations are pending. -/
def Finite (k : Kernel) : Prop := {a | k.pending a ≠ none}.Finite

/-- A posted operation is in flight, if it is not refused. -/
theorem post_inFlight (hfin : k.Finite) (h : k.post socket a kind answer = some k') :
    inFlight k' ≤ inFlight k + 1 ∧ k'.Finite := by
  cases answer with
  | failed =>
    obtain rfl := Option.some.inj h
    exact ⟨Nat.le_succ _, hfin⟩
  | pending =>
    rw [post] at h
    split_ifs at h
    obtain rfl := Option.some.inj h
    have hinsert := Set.ncard_insert_le a {a | k.pending a ≠ none}
    rw [inFlight, inFlight, Finite, support_update_some]
    refine ⟨?_, hfin.insert a⟩
    show Set.ncard _ + k.queue.length ≤ _
    omega
  | atOnce result =>
    obtain ⟨-, hpending, key, -, hqueue⟩ := (post_spec h).2.2.1 result rfl
    rw [inFlight, inFlight, Finite, hpending, hqueue, List.length_append, List.length_singleton]
    exact ⟨Nat.le_refl _, hfin⟩

/-- An operation that is finished stays in flight as a packet. -/
theorem complete_inFlight (hfin : k.Finite) (h : k.complete a result = some k') :
    inFlight k' = inFlight k ∧ k'.Finite := by
  obtain ⟨socket, kind, key, hpending, -, -, rfl⟩ := complete_cases h
  have hmem : a ∈ {a | k.pending a ≠ none} := by simp [hpending]
  have hremove := Set.ncard_sdiff_singleton_add_one hmem hfin
  rw [inFlight, inFlight, Finite, support_update_none]
  refine ⟨?_, hfin.subset Set.sdiff_subset⟩
  simp only [enqueue, List.length_append, List.length_singleton]
  omega

end Kernel

/-- What a function that posts at most one operation adds. -/
theorem Effect.inFlight_le (hfin : w.kernel.Finite) (h : Effect w w') :
    inFlight w'.kernel ≤ inFlight w.kernel + 1 ∧ w'.kernel.Finite := by
  cases h with
  | quiet hheap hqueue hpending hkeys hhist =>
    rw [inFlight, inFlight, Kernel.Finite, hqueue, hpending]
    exact ⟨Nat.le_succ _, hfin⟩
  | receives socket a answer hfresh hpost hheap hhist => exact Kernel.post_inFlight hfin hpost
  | sends socket data a answer hfresh hpost hheap hhist => exact Kernel.post_inFlight hfin hpost
  | completes a result op hop hcomplete hheap hhist =>
    obtain ⟨heq, hfin'⟩ := Kernel.complete_inFlight hfin hcomplete
    exact ⟨by omega, hfin'⟩
  | arrives key overlapped hkernel hheap hhist =>
    rw [hkernel, inFlight, inFlight, Kernel.enqueue, List.length_append, List.length_singleton]
    exact ⟨Nat.le_refl _, hfin⟩

/-- A packet is one of the server socket, starts a receive on the client socket, or is of no account. -/
theorem packet_cases {p : Packet} {accept : AcceptAnswers} {io : IoAnswers}
    (h : handlePacket p accept io w = some w') :
    (p.startsReceive w = false ∧ w' = handleAcceptEvent w.serverSocket accept w) ∨
      (p.startsReceive w = true ∧ handleDataEvent p.key io w = some w') ∨
      (p.startsReceive w = false ∧ w' = w) := by
  unfold handlePacket at h
  split_ifs at h with hserver hclient
  · exact Or.inl ⟨by simp [Packet.startsReceive, hserver], (Option.some.inj h).symm⟩
  · refine Or.inr (Or.inl ⟨?_, h⟩)
    rw [Packet.startsReceive, Bool.and_eq_true, bne_iff_ne, beq_iff_eq]
    exact ⟨hserver, hclient⟩
  · exact Or.inr (Or.inr ⟨by simp [Packet.startsReceive, hclient], (Option.some.inj h).symm⟩)

/-- A packet that is handled is replaced by one receive at most, and only if it is one of the client socket. -/
theorem packet_inFlight {p : Packet} {accept : AcceptAnswers} {io : IoAnswers} (hfin : w.kernel.Finite)
    (h : handlePacket p accept io w = some w') :
    inFlight w'.kernel + (if p.startsReceive w then 0 else 1) ≤ inFlight w.kernel + 1 := by
  rcases packet_cases h with ⟨hstarts, rfl⟩ | ⟨hstarts, hdata⟩ | ⟨hstarts, rfl⟩
  · rw [(acceptEvent_traffic ..).inFlight_eq, hstarts]
    exact Nat.le_refl _
  · rw [if_pos hstarts]
    exact ((dataEvent_spec hdata).1.inFlight_le hfin).1
  · rw [hstarts]
    exact Nat.le_refl _

/-- A step changes what is in flight by what it brings and ends at most. -/
theorem step_inFlight (hfin : w.kernel.Finite) (h : machine.step w act = some w') :
    inFlight w'.kernel + endsWork w act ≤ inFlight w.kernel + bringsWork w act := by
  cases step_way h with
  | startServer port ans => exact Nat.le_of_eq (startServer_traffic port ans w).inFlight_eq
  | connect address port ans => exact Nat.le_of_eq (connect_traffic address port ans w).inFlight_eq
  | send socket data ans hsend => exact ((send_spec hsend).1.inFlight_le hfin).1
  | wake | stop | setReceiveCallback func userData | setSendCompleteCallback func userData
    | setAcceptCallback func userData | run | test | dequeueFails => exact Nat.le_refl _
  | dequeue accept io p rest hloop hqueue hhandle =>
    have htake : inFlight (w.take p rest).kernel + 1 = inFlight w.kernel := by
      rw [inFlight, inFlight, hqueue, List.length_cons]
      rfl
    have hle : inFlight w'.kernel + (if p.startsReceive w then 0 else 1) ≤ inFlight (w.take p rest).kernel + 1 :=
      packet_inFlight (w := w.take p rest) hfin hhandle
    rw [htake] at hle
    simpa [endsWork, bringsWork, hqueue] using hle
  | complete a result hcomplete =>
    exact Nat.le_of_eq (Kernel.complete_inFlight hfin (ioCompletes_framed hcomplete).2.1).1
  | arrive key overlapped =>
    rw [inFlight, inFlight, Kernel.enqueue, List.length_append, List.length_singleton]
    exact Nat.le_refl _

theorem step_finite (hfin : w.kernel.Finite) (h : machine.step w act = some w') : w'.kernel.Finite := by
  cases step_outcome h with
  | calls hact heffect => exact (heffect.inFlight_le hfin).2
  | dequeues p rest accept io hact hloop hqueue hhandle heffect =>
    have htake : (w.take p rest).kernel.Finite := hfin
    exact (heffect.inFlight_le htake).2

/-- Observations of the functions that set the backend up. -/
def Obs.OfSetup : Obs → Prop
  | .perror _ | .listen .. | .connect .. => True
  | _ => False

/-- A step without a packet in the queue that brings no work is one of the setup. -/
theorem setup_step (hnil : w.kernel.queue = []) (hpending : ∀ a, w.kernel.pending a = none)
    (hnone : bringsWork w act = 0) (h : machine.step w act = some w') :
    ∃ pre, (∀ o ∈ pre, o.OfSetup) ∧ w'.history = pre ++ w.history := by
  cases step_way h with
  | startServer port ans =>
    unfold proactorTcpIocpStartServer
    simp only
    split_ifs
    · exact ⟨[.perror "socket"], by simp [Obs.OfSetup], rfl⟩
    · exact ⟨[.perror "bind"], by simp [Obs.OfSetup], rfl⟩
    · exact ⟨[.perror "listen"], by simp [Obs.OfSetup], rfl⟩
    · exact ⟨[.perror "CreateIoCompletionPort", .listen ans.socket port], by simp [Obs.OfSetup], rfl⟩
    · exact ⟨[.listen ans.socket port], by simp [Obs.OfSetup], rfl⟩
  | connect address port ans =>
    unfold proactorTcpIocpConnect
    simp only
    split_ifs
    · exact ⟨[.perror "socket"], by simp [Obs.OfSetup], rfl⟩
    · exact ⟨[.perror "connect"], by simp [Obs.OfSetup], rfl⟩
    · exact ⟨[.perror "CreateIoCompletionPort", .connect ans.socket address port], by simp [Obs.OfSetup], rfl⟩
    · exact ⟨[.connect ans.socket address port], by simp [Obs.OfSetup], rfl⟩
  | send | arrive => cases hnone
  | wake | stop | setReceiveCallback func userData | setSendCompleteCallback func userData
    | setAcceptCallback func userData | run | test => exact ⟨[], by simp, rfl⟩
  | dequeueFails => exact ⟨[.perror "GetQueuedCompletionStatus"], by simp [Obs.OfSetup], rfl⟩
  | dequeue accept io p rest hloop hqueue hhandle =>
    rw [hnil] at hqueue
    cases hqueue
  | complete a result hcomplete =>
    obtain ⟨-, hkernel, -⟩ := ioCompletes_framed hcomplete
    obtain ⟨socket, kind, key, hposted, -⟩ := Kernel.complete_cases hkernel
    rw [hpending a] at hposted
    cases hposted

theorem start_finite : (World.kernel {}).Finite := by
  have hnone : {a | (World.kernel {}).pending a ≠ none} = ∅ := by simp
  rw [Kernel.Finite, hnone]
  exact Set.finite_empty

theorem start_inFlight : inFlight (World.kernel {}) = 0 := by
  simp [inFlight]

/-- Nothing is in flight exactly when nothing is pending and the queue is empty. -/
theorem inFlight_eq_zero (hfin : w.kernel.Finite) (h : inFlight w.kernel = 0) :
    w.kernel.queue = [] ∧ ∀ a, w.kernel.pending a = none := by
  rw [inFlight, Nat.add_eq_zero_iff, Set.ncard_eq_zero hfin, List.length_eq_zero_iff] at h
  refine ⟨h.2, fun a => ?_⟩
  by_contra hpending
  have hmem : a ∈ {a | w.kernel.pending a ≠ none} := hpending
  rw [h.1] at hmem
  exact hmem

/-- The loop creates no work: what is in flight after a run, and the packets that were handled without a receive,
    are no more than the sends and the packets from elsewhere. -/
theorem loop_creates_no_work (hrun : machine.run {} as = some w) :
    inFlight w.kernel + machine.total endsWork {} as ≤ machine.total bringsWork {} as := by
  have hle := Machine.account_le (I := fun v => v.kernel.Finite) (B := fun v => inFlight v.kernel)
    (fun _ _ _ => step_finite) (fun _ _ _ => step_inFlight) start_finite hrun
  rw [start_inFlight, Nat.zero_add] at hle
  exact hle

/-- A send, the receive that its packet starts, and a packet of a socket that is not known. -/
def sendAndReceive : List Action :=
  [.connect "127.0.0.1" 502 ⟨6, true, true⟩, .send 6 [9] ⟨some 16, .atOnce (.sent 1)⟩, .arrive 7 none, .run, .test,
    .dequeue {} ⟨some 32, .pending⟩, .test, .dequeue {} ⟨none, .failed⟩]

theorem loop_creates_no_work_sendAndReceive : ∃ w, machine.run {} sendAndReceive = some w ∧
    machine.total bringsWork {} sendAndReceive = 2 ∧
    inFlight w.kernel + machine.total endsWork {} sendAndReceive ≤ machine.total bringsWork {} sendAndReceive := by
  have hsome : (machine.run {} sendAndReceive).isSome = true := rfl
  have hrun := (Option.some_get hsome).symm
  exact ⟨_, hrun, rfl, loop_creates_no_work hrun⟩

/-- A backend that sends nothing, and for which nobody else queues a packet, accepts no connection, receives
    nothing and calls no callback, however long it runs. -/
theorem nothing_comes_unasked (hrun : machine.run {} as = some w) (hquiet : machine.total bringsWork {} as = 0) :
    ∀ o ∈ w.history, o.OfSetup := by
  have hstep : ∀ v act v', (v.kernel.Finite ∧ inFlight v.kernel = 0 ∧ ∀ o ∈ v.history, o.OfSetup) →
      bringsWork v act = 0 → machine.step v act = some v' →
      v'.kernel.Finite ∧ inFlight v'.kernel = 0 ∧ ∀ o ∈ v'.history, o.OfSetup := by
    rintro v act v' ⟨hfin, hzero, hhist⟩ hnone hact
    have hle := step_inFlight hfin hact
    obtain ⟨hqueue, hpending⟩ := inFlight_eq_zero hfin hzero
    obtain ⟨pre, hpre, hhist'⟩ := setup_step hqueue hpending hnone hact
    refine ⟨step_finite hfin hact, by omega, fun o ho => ?_⟩
    rw [hhist', List.mem_append] at ho
    rcases ho with ho | ho
    · exact hpre o ho
    · exact hhist o ho
  have hall := Machine.allSteps_of_total_eq_zero hrun hquiet
  exact (Machine.run_preserves_of_allSteps hstep ⟨start_finite, start_inFlight, by simp⟩ hall hrun).2.2

/-- A server is started and a client is connected, with callbacks, and the loop waits. -/
def serverAndClient : List Action :=
  [.startServer 502 ⟨5, true, true, true⟩, .connect "127.0.0.1" 502 ⟨6, true, true⟩, .setAcceptCallback (some 1) 0,
    .setReceiveCallback (some 2) 0, .run, .test, .wake]

theorem nothing_comes_unasked_serverAndClient : ∃ w, machine.run {} serverAndClient = some w ∧
    w.loop = .wait ∧ ∀ o ∈ w.history, o.OfSetup := by
  have hsome : (machine.run {} serverAndClient).isSome = true := rfl
  have hrun := (Option.some_get hsome).symm
  exact ⟨_, hrun, rfl, nothing_comes_unasked hrun rfl⟩

end TagSim.Iocp
