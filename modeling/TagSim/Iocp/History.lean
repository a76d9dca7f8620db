import TagSim.Iocp.Proactor

/-!
# What a history says about a connection

Functions of the history, which is newest first. A receive is the address of its operation and the bytes it
received; one of no bytes says nothing about the stream. A send is its socket and the address of its
operation.
-/

namespace TagSim.Iocp

/-- A receive of at least a byte. -/
abbrev Receipt := Addr × List Byte

/-- What the receive callback was handed for a socket, in time order. -/
def deliveries (s : Socket) : List Obs → List Receipt
  | [] => []
  | .receiveCallback _ s' op buffer _ :: h =>
    if s' = s then deliveries s h ++ [(op, buffer)] else deliveries s h
  | _ :: h => deliveries s h

/-- The receives of a socket that had received something when `WSARecv` returned, while a receive callback
    was set, in time order. -/
def atOnce (s : Socket) : List Obs → List Receipt
  | [] => []
  | .wsaRecv s' op answer callback :: h =>
    if s' = s ∧ answer.data ≠ [] ∧ callback.isSome then atOnce s h ++ [(op, answer.data)] else atOnce s h
  | _ :: h => atOnce s h

/-- The packets that were dequeued, in time order. -/
def dequeued : List Obs → List Packet
  | [] => []
  | .dequeued p :: h => dequeued h ++ [p]
  | _ :: h => dequeued h

/-- The receive of a socket that a packet reports. -/
def Packet.receipt (s : Socket) (p : Packet) : Option Receipt :=
  match p.overlapped, p.result with
  | some op, .received data => if p.key = s ∧ data ≠ [] then some (op, data) else none
  | _, _ => none

/-- The receives of a socket whose packets were dequeued, in time order. -/
def received (s : Socket) (h : List Obs) : List Receipt := (dequeued h).filterMap (Packet.receipt s)

/-- The receives of a socket whose packets are in the queue. -/
def waiting (s : Socket) (k : Kernel) : List Receipt := k.queue.filterMap (Packet.receipt s)

/-- The receive callback was handed the bytes that were received, in order, and each receive once. -/
structure DeliveredOnce (s : Socket) (h : List Obs) : Prop where
  bytes : ((deliveries s h).map Prod.snd).flatten = ((received s h).map Prod.snd).flatten
  once : (deliveries s h).Perm (received s h)

/-- The operation of the send that a packet reports. -/
def Packet.sendOp (p : Packet) : Option Addr :=
  match p.overlapped, p.result with
  | some op, .sent _ => some op
  | _, _ => none

/-- The sends whose packets were dequeued, each with its socket and its operation, in time order. -/
def completedSends (h : List Obs) : List (Socket × Addr) :=
  (dequeued h).filterMap fun p => p.sendOp.map fun op => (p.key, op)

/-- How often the send-complete callback was called for a socket. -/
def notifications (s : Socket) : List Obs → Nat
  | [] => 0
  | .sendCompleteCallback _ s' _ :: h => if s' = s then notifications s h + 1 else notifications s h
  | _ :: h => notifications s h

/-- The bytes that were handed to the system with an operation, in time order. -/
def handed (op : Addr) : List Obs → List Byte
  | [] => []
  | .wsaSend _ op' bytes _ :: h => if op' = op then handed op h ++ bytes else handed op h
  | _ :: h => handed op h

/-- The bytes that the sends which returned were called with, for an operation, in time order. -/
def requested (op : Addr) : List Obs → List Byte
  | [] => []
  | .sendReturned _ data op' :: h => if op' = op then requested op h ++ data else requested op h
  | _ :: h => requested op h

/-- The number of receives that were posted. -/
def receivesPosted : List Obs → Nat
  | [] => 0
  | .wsaRecv .. :: h => receivesPosted h + 1
  | _ :: h => receivesPosted h

/-- `GetQueuedCompletionStatus` returns the packet of a send. -/
def TakesSend (w : World) (act : Action) : Prop :=
  match act, w.kernel.queue with
  | .dequeue .., p :: _ => p.sendOp.isSome = true
  | _, _ => False

/-- What holds of the sends once their packets have been dequeued, in a run from `w₀` to `w`. An operation
    may be allocated again after it has been freed, so its calls of `free` are counted against its packets. -/
structure SendsCompleted (w₀ : World) (as : List Action) (w : World) : Prop where
  notified : machine.AllStates (fun v => v.sendCompleteCallback ≠ none) w₀ as → ∀ s,
    (completedSends w.history).countP (fun c => c.1 = s) ≤ notifications s w.history
  notifiedOnce : ∀ s, notifications s w.history ≤ (completedSends w.history).countP fun c => c.1 = s
  handed : ∀ c ∈ completedSends w.history, handed c.2 w.history = requested c.2 w.history
  freed : ∀ op, (completedSends w.history).countP (fun c => c.2 = op) ≤ w.history.count (.freed op)
  freedOnce : ∀ op, w.history.count (.freed op) ≤
    (dequeued w.history).countP fun p => p.overlapped = some op
  noReceive : machine.AllSteps (fun v act => TakesSend v act → ∀ v', machine.step v act = some v' →
    receivesPosted v'.history = receivesPosted v.history) w₀ as

end TagSim.Iocp
