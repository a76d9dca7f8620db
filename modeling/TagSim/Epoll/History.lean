import TagSim.Epoll.Proactor
import TagSim.Ownership.Ledger

/-!
# What a history says

Functions of the history alone, which is newest first. They say in the terms of the application what was
sent, what came out and who was told, and which descriptors were opened, registered and closed, without
reference to the state of the proactor.
-/

namespace TagSim.Epoll

/-- The bytes accepted by the `write` of `handle_write_event`, in time order. -/
def written : List Obs → List Byte
  | [] => []
  | .write _ buf ret :: h => written h ++ buf.take ret.toNat
  | _ :: h => written h

/-- The payloads of the sends that returned 0, in order. -/
def accepted : List Obs → List (List Byte)
  | [] => []
  | .sendReturned _ data ret :: h => if ret = 0 then accepted h ++ [data] else accepted h
  | _ :: h => accepted h

/-- The payloads of all sends that returned, in order. -/
def attempted : List Obs → List (List Byte)
  | [] => []
  | .sendReturned _ data _ :: h => attempted h ++ [data]
  | _ :: h => attempted h

/-- The send-complete callback is set. -/
def callbackSet : List Obs → Bool
  | [] => false
  | .setSendComplete func :: _ => func.isSome
  | _ :: h => callbackSet h

/-- The writes that took all the bytes they were offered, in time order: the number of the accepted send
    they ended, counted from 1, and whether the send-complete callback was set. -/
def endings : List Obs → List (Nat × Bool)
  | [] => []
  | .write _ buf ret :: h =>
    if ret = buf.length then endings h ++ [((accepted h).length, callbackSet h)] else endings h
  | _ :: h => endings h

/-- The number of writes that took something, or had nothing to take. -/
def effectiveWrites : List Obs → Nat
  | [] => 0
  | .write _ buf ret :: h => effectiveWrites h + if min 1 (buf.length : Int) ≤ ret then 1 else 0
  | _ :: h => effectiveWrites h

/-- The calls of the send-complete callback, in time order: the number of the accepted send that was the
    last one at the time of the call. -/
def notified : List Obs → List Nat
  | [] => []
  | .sendCompleteCallback .. :: h => notified h ++ [(accepted h).length]
  | _ :: h => notified h

/-- The descriptor that the last accepted send was addressed to. -/
def destination : List Obs → Option Fd
  | [] => none
  | .sendReturned socket _ ret :: h => if ret = 0 then some socket else destination h
  | _ :: h => destination h

/-- The descriptor that the last accepted send was addressed to has been closed since. -/
def destinationClosed : List Obs → Bool
  | [] => false
  | .sendReturned _ _ ret :: h => if ret = 0 then false else destinationClosed h
  | .closed fd :: h => destination h = some fd || destinationClosed h
  | _ :: h => destinationClosed h

/-- The descriptor has been registered with `epoll_ctl`, and has not been closed since. -/
def registered (fd : Fd) : List Obs → Bool
  | [] => false
  | .ctl .add fd' _ ok :: h => (fd' = fd && ok) || registered fd h
  | .closed fd' :: h => fd' ≠ fd && registered fd h
  | _ :: h => registered fd h

/-- A descriptor returned to the proactor is acquired, and released by `close`. -/
def Obs.move : Obs → Option (Ownership.Move Fd)
  | .opened fd _ => some (.acquire fd)
  | .closed fd => some (.release fd)
  | _ => none

/-- The descriptors acquired and released. -/
def moves (h : List Obs) : List (Ownership.Move Fd) := h.filterMap Obs.move

/-- Bytes of a send go to the descriptor it was addressed to, as long as that is open, and so does the call
    of its send-complete callback. The history is the one before the observation. -/
def Obs.Addressed (h : List Obs) : Obs → Prop
  | .write fd buf _ => buf ≠ [] → destination h = some fd ∧ destinationClosed h = false
  | .sendCompleteCallback _ fd _ => destination h = some fd
  | _ => True

/-- Every send reached the connection it was addressed to, and no other. -/
def Addressed : List Obs → Prop
  | [] => True
  | o :: h => o.Addressed h ∧ Addressed h

/-- The bytes in the wake pipe. Each `read` of it takes one out. -/
def unread : List Obs → Nat
  | [] => 0
  | .wakeWrite _ ret :: h => if ret = 1 then unread h + 1 else unread h
  | .wakeRead _ :: h => unread h - 1
  | _ :: h => unread h

/-- The request whose bytes are still to be written. While the send-complete callback is being executed
    `current_send_request` still points to the request it is called for. -/
def pendingRequest (w : World) : Option SendRequest :=
  match w.callback with
  | some (.sendComplete _) => none
  | _ => w.currentSendRequest

/-- The payloads of the accepted sends that are not pending any more. -/
def completed (w : World) : List (List Byte) :=
  match pendingRequest w with
  | none => accepted w.history
  | some _ => (accepted w.history).dropLast

/-- The bytes of the pending send that are already written. -/
def pendingWritten (w : World) : List Byte :=
  match pendingRequest w with
  | none => []
  | some req => req.data.take req.offset

/-- How many more writes that take something a pending send can last. -/
def writesLeft (w : World) : Nat := (pendingRequest w).elim 0 fun req => max 1 req.count

end TagSim.Epoll
