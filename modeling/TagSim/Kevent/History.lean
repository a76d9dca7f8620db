import TagSim.Kevent.Proactor

/-!
# What a history says

Functions of the history alone, which is newest first.
-/

namespace TagSim.Kevent

/-- The messages that were taken off a socket, in time order. -/
def messages (a : Addr) : List Obs → List (List Byte)
  | [] => []
  | .recvfrom a' message :: h => if a' = a then messages a h ++ [message] else messages a h
  | _ :: h => messages a h

/-- What the argument `&(sock->buffer)` led to at the calls of the receive callback of a socket, in time order. -/
def deliveries (a : Addr) : List Obs → List BufferField
  | [] => []
  | .receiveCb _ a' _ buffer .. :: h => if a' = a then deliveries a h ++ [buffer] else deliveries a h
  | _ :: h => deliveries a h

/-- What the buffer of a socket held at the calls of its receive callback, in time order. -/
def held (a : Addr) (h : List Obs) : List (List Byte) := (deliveries a h).map fun field => field.buffer.contents

/-- How a receive callback takes its argument `buffer`: as the `proactor_buf_t *` that `on_receive_cb_func_t`
    declares, or as the `proactor_buf_t **` that it is passed. -/
inductive BufferArg where
  | declared | passed
  deriving DecidableEq, Repr

/-- The bytes that a callback finds. Where it takes the address of the field for that of a buffer, the structure
    stands for the data and `accept_cb` for the length: there are no bytes if that is null, and otherwise those of
    the structure and of what is behind it, none of which were received. -/
def BufferField.contents (arg : BufferArg) (field : BufferField) : Option (List Byte) :=
  match arg with
  | .declared => if field.acceptCb = none then some [] else none
  | .passed => some field.buffer.contents

/-- The close callback is called for a socket. -/
def Obs.Closes (a : Addr) : Obs → Prop
  | .closeCb _ a' .. => a' = a
  | _ => False

/-- A callback is called for a socket that must not be called after its close callback. -/
def Obs.Calls (a : Addr) : Obs → Prop
  | .receiveCb _ a' .. | .closeCb _ a' .. | .tickCb _ a' .. => a' = a
  | _ => False

/-- The receive callback was called for every message, in order, and found the whole message, and the close callback
    was not called. -/
structure DeliveredWhole (arg : BufferArg) (a : Addr) (h : List Obs) : Prop where
  deliveries_eq : (deliveries a h).map (BufferField.contents arg) = (messages a h).map some
  not_closed : ∀ o ∈ h, ¬ o.Closes a

/-- Nothing is called for a socket after its close callback, not even the close callback. -/
def ClosedOnce (a : Addr) (h : List Obs) : Prop :=
  h.Pairwise fun later earlier => ¬ (later.Calls a ∧ earlier.Closes a)

/-- The statuses with which an accepted structure was reported to the accept callback, in time order. -/
def acceptReports (c : Addr) : List Obs → List Status
  | [] => []
  | .acceptCb _ _ c' status .. :: h => if c' = c then acceptReports c h ++ [status] else acceptReports c h
  | _ :: h => acceptReports c h

/-- The bytes in the wake pipe. Each `read` of it takes one out. -/
def unread : List Obs → Nat
  | [] => 0
  | .wakeWrite _ ret :: h => if ret = 1 then unread h + 1 else unread h
  | .wakeRead _ :: h => unread h - 1
  | _ :: h => unread h

/-- The calls of `proactor_net_wake` and `proactor_net_stop` since the last event of the wake pipe was
    handled. -/
def wakesSince : List Obs → Nat
  | [] => 0
  | .wakeWrite .. :: h => wakesSince h + 1
  | .wakeRead _ :: _ => 0
  | _ :: h => wakesSince h

/-- The descriptor that is closed. -/
def Obs.closedFd : Obs → Option Fd
  | .closed fd => some fd
  | _ => none

/-- The descriptors that were closed. -/
def closedFds (h : List Obs) : List Fd := h.filterMap Obs.closedFd

/-- The structure that is given to `accept`. -/
def Obs.acceptedSocket : Obs → Option Addr
  | .accept _ c _ => some c
  | _ => none

/-- The structures that were given to `accept`, whether it succeeded or failed. -/
def acceptedSockets (h : List Obs) : List Addr := h.filterMap Obs.acceptedSocket

/-- A call of the event callback with `PROACTOR_EVENT_TICK`. -/
def Obs.isTick : Obs → Bool
  | .eventCb _ .tick .. => true
  | _ => false

/-- The number of calls of the event callback with `PROACTOR_EVENT_TICK`. -/
def tickCalls (h : List Obs) : Nat := h.countP Obs.isTick

end TagSim.Kevent
