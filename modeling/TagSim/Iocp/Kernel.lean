import Mathlib.Logic.Function.Basic

/-!
# The completion port

Sockets are associated with the port under a key. An operation on such a socket is finished at once or is
pending, and is then finished when the kernel likes. Every finished operation leaves a packet in the queue of
the port, which is first in, first out.
-/

namespace TagSim.Iocp

/-- A `SOCKET`, or a `HANDLE` or `ULONG_PTR` made from one. -/
abbrev Socket := Nat

abbrev Byte := UInt8

/-- The address of an `IO_OPERATION`, which is that of its `OVERLAPPED`. -/
abbrev Addr := Nat

/-- `INVALID_SOCKET` -/
def invalidSocket : Socket := 0xFFFFFFFFFFFFFFFF

/-- The number of values of a `ULONG`, the type of the length in a `WSABUF`. -/
def ulongSize : Nat := 0x100000000

/-- `BUFFER_SIZE` -/
def bufferSize : Nat := 8192

/-- What was done: the bytes that a receive put into its buffer, the number of bytes that a send took, or an
    operation that the backend did not post. -/
inductive Finished where
  | received (data : List Byte)
  | sent (n : Nat)
  | other
  deriving DecidableEq, Repr

/-- A completion packet. The backend fetches the number of bytes and the `OVERLAPPED`, and looks at the key
    only. -/
structure Packet where
  key : Socket
  overlapped : Option Addr
  result : Finished
  deriving DecidableEq, Repr

/-- What was posted: `WSARecv`, or `WSASend` of a number of bytes. -/
inductive OpKind where
  | recv
  | send (len : Nat)
  deriving DecidableEq, Repr

/-- How an operation may end. -/
def OpKind.allows : OpKind → Finished → Bool
  | .recv, .received data => decide (data.length ≤ bufferSize)
  | .send len, .sent n => decide (n ≤ len)
  | _, _ => false

/-- Results of `WSARecv` and `WSASend`. -/
inductive IoAnswer where
  | atOnce (result : Finished)
  | pending
  | failed
  deriving DecidableEq, Repr

/-- The bytes in the buffer when `WSARecv` returns, as many as `bytes_received`. -/
def IoAnswer.data : IoAnswer → List Byte
  | .atOnce (.received data) => data
  | _ => []

structure Kernel where
  /-- The keys under which sockets are associated with the port. -/
  keys : Socket → Option Socket := fun _ => none
  pending : Addr → Option (Socket × OpKind) := fun _ => none
  queue : List Packet := []

namespace Kernel

/-- `CreateIoCompletionPort(socket, iocp, key, 0)` -/
def associate (k : Kernel) (socket key : Socket) : Kernel :=
  { k with keys := Function.update k.keys socket (some key) }

/-- A packet is queued. -/
def enqueue (k : Kernel) (p : Packet) : Kernel := { k with queue := k.queue ++ [p] }

/-- `WSARecv` or `WSASend` with the operation at an address. -/
def post (k : Kernel) (socket : Socket) (a : Addr) (kind : OpKind) : IoAnswer → Option Kernel
  | .failed => some k
  | .pending =>
    if (k.keys socket).isSome then
      some { k with pending := Function.update k.pending a (some (socket, kind)) }
    else none
  | .atOnce result =>
    match k.keys socket with
    | none => none
    | some key => if kind.allows result then some (k.enqueue ⟨key, some a, result⟩) else none

/-- A pending operation is finished. -/
def complete (k : Kernel) (a : Addr) (result : Finished) : Option Kernel :=
  match k.pending a with
  | none => none
  | some (socket, kind) =>
    match k.keys socket with
    | none => none
    | some key =>
      if kind.allows result then
        some { k.enqueue ⟨key, some a, result⟩ with pending := Function.update k.pending a none }
      else none

end Kernel

end TagSim.Iocp
