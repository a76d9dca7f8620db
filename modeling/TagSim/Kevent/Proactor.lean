import Mathlib.Logic.Function.Basic
import TagSim.Memory.Linked
import TagSim.Runs.Machine
import TagSim.Util.Status

/-!
# The kevent backend

The functions of `proactor_net_kevent.c` on an explicit state: the proactor, the memory with its sockets,
the registrations of the kernel queue and the history. Reading memory that is not allocated, and following
a null pointer where the source does not test for it, is undefined in C: the functions yield `none` there,
and where the kernel or the allocator cannot answer as they are said to.

Callbacks do not change the list of sockets, the sockets themselves or their buffers. They may stop and wake
the proactor, as any other part of the application: these are actions of their own. They do not call
`proactor_net_run`, and no more than one thread does.
-/

namespace TagSim.Kevent

/-- A `SOCKET`: an `int`, negative for an error. -/
abbrev Fd := Int

abbrev Byte := UInt8

/-- A function pointer of the application. -/
abbrev FuncPtr := Nat

/-- A `void *` of the application. -/
abbrev Ptr := Nat

/-- The address of a `struct proactor_socket_t`; a pointer to one is an `Option Addr`, null is `none`. -/
abbrev Addr := Nat

/-- The bytes of a `struct sockaddr`. -/
abbrev SockAddr := List Byte

/-- `NUM_EVENTS` -/
def numEvents : Nat := 32

/-- `INVALID_SOCKET` -/
def invalidSocket : Fd := -1

/-- `proactor_socket_type_t`. The file and the header define it twice, with the same values. -/
inductive SocketType where
  | tcpListener | tcpClient | udp
  | unknown (value : Int)
  deriving DecidableEq, Repr

/-- `proactor_event_t` -/
inductive ProactorEvent where
  | tick | timeout | wake | run | stop | dispose
  deriving DecidableEq, Repr

/-- `proactor_buf_t`: the memory that `data` points to, and `data_length`. -/
structure ProactorBuf where
  data : List Byte
  dataLength : Nat
  deriving DecidableEq, Repr

/-- The bytes that a reader of a buffer sees. -/
def ProactorBuf.contents (buf : ProactorBuf) : List Byte := buf.data.take buf.dataLength

/-- What the pointer `&(sock->buffer)` leads to: the field `buffer`, with the structure that it points to, and the
    field behind it, `accept_cb`. -/
structure BufferField where
  buffer : ProactorBuf
  acceptCb : Option FuncPtr
  deriving DecidableEq, Repr

/-- `struct proactor_socket_t`, with the values that `calloc` gives. `proactor` says whether the pointer
    to the proactor is set. The sent callback is never called. -/
structure ProactorSocket where
  next : Option Addr := none
  sock : Fd := 0
  socketType : SocketType := .tcpListener
  status : Status := .ok
  remoteAddr : SockAddr := []
  proactor : Bool := false
  buffer : Option ProactorBuf := none
  acceptCb : Option FuncPtr := none
  closeCb : Option FuncPtr := none
  receiveCb : Option FuncPtr := none
  tickCb : Option FuncPtr := none
  sockData : Ptr := 0
  deriving DecidableEq, Repr

/-- `struct timespec` -/
structure TimeSpec where
  tvSec : Nat := 0
  tvNsec : Nat := 0
  deriving DecidableEq, Repr

/-- `struct proactor_t` -/
structure ProactorT where
  kq : Fd
  wakeupFds : Fd × Fd
  tickTimeSpec : TimeSpec := {}
  stop : Bool := false
  status : Status := .ok
  eventCb : Option FuncPtr := none
  appData : Ptr := 0
  sockets : Option Addr := none

inductive Filter where
  | read | write | other
  deriving DecidableEq, Repr

/-- A `struct kevent` as `kevent` reports it. -/
structure Event where
  ident : Fd
  filter : Filter
  udata : Option Addr
  deriving DecidableEq, Repr

/-- What happened: system calls and calls of callbacks. -/
inductive Obs where
  | closed (fd : Fd)
  | wakeRead (fd : Fd)
  | wakeWrite (fd : Fd) (ret : Int)
  /-- `accept` on the listener, for the structure `client`. -/
  | accept (listener client : Addr) (ret : Fd)
  /-- `recvfrom` took this message off the socket. -/
  | recvfrom (socket : Addr) (message : List Byte)
  | recvfromFailed (socket : Addr)
  | acceptCb (func : FuncPtr) (listener client : Addr) (status : Status) (sockData appData : Ptr)
  /-- The callback is passed `&(sock->buffer)`, a `proactor_buf_t **`. -/
  | receiveCb (func : FuncPtr) (socket : Addr) (remoteAddr : SockAddr) (buffer : BufferField) (status : Status)
      (sockData appData : Ptr)
  | closeCb (func : FuncPtr) (socket : Addr) (status : Status) (sockData : Ptr)
  | tickCb (func : FuncPtr) (socket : Addr) (status : Status) (sockData appData : Ptr)
  | eventCb (func : FuncPtr) (event : ProactorEvent) (status : Status) (appData : Ptr)
  deriving DecidableEq, Repr

/-- The state of the process: the proactor, the memory, the registrations of the kernel queue with their
    `udata`, where `proactor_net_run` stands, and the history, newest first. -/
structure World extends ProactorT where
  heap : Addr → Option ProactorSocket
  registered : Fd → Filter → Option (Option Addr)
  /-- `proactor_net_run` has been called and has not returned. -/
  running : Bool := false
  /-- The events that are still to be handled before the tick; `none` at the head of the loop. -/
  batch : Option (List Event) := none
  history : List Obs := []

namespace World

def log (w : World) (o : Obs) : World := { w with history := o :: w.history }

def store (w : World) (a : Addr) (sock : ProactorSocket) : World :=
  { w with heap := Function.update w.heap a (some sock) }

def free (w : World) (a : Addr) : World := { w with heap := Function.update w.heap a none }

/-- The pointer to the next socket that is stored at an address. -/
def next (w : World) (a : Addr) : Option (Option Addr) := (w.heap a).map ProactorSocket.next

end World

/-- Results of the calls made by `proactor_net_create`. A `kqueue` that fails returns -1, and a `pipe` that fails
    leaves the descriptors untouched. -/
structure CreateAnswers where
  calloc : Bool := true
  kqueue : Fd := -1
  pipe : Option (Fd × Fd) := none
  kevent : Bool := true

/-- The conversion of `tick_period_ms`, a `uint64_t`, to a `struct timespec`. -/
def tickTimeSpec (tickPeriodMs : UInt64) : TimeSpec where
  tvSec := tickPeriodMs.toNat / 1000
  tvNsec := tickPeriodMs.toNat % 1000 * 1000000

/-- `proactor_net_create`, whose `sock_data` is not used. A null pointer is `none`; there is no socket yet. -/
def proactorNetCreate (eventCb : Option FuncPtr) (appData : Ptr) (tickPeriodMs : UInt64) (ans : CreateAnswers) :
    Option World :=
  if !ans.calloc then none
  else
    let w : World :=
      { kq := ans.kqueue
        wakeupFds := (invalidSocket, invalidSocket)
        tickTimeSpec := tickTimeSpec tickPeriodMs
        eventCb := eventCb
        appData := appData
        heap := fun _ => none
        registered := fun _ _ => none }
    if ans.kqueue = -1 then some { w with status := .internalFailure }
    else
      match ans.pipe with
      | none => some { w with status := .internalFailure }
      | some fds =>
        let w := { w with wakeupFds := fds }
        if !ans.kevent then some { w with status := .internalFailure }
        else some { w with
          registered := fun fd filter => if fd = fds.1 ∧ filter = .read then some none else none }

/-- `proactor_net_get_status` -/
def proactorNetGetStatus : Option World → Status
  | none => .nullPtr
  | some w => w.status

/-- `proactor_net_wake`, with the result of its `write`. -/
def proactorNetWake (ret : Int) (w : World) : World := w.log (.wakeWrite w.wakeupFds.2 ret)

def proactorNetStop (ret : Int) (w : World) : World := proactorNetWake ret { w with stop := true }

/-- Results of the calls made by `process_accept_ready`: the address that `calloc` returns, and the result
    of `accept` with the address of the peer. -/
structure AcceptAnswers where
  calloc : Option Addr := none
  accept : Fd := -1
  addr : SockAddr := []

/-- The structure of a client: `calloc`, the type, and what `accept` returned. -/
def clientSocket (ans : AcceptAnswers) : ProactorSocket :=
  { socketType := .tcpClient
    sock := ans.accept
    remoteAddr := if ans.accept > 0 then ans.addr else [] }

/-- `process_accept_ready(proactor, server_sock)` -/
def processAcceptReady (a : Addr) (ans : AcceptAnswers) (w : World) : Option (Status × World) :=
  match w.heap a with
  | none => none
  | some server =>
    match server.acceptCb with
    | none => some (.nullPtr, w)
    | some func =>
      match ans.calloc with
      | none => some (.noResource, w)
      | some c =>
        if (w.heap c).isSome then none
        else
          let w := (w.store c (clientSocket ans)).log (.accept a c ans.accept)
          let rc := if ans.accept > 0 then .ok else .internalFailure
          some (rc, w.log (.acceptCb func a c rc server.sockData w.appData))

/-- Results of the call made by `process_read_ready`: the next message on the socket with the address of
    its sender, or an error. `recvfrom` returns as much of the message as fits; the rest of a datagram is
    lost. -/
structure ReadAnswers where
  message : Option (List Byte) := none
  addr : SockAddr := []

/-- `recvfrom` into a buffer: the bytes received, and the memory of the buffer after it. -/
def recvfrom (buf : ProactorBuf) (message : List Byte) : List Byte × List Byte :=
  let got := message.take buf.dataLength
  (got, got ++ buf.data.drop got.length)

/-- `process_read_ready(proactor, sock)` -/
def processReadReady (a : Addr) (ans : ReadAnswers) (w : World) : Option (Status × World) :=
  match w.heap a with
  | none => none
  | some sock =>
    match sock.receiveCb with
    | none => some (.nullPtr, w)
    | some func =>
      match sock.buffer with
      | none => none
      | some buf =>
        match ans.message with
        | none => some (.ok, w.log (.recvfromFailed a))
        | some message =>
          let w := w.log (.recvfrom a message)
          let (got, data) := recvfrom buf message
          if got ≠ [] then
            let buf := { data := data, dataLength := got.length }
            let w := w.store a { sock with buffer := some buf, remoteAddr := ans.addr }
            some (.ok, w.log (.receiveCb func a ans.addr ⟨buf, sock.acceptCb⟩ .ok sock.sockData w.appData))
          else
            let w := w.store a { sock with remoteAddr := ans.addr }
            match sock.closeCb with
            | none => some (.ok, w)
            | some func => some (.ok, w.log (.closeCb func a .ok sock.sockData))

/-- The body of the `for` loop over the events in `proactor_net_run`. `process_write_ready` is empty. -/
def handleEvent (ev : Event) (accept : AcceptAnswers) (read : ReadAnswers) (w : World) : Option World :=
  if ev.ident = w.wakeupFds.1 then some (w.log (.wakeRead w.wakeupFds.1))
  else match ev.filter, ev.udata with
    | .read, some a =>
      match w.heap a with
      | none => none
      | some sock =>
        match sock.socketType with
        | .tcpListener => (processAcceptReady a accept w).map Prod.snd
        | .tcpClient | .udp => (processReadReady a read w).map Prod.snd
        | .unknown _ => some w
    | _, _ => some w

/-- The `for` loop that ticks the sockets, from the pointer `sock` on. -/
def tickSockets : Nat → Option Addr → World → Option World
  | _, none, w => some w
  | 0, some _, _ => none
  | fuel + 1, some a, w =>
    match w.heap a with
    | none => none
    | some sock =>
      match sock.tickCb with
      | none => tickSockets fuel sock.next w
      | some func => tickSockets fuel sock.next (w.log (.tickCb func a .ok sock.sockData w.appData))

/-- The end of the `while` loop of `proactor_net_run`. The pointer of the `for` loop is not initialised:
    its first value, `start`, is whatever the memory holds. -/
def tick (start : Option Addr) (fuel : Nat) (w : World) : Option World :=
  match w.eventCb with
  | none => tickSockets fuel start w
  | some func => tickSockets fuel start (w.log (.eventCb func .tick .ok w.appData))

/-- Results of `kevent`. -/
inductive WaitAnswer where
  | events (evs : List Event)
  | interrupted
  | failed

/-- An event that `kevent` may report: its filter is registered for the descriptor, with this `udata`. A
    level-triggered event is reported as often as the kernel likes. -/
def reports (w : World) (ev : Event) : Bool := w.registered ev.ident ev.filter == some ev.udata

/-- The return of `kevent` in `proactor_net_run`. -/
def keventWait (ans : WaitAnswer) (w : World) : Option World :=
  match ans with
  | .events evs =>
    if evs.all (reports w) && decide (evs.length ≤ numEvents) then some { w with batch := some evs }
    else none
  | .interrupted => some w
  | .failed => some { w with batch := some [] }

/-- The head of the `while` loop of `proactor_net_run`: the test of `stop`, then `kevent`, when no other thread comes
    between. -/
def waitEvents (ans : WaitAnswer) (w : World) : Option World :=
  if w.stop then some { w with running := false } else keventWait ans w

/-- The `for` loop of `proactor_net_dispose`: each socket is reported closed, closed and freed. -/
def disposeSockets : Nat → Option Addr → World → Option World
  | _, none, w => some w
  | 0, some _, _ => none
  | fuel + 1, some a, w =>
    match w.heap a with
    | none => none
    | some sock =>
      let w' := match sock.closeCb with
        | none => w
        | some func => w.log (.closeCb func a sock.status sock.sockData)
      disposeSockets fuel sock.next ((w'.log (.closed sock.sock)).free a)

/-- `proactor_net_dispose`, with the result of the `write` of `proactor_net_stop`. -/
def proactorNetDispose (ret : Int) (fuel : Nat) (w : World) : Option World :=
  let w := proactorNetStop ret w
  let w := match w.eventCb with
    | none => w
    | some func => w.log (.eventCb func .dispose w.status w.appData)
  (disposeSockets fuel w.sockets w).map fun w =>
    let w := if w.wakeupFds.1 ≠ invalidSocket then (w.log (.closed w.wakeupFds.1)).log (.closed w.wakeupFds.2)
      else w
    w.log (.closed w.kq)

/-- One step: a call of the application, or of the event loop. -/
inductive Action where
  | stop (ret : Int)
  | wake (ret : Int)
  | run
  | wait (ans : WaitAnswer)
  | event (accept : AcceptAnswers) (read : ReadAnswers)
  | tick (start : Option Addr) (fuel : Nat)

/-- One step of the process. -/
def step (w : World) : Action → Option World
  | .stop ret => some (proactorNetStop ret w)
  | .wake ret => some (proactorNetWake ret w)
  | .run => if w.running then none else some { w with running := true }
  | .wait ans => if w.running && w.batch.isNone then waitEvents ans w else none
  | .event accept read =>
    match w.batch with
    | some (ev :: rest) => handleEvent ev accept read { w with batch := some rest }
    | _ => none
  | .tick start fuel =>
    match w.batch with
    | some [] => tick start fuel { w with batch := none }
    | _ => none

/-- The kevent backend as a machine. -/
def machine : Machine World Action := ⟨step⟩

end TagSim.Kevent
