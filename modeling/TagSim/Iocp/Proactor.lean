import TagSim.Iocp.Kernel
import TagSim.Runs.Machine

/-!
# The IOCP backend

The functions of `proactor_net_iocp.c` on an explicit state: the static variables, the completion port, the
allocated operations and the history. A step yields `none` where the kernel or the allocator cannot answer
as it is said to. The process is modelled from the return of `proactor_tcp_iocp_init` on, up to
`proactor_tcp_iocp_cleanup`.

Callbacks are called at the end of the functions that call them: what they do to the proactor are actions
of their own, as for any other thread of the application. They do not call `proactor_tcp_iocp_run`, and no more than
one thread does.
-/

namespace TagSim.Iocp

/-- A function pointer of the application. -/
abbrev FuncPtr := Nat

/-- A `void *` of the application. -/
abbrev Ptr := Nat

/-- What a `WSABUF` points to: the buffer of its own operation, or memory of the application. -/
inductive BufPtr where
  | own
  | app (data : List Byte)
  deriving DecidableEq, Repr

/-- `IO_OPERATION`. Of the buffer, the bytes that have been written. The `user_data` is never used. -/
structure IoOperation where
  wsabufBuf : BufPtr
  wsabufLen : Nat
  buffer : List Byte := []
  deriving DecidableEq, Repr

/-- What happened: system calls, calls of callbacks, and packets taken from the port. -/
inductive Obs where
  | perror (msg : String)
  | listen (socket : Socket) (port : UInt16)
  | connect (socket : Socket) (address : String) (port : UInt16)
  /-- `WSARecv`, with the receive callback that is set then. -/
  | wsaRecv (socket : Socket) (op : Addr) (answer : IoAnswer) (callback : Option FuncPtr)
  /-- `WSASend` of the bytes that the `WSABUF` describes. -/
  | wsaSend (socket : Socket) (op : Addr) (bytes : List Byte) (answer : IoAnswer)
  | sendReturned (socket : Socket) (data : List Byte) (op : Addr)
  | dequeued (packet : Packet)
  | freed (op : Addr)
  /-- The buffer is that of the operation `op`. -/
  | receiveCallback (func : FuncPtr) (socket : Socket) (op : Addr) (buffer : List Byte) (userData : Ptr)
  | sendCompleteCallback (func : FuncPtr) (socket : Socket) (userData : Ptr)
  | acceptCallback (func : FuncPtr) (serverSocket clientSocket : Socket) (userData : Ptr)
  deriving DecidableEq, Repr

/-- Where `proactor_tcp_iocp_run` stands: not called, at the test of `stop`, or past it, on the way to
    `GetQueuedCompletionStatus` or in it. -/
inductive LoopPoint where
  | returned | test | wait
  deriving DecidableEq, Repr

structure World where
  serverSocket : Socket := invalidSocket
  clientSocket : Socket := invalidSocket
  stop : Bool := false
  receiveCallback : Option FuncPtr := none
  sendCompleteCallback : Option FuncPtr := none
  acceptCallback : Option FuncPtr := none
  receiveCallbackUserData : Ptr := 0
  sendCompleteCallbackUserData : Ptr := 0
  acceptCallbackUserData : Ptr := 0
  kernel : Kernel := {}
  heap : Addr → Option IoOperation := fun _ => none
  loop : LoopPoint := .returned
  /-- `exit` has been called. -/
  exited : Bool := false
  /-- Newest first. -/
  history : List Obs := []

namespace World

def log (w : World) (o : Obs) : World := { w with history := o :: w.history }

def store (w : World) (a : Addr) (op : IoOperation) : World :=
  { w with heap := Function.update w.heap a (some op) }

/-- `GetQueuedCompletionStatus` takes the packet `p` from the queue. -/
def take (w : World) (p : Packet) (rest : List Packet) : World :=
  { w.log (.dequeued p) with loop := .test, kernel := { w.kernel with queue := rest } }

end World

def handleError (msg : String) (w : World) : World := { w.log (.perror msg) with exited := true }

/-- Results of the calls made by `proactor_tcp_iocp_start_server`. -/
structure StartServerAnswers where
  socket : Socket
  bind : Bool := true
  listen : Bool := true
  associated : Bool := true

def proactorTcpIocpStartServer (port : UInt16) (ans : StartServerAnswers) (w : World) : World :=
  let w := { w with serverSocket := ans.socket }
  if ans.socket = invalidSocket then handleError "socket" w
  else if !ans.bind then handleError "bind" w
  else if !ans.listen then handleError "listen" w
  else
    let w := w.log (.listen ans.socket port)
    if !ans.associated then handleError "CreateIoCompletionPort" w
    else { w with kernel := w.kernel.associate ans.socket ans.socket }

/-- Results of the calls made by `proactor_tcp_iocp_connect`; that of `inet_pton` is ignored. -/
structure ConnectAnswers where
  socket : Socket
  connect : Bool := true
  associated : Bool := true

def proactorTcpIocpConnect (address : String) (port : UInt16) (ans : ConnectAnswers) (w : World) : World :=
  let w := { w with clientSocket := ans.socket }
  if ans.socket = invalidSocket then handleError "socket" w
  else if !ans.connect then handleError "connect" w
  else
    let w := w.log (.connect ans.socket address port)
    if !ans.associated then handleError "CreateIoCompletionPort" w
    else { w with kernel := w.kernel.associate ans.socket ans.socket }

/-- Results of the calls made for one operation: the address that `malloc` returns, and the result of
    `WSARecv` or `WSASend`. -/
structure IoAnswers where
  malloc : Option Addr
  io : IoAnswer

/-- `handle_data_event(socket)` -/
def handleDataEvent (socket : Socket) (ans : IoAnswers) (w : World) : Option World :=
  match ans.malloc with
  | none => some (handleError "malloc" w)
  | some a =>
    if (w.heap a).isSome then none
    else
      match w.kernel.post socket a .recv ans.io with
      | none => none
      | some kernel =>
        let data := ans.io.data
        let w := { w.store a { wsabufBuf := .own, wsabufLen := bufferSize, buffer := data } with
          kernel := kernel }
        let w := w.log (.wsaRecv socket a ans.io w.receiveCallback)
        if ans.io = .failed then some (handleError "WSARecv" w)
        else
          match w.receiveCallback with
          | none => some w
          | some func =>
            if data ≠ [] then
              some (w.log (.receiveCallback func socket a data w.receiveCallbackUserData))
            else some w

/-- `handle_send_complete(socket, io_op)`. Nothing calls it. -/
def handleSendComplete (socket : Socket) (a : Addr) (w : World) : World :=
  let w := match w.sendCompleteCallback with
    | none => w
    | some func => w.log (.sendCompleteCallback func socket w.sendCompleteCallbackUserData)
  { w.log (.freed a) with heap := Function.update w.heap a none }

/-- Results of the calls made by `handle_accept_event`. -/
structure AcceptAnswers where
  accept : Socket := invalidSocket
  associated : Bool := true

/-- `handle_accept_event(server_socket)`. Its `client_socket` is a local variable, not the static one. -/
def handleAcceptEvent (serverSocket : Socket) (ans : AcceptAnswers) (w : World) : World :=
  let clientSocket := ans.accept
  if clientSocket = invalidSocket then handleError "accept" w
  else if !ans.associated then handleError "CreateIoCompletionPort" w
  else
    let w := { w with kernel := w.kernel.associate clientSocket clientSocket }
    match w.acceptCallback with
    | none => w
    | some func => w.log (.acceptCallback func serverSocket clientSocket w.acceptCallbackUserData)

/-- The body of the loop of `proactor_tcp_iocp_run`, after `GetQueuedCompletionStatus`. -/
def handlePacket (p : Packet) (accept : AcceptAnswers) (io : IoAnswers) (w : World) : Option World :=
  if p.key = w.serverSocket then some (handleAcceptEvent w.serverSocket accept w)
  else if p.key = w.clientSocket then handleDataEvent p.key io w
  else some w

/-- `proactor_tcp_iocp_send(socket, data, length)`. The length is cut to the size of a `ULONG`. -/
def proactorTcpIocpSend (socket : Socket) (data : List Byte) (ans : IoAnswers) (w : World) : Option World :=
  match ans.malloc with
  | none => some (handleError "malloc" w)
  | some a =>
    if (w.heap a).isSome then none
    else
      let len := data.length % ulongSize
      match w.kernel.post socket a (.send len) ans.io with
      | none => none
      | some kernel =>
        let w := { w.store a { wsabufBuf := .app data, wsabufLen := len } with kernel := kernel }
        let w := w.log (.wsaSend socket a (data.take len) ans.io)
        if ans.io = .failed then some (handleError "WSASend" w)
        else some (w.log (.sendReturned socket data a))

/-- `proactor_tcp_iocp_wake` does nothing. -/
def proactorTcpIocpWake (w : World) : World := w

def proactorTcpIocpStop (w : World) : World := { w with stop := true }

/-- A pending operation is finished by the kernel, which fills the buffer of a receive. -/
def ioCompletes (a : Addr) (result : Finished) (w : World) : Option World :=
  match w.kernel.complete a result, w.heap a with
  | some kernel, some op =>
    let w := { w with kernel := kernel }
    match result with
    | .received data => some (w.store a { op with buffer := data })
    | _ => some w
  | _, _ => none

/-- One step: a call of the application, a step of the event loop, or one of the kernel. -/
inductive Action where
  | startServer (port : UInt16) (ans : StartServerAnswers)
  | connect (address : String) (port : UInt16) (ans : ConnectAnswers)
  | send (socket : Socket) (data : List Byte) (ans : IoAnswers)
  | wake
  | stop
  | setReceiveCallback (func : Option FuncPtr) (userData : Ptr)
  | setSendCompleteCallback (func : Option FuncPtr) (userData : Ptr)
  | setAcceptCallback (func : Option FuncPtr) (userData : Ptr)
  | run
  /-- The test of `stop`. -/
  | test
  /-- `GetQueuedCompletionStatus` returns a packet, which is handled. -/
  | dequeue (accept : AcceptAnswers) (io : IoAnswers)
  | dequeueFails
  /-- The kernel finishes a pending operation. -/
  | complete (a : Addr) (result : Finished)
  /-- A packet of an operation that the backend did not post is queued. -/
  | arrive (key : Socket) (overlapped : Option Addr)

/-- One step of the process. -/
def step (w : World) (act : Action) : Option World :=
  if w.exited then none
  else match act with
    | .startServer port ans => some (proactorTcpIocpStartServer port ans w)
    | .connect address port ans => some (proactorTcpIocpConnect address port ans w)
    | .send socket data ans => proactorTcpIocpSend socket data ans w
    | .wake => some (proactorTcpIocpWake w)
    | .stop => some (proactorTcpIocpStop w)
    | .setReceiveCallback func userData =>
      some { w with receiveCallback := func, receiveCallbackUserData := userData }
    | .setSendCompleteCallback func userData =>
      some { w with sendCompleteCallback := func, sendCompleteCallbackUserData := userData }
    | .setAcceptCallback func userData =>
      some { w with acceptCallback := func, acceptCallbackUserData := userData }
    | .run => if w.loop = .returned then some { w with loop := .test } else none
    | .test =>
      if w.loop = .test then some { w with loop := if w.stop then .returned else .wait } else none
    | .dequeue accept io =>
      match w.loop, w.kernel.queue with
      | .wait, p :: rest => handlePacket p accept io (w.take p rest)
      | _, _ => none
    | .dequeueFails =>
      if w.loop = .wait then some (handleError "GetQueuedCompletionStatus" w) else none
    | .complete a result => ioCompletes a result w
    | .arrive key overlapped => some { w with kernel := w.kernel.enqueue ⟨key, overlapped, .other⟩ }

/-- The IOCP backend as a machine. -/
def machine : Machine World Action := ⟨step⟩

end TagSim.Iocp
