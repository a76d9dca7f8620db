import TagSim.Epoll.Kernel
import TagSim.Runs.Machine

/-!
# The epoll backend

The functions of `proactor_net_epoll.c` on an explicit state. A function that makes system calls takes
their results as arguments (`…Answers`) and yields `none` when the kernel cannot answer so. Where the
source calls an application callback the function ends with that callback in `World.callback`; what the
source does after the callback is `callbackReturn`. The application may thus call the proactor at any
point, from inside a callback too, with one exception: a call of `proactor_tcp_epoll_run` while another one
has not returned, from inside a callback or from another thread, is left out. The source has no guard
against it. Each call of a function is one step, and so are the test of `stop` and the wait that follows it.

The `exit` of `handle_error` is the flag `exited`, after which nothing happens.
-/

namespace TagSim.Epoll

/-- A function pointer of the application. -/
abbrev FuncPtr := Nat

/-- A `void *` of the application. -/
abbrev Ptr := Nat

/-- `SendRequest`; its `user_data` is never used. `length` and `offset` are of type `size_t`. -/
structure SendRequest where
  data : List Byte
  length : Nat
  offset : Nat
  deriving DecidableEq, Repr

/-- The size that `handle_write_event` passes to `write`. -/
def SendRequest.count (req : SendRequest) : Nat := sizeSub req.length req.offset

/-- The bytes that `handle_write_event` passes to `write`. -/
def SendRequest.unsent (req : SendRequest) : List Byte := (req.data.drop req.offset).take req.count

/-- A callback of the application that is being executed, with the descriptors it was given. -/
inductive Callback where
  | accept (server client : Fd)
  | receive (fd : Fd)
  | sendComplete (fd : Fd)
  deriving DecidableEq, Repr

/-- The stream descriptor that a callback is handed. -/
def Callback.stream : Callback → Fd
  | .accept _ client => client
  | .receive fd => fd
  | .sendComplete fd => fd

/-- What happened: system calls, calls of callbacks, and the sends and settings of the application. -/
inductive Obs where
  | opened (fd : Fd) (kind : FileKind)
  | closed (fd : Fd)
  | bind (fd : Fd) (port : UInt16)
  | connect (fd : Fd) (address : String) (port : UInt16)
  | ctl (op : CtlOp) (fd : Fd) (events : EventMask) (ok : Bool)
  | read (fd : Fd) (ret : Int)
  | write (fd : Fd) (buf : List Byte) (ret : Int)
  | wakeRead (fd : Fd)
  | wakeWrite (fd : Fd) (ret : Int)
  | acceptCallback (func : FuncPtr) (server client : Fd) (userData : Ptr)
  | receiveCallback (func : FuncPtr) (fd : Fd) (buf : List Byte) (userData : Ptr)
  | sendCompleteCallback (func : FuncPtr) (fd : Fd) (userData : Ptr)
  | setSendComplete (func : Option FuncPtr)
  | sendReturned (socket : Fd) (data : List Byte) (ret : Int)
  | perror (msg : String)
  deriving DecidableEq, Repr

/-- The static variables of `proactor_net_epoll.c`, with their initial values. -/
structure Globals where
  epollFd : Fd := 0
  serverSocket : Fd := -1
  clientSocket : Fd := -1
  wakeupFds : Fd × Fd := (0, 0)
  stop : Bool := false
  receiveCallback : Option FuncPtr := none
  sendCompleteCallback : Option FuncPtr := none
  acceptCallback : Option FuncPtr := none
  receiveCallbackUserData : Ptr := 0
  sendCompleteCallbackUserData : Ptr := 0
  acceptCallbackUserData : Ptr := 0
  currentSendRequest : Option SendRequest := none

/-- The static variables, the kernel, where the event loop stands, and the history, newest first. -/
structure World extends Globals where
  kernel : Kernel
  /-- `proactor_tcp_epoll_run` has been called and has not returned. -/
  running : Bool := false
  /-- The events of the last `epoll_wait` that are still to be handled. -/
  batch : List Event := []
  /-- The callback that is being executed, called from the event handled last. -/
  callback : Option Callback := none
  exited : Bool := false
  history : List Obs := []

namespace World

def log (w : World) (o : Obs) : World := { w with history := o :: w.history }

def openFile (w : World) (fd : Fd) (kind : FileKind) : World :=
  { w with kernel := w.kernel.openFile fd kind, history := .opened fd kind :: w.history }

def closeFile (w : World) (fd : Fd) : World :=
  { w with kernel := w.kernel.closeFile fd, history := .closed fd :: w.history }

end World

/-- The process before `proactor_tcp_epoll_init`. -/
def boot (k : Kernel) : World := { kernel := k }

/-- `perror(msg); exit(EXIT_FAILURE)` -/
def handleError (msg : String) (w : World) : World :=
  { w with exited := true, history := .perror msg :: w.history }

variable (K : KernelRules)

/-- `if (epoll_ctl(epoll_fd, op, fd, &ev) == -1) handle_error("epoll_ctl")`, followed by `next`. -/
def epollCtl (op : CtlOp) (fd : Fd) (events : EventMask) (ok : Bool) (next : World → World) (w : World) :
    Option World :=
  if K.ctl w.kernel op fd ok then
    let w' := w.log (.ctl op fd events ok)
    if ok then some (next { w' with kernel := w.kernel.ctl op fd events })
    else some (handleError "epoll_ctl" w')
  else none

/-- Results of the calls made by `proactor_tcp_epoll_init`. -/
structure InitAnswers where
  epollCreate1 : Fd
  pipe : Option (Fd × Fd)
  ctl : Bool

def proactorTcpEpollInit (ans : InitAnswers) (w : World) : Option World :=
  if ans.epollCreate1 = -1 then some (handleError "epoll_create1" { w with epollFd := -1 })
  else if w.kernel.fresh ans.epollCreate1 then
    let w := { w.openFile ans.epollCreate1 .epoll with epollFd := ans.epollCreate1 }
    match ans.pipe with
    | none => some (handleError "pipe" w)
    | some (rd, wr) =>
      if w.kernel.fresh rd && w.kernel.fresh wr && rd != wr then
        let w := { (w.openFile rd .pipeRead).openFile wr .pipeWrite with wakeupFds := (rd, wr) }
        epollCtl K .add rd EPOLLIN ans.ctl id w
      else none
  else none

/-- Results of the calls made by `proactor_tcp_epoll_start_server`. -/
structure StartServerAnswers where
  socket : Fd
  bind : Bool := true
  listen : Bool := true
  ctl : Bool := true

def proactorTcpEpollStartServer (port : UInt16) (ans : StartServerAnswers) (w : World) : Option World :=
  if ans.socket = -1 then some (handleError "socket" { w with serverSocket := -1 })
  else if w.kernel.fresh ans.socket then
    let w := { w.openFile ans.socket .listener with serverSocket := ans.socket }
    let w := w.log (.bind ans.socket port)
    if !ans.bind then some (handleError "bind" w)
    else if !ans.listen then some (handleError "listen" w)
    else epollCtl K .add ans.socket EPOLLIN ans.ctl id w
  else none

/-- Results of the calls made by `proactor_tcp_epoll_connect`; that of `inet_pton` is ignored. -/
structure ConnectAnswers where
  socket : Fd
  connect : Bool := true
  ctl : Bool := true

def proactorTcpEpollConnect (address : String) (port : UInt16) (ans : ConnectAnswers) (w : World) :
    Option World :=
  if ans.socket = -1 then some (handleError "socket" { w with clientSocket := -1 })
  else if w.kernel.fresh ans.socket then
    let w := { w.openFile ans.socket .stream with clientSocket := ans.socket }
    let w := w.log (.connect ans.socket address port)
    if !ans.connect then some (handleError "connect" w)
    else epollCtl K .add ans.socket (EPOLLIN ||| EPOLLOUT) ans.ctl id w
  else none

/-- `handle_data_event(fd)`. The result of `read` is `none` for an error, and otherwise the bytes read. -/
def handleDataEvent (fd : Fd) (bytesRead : Option (List Byte)) (ctl : Bool) (w : World) : Option World :=
  match bytesRead with
  | none =>
    let w := (w.log (.read fd (-1))).log (.perror "read")
    epollCtl K .del fd (EPOLLIN ||| EPOLLOUT) ctl id (w.closeFile fd)
  | some [] => epollCtl K .del fd (EPOLLIN ||| EPOLLOUT) ctl id ((w.log (.read fd 0)).closeFile fd)
  | some buf =>
    if buf.length ≤ bufferSize then
      let w := w.log (.read fd buf.length)
      match w.receiveCallback with
      | none => some w
      | some func =>
        some { w.log (.receiveCallback func fd buf w.receiveCallbackUserData) with
          callback := some (.receive fd) }
    else none

/-- `free(current_send_request->data); free(current_send_request); current_send_request = NULL` -/
def freeSendRequest (w : World) : World := { w with currentSendRequest := none }

/-- `handle_write_event(fd)`, up to the call of the send-complete callback. -/
def handleWriteEvent (fd : Fd) (bytesSent : Int) (w : World) : Option World :=
  match w.currentSendRequest with
  | none => some w
  | some req =>
    if bytesSent = -1 ∨ (0 ≤ bytesSent ∧ bytesSent ≤ req.count) then
      let w := w.log (.write fd req.unsent bytesSent)
      if bytesSent < 0 then some (w.log (.perror "write"))
      else
        let req := { req with offset := (req.offset + bytesSent.toNat) % sizeMax }
        let w := { w with currentSendRequest := some req }
        if req.offset ≥ req.length then
          match w.sendCompleteCallback with
          | none => some (freeSendRequest w)
          | some func =>
            some { w.log (.sendCompleteCallback func fd w.sendCompleteCallbackUserData) with
              callback := some (.sendComplete fd) }
        else some w
    else none

/-- `epoll_ctl(epoll_fd, EPOLL_CTL_ADD, client_socket, &ev)`, the end of `handle_accept_event`. -/
def registerClient (clientSocket : Fd) (ctl : Bool) (w : World) : Option World :=
  epollCtl K .add clientSocket (EPOLLIN ||| EPOLLOUT) ctl id w

/-- `handle_accept_event(fd)`, up to the call of the accept callback. Its `client_socket` is a local
    variable, not the static one. -/
def handleAcceptEvent (fd : Fd) (clientSocket : Fd) (ctl : Bool) (w : World) : Option World :=
  if clientSocket = -1 then some (w.log (.perror "accept"))
  else if w.kernel.fresh clientSocket then
    let w := w.openFile clientSocket .stream
    match w.acceptCallback with
    | none => registerClient K clientSocket ctl w
    | some func =>
      some { w.log (.acceptCallback func fd clientSocket w.acceptCallbackUserData) with
        callback := some (.accept fd clientSocket) }
  else none

/-- What is left to do when a callback returns. -/
def callbackReturn (cb : Callback) (ctl : Bool) (w : World) : Option World :=
  match cb with
  | .accept _ client => registerClient K client ctl w
  | .receive _ => some w
  | .sendComplete _ => some (freeSendRequest w)

/-- `proactor_tcp_epoll_wake`, with the result of its `write`. -/
def proactorTcpEpollWake (ret : Int) (w : World) : World :=
  let w := w.log (.wakeWrite w.wakeupFds.2 ret)
  if ret = -1 then handleError "write" w else w

def proactorTcpEpollStop (ret : Int) (w : World) : World :=
  proactorTcpEpollWake ret { w with stop := true }

/-- Results of the calls made by `proactor_tcp_epoll_send`. -/
structure SendAnswers where
  mallocRequest : Bool := true
  mallocData : Bool := true
  ctl : Bool := true

def proactorTcpEpollSend (socket : Fd) (data : List Byte) (ans : SendAnswers) (w : World) : Option World :=
  if w.currentSendRequest.isSome then some (w.log (.sendReturned socket data (-1)))
  else if !ans.mallocRequest then some (handleError "malloc" w)
  else if !ans.mallocData then some (handleError "malloc" w)
  else
    let req := { data := data, length := data.length, offset := 0 }
    epollCtl K .mod socket EPOLLOUT ans.ctl (fun w => w.log (.sendReturned socket data 0))
      { w with currentSendRequest := some req }

/-- The branches of the `for` loop of `proactor_tcp_epoll_run`. -/
inductive Route where
  | wake | accept | data | write | ignored
  deriving DecidableEq, Repr

/-- The tests of the `for` loop of `proactor_tcp_epoll_run`, in their order. -/
def route (w : World) (ev : Event) : Route :=
  if ev.fd = w.wakeupFds.1 then .wake
  else if ev.fd = w.serverSocket then .accept
  else if ev.events &&& EPOLLIN ≠ 0 then .data
  else if ev.events &&& EPOLLOUT ≠ 0 then .write
  else .ignored

/-- Results of the calls made while one event is handled; each handler uses those of its own calls. -/
structure EventAnswers where
  accept : Fd := -1
  read : Option (List Byte) := none
  write : Int := -1
  ctl : Bool := true

/-- The body of the `for` loop of `proactor_tcp_epoll_run`. -/
def handleEvent (ev : Event) (ans : EventAnswers) (w : World) : Option World :=
  match route w ev with
  | .wake => some (w.log (.wakeRead ev.fd))
  | .accept => handleAcceptEvent K ev.fd ans.accept ans.ctl w
  | .data => handleDataEvent K ev.fd ans.read ans.ctl w
  | .write => handleWriteEvent ev.fd ans.write w
  | .ignored => some w

/-- Results of `epoll_wait`. -/
inductive WaitAnswer where
  | events (evs : List Event)
  | interrupted
  | failed

/-- The head of the `while` loop of `proactor_tcp_epoll_run`: the test of `stop`, then `epoll_wait`, when no other
    thread comes between. -/
def waitEvents (ans : WaitAnswer) (w : World) : Option World :=
  if w.stop then some { w with running := false }
  else match ans with
    | .events evs => if K.wait w.kernel evs then some { w with batch := evs } else none
    | .interrupted => some w
    | .failed => if K.waitFails then some (handleError "epoll_wait" w) else none

/-- `proactor_tcp_epoll_cleanup`. It frees a remaining send request but does not clear the pointer. -/
def proactorTcpEpollCleanup (w : World) : World :=
  let w := if w.serverSocket ≠ -1 then w.closeFile w.serverSocket else w
  let w := if w.clientSocket ≠ -1 then w.closeFile w.clientSocket else w
  let w := if w.wakeupFds.1 ≠ -1 then (w.closeFile w.wakeupFds.1).closeFile w.wakeupFds.2 else w
  w.closeFile w.epollFd

/-- One step: a call of the application, or of the event loop. -/
inductive Action where
  | startServer (port : UInt16) (ans : StartServerAnswers)
  | connect (address : String) (port : UInt16) (ans : ConnectAnswers)
  | send (socket : Fd) (data : List Byte) (ans : SendAnswers)
  | setReceiveCallback (func : Option FuncPtr) (userData : Ptr)
  | setSendCompleteCallback (func : Option FuncPtr) (userData : Ptr)
  | setAcceptCallback (func : Option FuncPtr) (userData : Ptr)
  | wake (ret : Int)
  | stop (ret : Int)
  | run
  | wait (ans : WaitAnswer)
  | event (ans : EventAnswers)
  | callbackReturn (ctl : Bool)

/-- One step of the process. The application may call the proactor at any time, but does not call
    `proactor_tcp_epoll_run` before that has returned; the event loop handles the next event of its batch when
    no callback is being executed, and goes back to its head when the batch is empty. -/
def step (w : World) (a : Action) : Option World :=
  if w.exited then none
  else match a with
    | .startServer port ans => proactorTcpEpollStartServer K port ans w
    | .connect address port ans => proactorTcpEpollConnect K address port ans w
    | .send socket data ans =>
      if data.length < sizeMax then proactorTcpEpollSend K socket data ans w else none
    | .setReceiveCallback func userData =>
      some { w with receiveCallback := func, receiveCallbackUserData := userData }
    | .setSendCompleteCallback func userData =>
      some { w.log (.setSendComplete func) with
        sendCompleteCallback := func, sendCompleteCallbackUserData := userData }
    | .setAcceptCallback func userData =>
      some { w with acceptCallback := func, acceptCallbackUserData := userData }
    | .wake ret => some (proactorTcpEpollWake ret w)
    | .stop ret => some (proactorTcpEpollStop ret w)
    | .run => if w.running then none else some { w with running := true }
    | .wait ans =>
      if w.running && w.callback.isNone && w.batch.isEmpty then waitEvents K ans w else none
    | .event ans =>
      match w.callback, w.batch with
      | none, ev :: rest => handleEvent K ev ans { w with batch := rest }
      | _, _ => none
    | .callbackReturn ctl =>
      match w.callback with
      | some cb => callbackReturn K cb ctl { w with callback := none }
      | none => none

/-- The epoll backend as a machine. -/
def machine : Machine World Action := ⟨step K⟩

/-- The state after a `proactor_tcp_epoll_init` that did not exit, in a process that had only foreign
    descriptors open before. -/
def Started (w : World) : Prop :=
  ∃ k ans, (∀ fd, k.files fd = none ∨ k.files fd = some .foreign) ∧ (∀ fd, k.interest fd = none) ∧
    proactorTcpEpollInit K ans (boot k) = some w ∧ w.exited = false

end TagSim.Epoll
