import TagSim.Epoll.Proactor

/-!
# The epoll backend with its heap, from one initialisation to the next

`Lifecycle` adds `proactor_tcp_epoll_init` and `proactor_tcp_epoll_cleanup` to the calls that an application
can make, any number of times and at any point. As in `step`, no call of `proactor_tcp_epoll_run` is made from
inside a callback of another one. `Process` is the same program one level further down, where
`current_send_request` is a pointer into a heap of `malloc`. An access to memory that is not allocated has no
meaning in C: it sets `faulted`, after which nothing happens.
-/

namespace TagSim.Epoll

/-- A step of a process that may also initialise and clean up the proactor. -/
inductive Lifecycle where
  | init (ans : InitAnswers)
  | cleanup
  | call (a : Action)

variable (K : KernelRules)

def lifecycleStep (w : World) (a : Lifecycle) : Option World :=
  if w.exited then none
  else match a with
    | .init ans => proactorTcpEpollInit K ans w
    | .cleanup => some (proactorTcpEpollCleanup w)
    | .call a => step K w a

/-- The epoll backend with its initialisations as a machine. -/
def lifecycle : Machine World Lifecycle := ⟨lifecycleStep K⟩

/-- `NULL` -/
def null : Ptr := 0

/-- A `SendRequest` as it lies in memory. -/
structure RequestBlock where
  data : Ptr
  length : Nat
  offset : Nat
  deriving DecidableEq, Repr

/-- The blocks that `malloc` has returned and that are not freed, by their addresses. -/
structure Heap where
  requests : Ptr → Option RequestBlock
  buffers : Ptr → Option (List Byte)

namespace Heap

def empty : Heap := ⟨fun _ => none, fun _ => none⟩

/-- An address that `malloc` can return. -/
def fresh (h : Heap) (p : Ptr) : Bool := p != null && (h.requests p).isNone && (h.buffers p).isNone

def setRequest (h : Heap) (p : Ptr) (block : Option RequestBlock) : Heap :=
  { h with requests := Function.update h.requests p block }

def setBuffer (h : Heap) (p : Ptr) (buf : Option (List Byte)) : Heap :=
  { h with buffers := Function.update h.buffers p buf }

/-- The request at an address and the bytes that it points to. -/
def load (h : Heap) (p : Ptr) : Option (RequestBlock × List Byte) :=
  (h.requests p).bind fun block => (h.buffers block.data).map fun buf => (block, buf)

end Heap

/-- The static variables with `current_send_request` as it is in the source, and the heap it points into. The
    request in `world` is not used. -/
structure Process where
  world : World
  currentSendRequest : Ptr := null
  heap : Heap := .empty
  faulted : Bool := false

namespace Process

/-- The process before `proactor_tcp_epoll_init`. -/
def boot (k : Kernel) : Process := { world := Epoll.boot k }

/-- An access to memory that is not allocated. -/
def fault (p : Process) : Process := { p with faulted := true }

/-- `free(current_send_request->data); free(current_send_request)` -/
def free (p : Process) : Process :=
  match p.heap.load p.currentSendRequest with
  | none => p.fault
  | some (block, _) =>
    { p with heap := (p.heap.setBuffer block.data none).setRequest p.currentSendRequest none }

/-- The end of `handle_write_event`: the request is freed, and the pointer is cleared. -/
def freeSendRequest (p : Process) : Process := { p.free with currentSendRequest := null }

/-- `handle_write_event(fd)`, up to the call of the send-complete callback. -/
def handleWriteEvent (fd : Fd) (bytesSent : Int) (p : Process) : Option Process :=
  if p.currentSendRequest = null then some p
  else match p.heap.load p.currentSendRequest with
    | none => some p.fault
    | some (block, buf) =>
      let count := sizeSub block.length block.offset
      if bytesSent = -1 ∨ (0 ≤ bytesSent ∧ bytesSent ≤ count) then
        let w := p.world.log (.write fd ((buf.drop block.offset).take count) bytesSent)
        if bytesSent < 0 then some { p with world := w.log (.perror "write") }
        else
          let block := { block with offset := (block.offset + bytesSent.toNat) % sizeMax }
          let p := { p with world := w, heap := p.heap.setRequest p.currentSendRequest (some block) }
          if block.offset ≥ block.length then
            match w.sendCompleteCallback with
            | none => some p.freeSendRequest
            | some func =>
              some { p with world := { w.log (.sendCompleteCallback func fd w.sendCompleteCallbackUserData) with
                callback := some (.sendComplete fd) } }
          else some p
      else none

/-- `proactor_tcp_epoll_send`, with the addresses that `malloc` returns where it does not fail. -/
def send (socket : Fd) (data : List Byte) (ans : SendAnswers) (mallocs : Ptr × Ptr) (p : Process) :
    Option Process :=
  if p.currentSendRequest ≠ null then some { p with world := p.world.log (.sendReturned socket data (-1)) }
  else if !ans.mallocRequest then some { p with world := handleError "malloc" p.world }
  else if p.heap.fresh mallocs.1 then
    if !ans.mallocData then some { p with world := handleError "malloc" p.world }
    else if p.heap.fresh mallocs.2 && mallocs.1 != mallocs.2 then
      let heap := (p.heap.setBuffer mallocs.2 (some data)).setRequest mallocs.1
        (some { data := mallocs.2, length := data.length, offset := 0 })
      (epollCtl K .mod socket EPOLLOUT ans.ctl (fun w => w.log (.sendReturned socket data 0)) p.world).map
        fun w => { p with world := w, currentSendRequest := mallocs.1, heap := heap }
    else none
  else none

/-- `proactor_tcp_epoll_cleanup`. The pointer keeps its value. -/
def cleanup (p : Process) : Process :=
  let p := { p with world := proactorTcpEpollCleanup p.world }
  if p.currentSendRequest = null then p else p.free

/-- A step, with the addresses that `malloc` returns. -/
inductive Action where
  | init (ans : InitAnswers)
  | cleanup
  | call (a : Epoll.Action) (mallocs : Ptr × Ptr)

/-- What a call of the application or of the event loop does. Those that do not use the send request do what
    they do in `World`. -/
def call (a : Epoll.Action) (mallocs : Ptr × Ptr) (p : Process) : Option Process :=
  match a with
  | .send socket data ans => if data.length < sizeMax then p.send K socket data ans mallocs else none
  | .event ans =>
    match p.world.callback, p.world.batch with
    | none, ev :: rest =>
      let w := { p.world with batch := rest }
      match route w ev with
      | .write => handleWriteEvent ev.fd ans.write { p with world := w }
      | _ => (handleEvent K ev ans w).map fun w => { p with world := w }
    | _, _ => none
  | .callbackReturn ctl =>
    match p.world.callback with
    | some (.sendComplete _) => some (freeSendRequest { p with world := { p.world with callback := none } })
    | _ => (Epoll.step K p.world (.callbackReturn ctl)).map fun w => { p with world := w }
  | a => (Epoll.step K p.world a).map fun w => { p with world := w }

def step (p : Process) (a : Action) : Option Process :=
  if p.world.exited || p.faulted then none
  else match a with
    | .init ans => (proactorTcpEpollInit K ans p.world).map fun w => { p with world := w }
    | .cleanup => some p.cleanup
    | .call a mallocs => p.call K a mallocs

/-- The epoll backend with its heap as a machine. -/
def machine : Machine Process Action := ⟨step K⟩

/-- The request that the pointer refers to. -/
def request (p : Process) : Option SendRequest :=
  (p.heap.load p.currentSendRequest).map fun (block, buf) =>
    { data := buf, length := block.length, offset := block.offset }

/-- The process as it is without a heap. -/
def view (p : Process) : World := { p.world with currentSendRequest := p.request }

/-- The action as it is without a heap. -/
def Action.view : Action → Lifecycle
  | .init ans => .init ans
  | .cleanup => .cleanup
  | .call a _ => .call a

end Process

end TagSim.Epoll
