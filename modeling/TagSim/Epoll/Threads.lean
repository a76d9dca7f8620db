import TagSim.Epoll.Proactor

/-!
# The event loop among other threads

The event loop, `proactor_tcp_epoll_wake` and `proactor_tcp_epoll_stop` in the steps that other threads see:
the test of `stop` and `epoll_wait` are two steps, and so are the assignment of `stop` and the write to the
wake pipe. The pipe is a channel of bytes of some capacity. A thread that calls the two functions is a party;
a callback that calls them is a party too.
-/

namespace TagSim.Epoll

universe u

/-- Where a party stands: outside, before the assignment of `stop`, or before the write, in a call of
    `proactor_tcp_epoll_stop` or of `proactor_tcp_epoll_wake`. -/
inductive CallPoint where
  | idle
  | setStop
  | write (stops : Bool)
  deriving DecidableEq, Repr

/-- The party is in a call of `proactor_tcp_epoll_stop`. -/
def CallPoint.stopping : CallPoint → Bool
  | .idle => false
  | .setStop => true
  | .write stops => stops

/-- The state that the threads share, and where they stand. -/
structure Threads (ι : Type u) where
  world : World
  /-- The bytes in the wake pipe. -/
  pipe : List Byte := []
  /-- The event loop has tested `stop` and is in `epoll_wait`. -/
  waiting : Bool := false
  callers : ι → CallPoint := fun _ => .idle

/-- `proactor_tcp_epoll_run` calls `epoll_wait`. -/
def epollWait (K : KernelRules) (ans : WaitAnswer) (w : World) : Option World :=
  match ans with
  | .events evs => if K.wait w.kernel evs then some { w with batch := evs } else none
  | .interrupted => some w
  | .failed => if K.waitFails then some (handleError "epoll_wait" w) else none

/-- Calls of the application other than those of `proactor_tcp_epoll_wake` and `proactor_tcp_epoll_stop`,
    and the returns of callbacks. -/
def Action.isCall : Action → Bool
  | .wake _ | .stop _ | .wait _ | .event _ => false
  | _ => true

/-- One step of one thread. -/
inductive ThreadAction (ι : Type u) where
  | callWake (i : ι)
  | callStop (i : ι)
  | setStop (i : ι)
  | write (i : ι)
  | writeFails (i : ι)
  /-- The event loop tests `stop`. -/
  | test
  /-- `epoll_wait` returns. -/
  | wait (ans : WaitAnswer)
  | event (ans : EventAnswers)
  | call (a : Action)

namespace Threads

variable {ι : Type u}

/-- `epoll_wait` reports the wake pipe only while there is a byte in it. -/
def reportable (t : Threads ι) : WaitAnswer → Bool
  | .events evs => evs.all fun ev => ev.fd != t.world.wakeupFds.1 || !t.pipe.isEmpty
  | _ => true

/-- The event loop is about to handle `ev`. -/
def next (t : Threads ι) : Option Event :=
  match t.world.callback, t.world.batch with
  | none, ev :: _ => some ev
  | _, _ => none

variable [DecidableEq ι] (K : KernelRules) (capacity : Nat)

def moveTo (t : Threads ι) (i : ι) (p : CallPoint) : Threads ι :=
  { t with callers := Function.update t.callers i p }

/-- One step. A write to a full pipe and a read from an empty one block. -/
def step (t : Threads ι) (act : ThreadAction ι) : Option (Threads ι) :=
  if t.world.exited then none
  else match act with
    | .callWake i => if t.callers i = .idle then some (t.moveTo i (.write false)) else none
    | .callStop i => if t.callers i = .idle then some (t.moveTo i .setStop) else none
    | .setStop i =>
      if t.callers i = .setStop then
        some { t.moveTo i (.write true) with world := { t.world with stop := true } }
      else none
    | .write i =>
      match t.callers i with
      | .write _ =>
        if t.pipe.length < capacity then
          some { t.moveTo i .idle with world := proactorTcpEpollWake 1 t.world, pipe := t.pipe ++ [1] }
        else none
      | _ => none
    | .writeFails i =>
      match t.callers i with
      | .write _ => some { t with world := proactorTcpEpollWake (-1) t.world }
      | _ => none
    | .test =>
      if t.world.running && t.world.callback.isNone && t.world.batch.isEmpty && !t.waiting then
        if t.world.stop then some { t with world := { t.world with running := false } }
        else some { t with waiting := true }
      else none
    | .wait ans =>
      if t.waiting && t.reportable ans then
        (epollWait K ans t.world).map fun w => { t with world := w, waiting := false }
      else none
    | .event ans =>
      match t.next with
      | none => none
      | some ev =>
        if route t.world ev = .wake then
          match t.pipe with
          | [] => none
          | _ :: pipe => (Epoll.step K t.world (.event ans)).map fun w => { t with world := w, pipe := pipe }
        else (Epoll.step K t.world (.event ans)).map fun w => { t with world := w }
    | .call a => if a.isCall then (Epoll.step K t.world a).map fun w => { t with world := w } else none

/-- The threads as a machine. -/
def machine : Machine (Threads ι) (ThreadAction ι) := ⟨step K capacity⟩

omit [DecidableEq ι] in
/-- The event loop is in `epoll_wait` although `stop` is set, no call of `proactor_tcp_epoll_stop` is under
    way, and there is no byte in the pipe. -/
def LostStop (t : Threads ι) : Prop :=
  t.world.exited = false ∧ t.waiting = true ∧ t.world.stop = true ∧
    (∀ i, (t.callers i).stopping = false) ∧ t.pipe = []

/-- The event loop is about to read from the wake pipe. -/
def ReadsWake (t : Threads ι) : Prop :=
  t.world.exited = false ∧ ∃ ev, t.next = some ev ∧ route t.world ev = .wake

/-- An event of the wake pipe is still to be handled in the pass under way. -/
def wakeLeft (t : Threads ι) : Bool := t.world.batch.any fun ev => ev.fd = t.world.wakeupFds.1

/-- A byte is written to the wake pipe, by `proactor_tcp_epoll_wake` or `proactor_tcp_epoll_stop`. -/
def writesWake (_ : Threads ι) : ThreadAction ι → Nat
  | .write _ => 1
  | _ => 0

/-- The event loop reads a byte from the wake pipe. -/
def readsWake (t : Threads ι) : ThreadAction ι → Nat
  | .event _ => if t.next.map (route t.world) = some .wake then 1 else 0
  | _ => 0

/-- `epoll_wait` reports events, and a pass of the event loop begins. -/
def beginsPass (_ : Threads ι) : ThreadAction ι → Nat
  | .wait (.events _) => 1
  | _ => 0

end Threads

end TagSim.Epoll
