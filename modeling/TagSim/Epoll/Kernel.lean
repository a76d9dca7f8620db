import Mathlib.Algebra.Group.Nat.Defs
import Mathlib.Logic.Function.Basic

/-!
# The kernel as the epoll backend sees it

The descriptor table of the process and the interest list of its one epoll instance. The kernel is not
part of the repository; what it may answer to `epoll_ctl` and `epoll_wait` is a parameter, `KernelRules`,
and `documented` are the rules of the manual pages.
-/

namespace TagSim.Epoll

/-- A file descriptor, as C has it: an `int`, negative for an error. -/
abbrev Fd := Int

abbrev Byte := UInt8

/-- `size_t` is 64 bits wide: its values are the numbers below `sizeMax`, and arithmetic wraps. -/
def sizeMax : Nat := 2 ^ 64

/-- Subtraction of two `size_t` values. -/
def sizeSub (a b : Nat) : Nat := (a + sizeMax - b) % sizeMax

/-- The bit mask `events` of a `struct epoll_event`. -/
abbrev EventMask := BitVec 32

def EPOLLIN : EventMask := 0x001
def EPOLLOUT : EventMask := 0x004
def EPOLLERR : EventMask := 0x008
def EPOLLHUP : EventMask := 0x010

/-- `MAX_EVENTS`, the size of the array given to `epoll_wait`. -/
def maxEvents : Nat := 64

/-- `BUFFER_SIZE`, the size of the buffer given to `read`. -/
def bufferSize : Nat := 8192

/-- What an open descriptor refers to; `foreign` are the descriptors that the process had open before. -/
inductive FileKind where
  | epoll | pipeRead | pipeWrite | listener | stream | foreign
  deriving DecidableEq, Repr

/-- The operations of `epoll_ctl`. -/
inductive CtlOp where
  | add | mod | del
  deriving DecidableEq, Repr

/-- A `struct epoll_event` as `epoll_wait` reports it. -/
structure Event where
  fd : Fd
  events : EventMask
  deriving DecidableEq, Repr

/-- The kernel's side: the open descriptors and the interest list of the epoll instance. -/
structure Kernel where
  files : Fd → Option FileKind
  interest : Fd → Option EventMask

namespace Kernel

/-- A descriptor the kernel can return as a new one. -/
def fresh (k : Kernel) (fd : Fd) : Bool := 0 ≤ fd && (k.files fd).isNone

def openFile (k : Kernel) (fd : Fd) (kind : FileKind) : Kernel :=
  { k with files := Function.update k.files fd (some kind) }

/-- `close`: closing a descriptor also removes its registration. -/
def closeFile (k : Kernel) (fd : Fd) : Kernel :=
  { files := Function.update k.files fd none, interest := Function.update k.interest fd none }

/-- The effect of a successful `epoll_ctl`. -/
def ctl (k : Kernel) (op : CtlOp) (fd : Fd) (events : EventMask) : Kernel :=
  match op with
  | .add | .mod => { k with interest := Function.update k.interest fd (some events) }
  | .del => { k with interest := Function.update k.interest fd none }

/-- The precondition of an `epoll_ctl` operation: `ADD` needs an open descriptor that is not registered,
    `MOD` and `DEL` one that is. -/
def ctlLegal (k : Kernel) (op : CtlOp) (fd : Fd) : Bool :=
  match op with
  | .add => (k.files fd).isSome && (k.interest fd).isNone
  | .mod | .del => (k.files fd).isSome && (k.interest fd).isSome

/-- An event that may be reported: its descriptor is registered, and apart from `EPOLLERR` and `EPOLLHUP`
    only what is in the interest mask is reported. -/
def reports (k : Kernel) (ev : Event) : Bool :=
  match k.interest ev.fd with
  | none => false
  | some mask => ev.events &&& ~~~(mask ||| EPOLLERR ||| EPOLLHUP) == 0

end Kernel

/-- What the kernel may answer. -/
structure KernelRules where
  /-- May `epoll_ctl` answer `ok`? -/
  ctl : Kernel → CtlOp → Fd → Bool → Bool
  /-- May `epoll_wait` report this batch of events? -/
  wait : Kernel → List Event → Bool
  /-- May `epoll_wait` fail for another reason than a signal? -/
  waitFails : Bool

/-- A batch of `epoll_wait`: at most `MAX_EVENTS` registered descriptors, each at most once. -/
def Kernel.batchLegal (k : Kernel) (evs : List Event) : Bool :=
  evs.all k.reports && decide (evs.map Event.fd).Nodup && decide (evs.length ≤ maxEvents)

/-- The rules of the manual pages: `epoll_ctl` succeeds exactly when its precondition holds. -/
def documented : KernelRules where
  ctl k op fd ok := ok == k.ctlLegal op fd
  wait := Kernel.batchLegal
  waitFails := false

/-- The documented rules, except that `EPOLL_CTL_DEL` may have any outcome. -/
def anyDel : KernelRules where
  ctl k op fd ok := op == .del || ok == k.ctlLegal op fd
  wait := Kernel.batchLegal
  waitFails := false

/-- Rules that are the documented ones, possibly apart from `EPOLL_CTL_DEL`. -/
structure KernelRules.Strict (K : KernelRules) : Prop where
  ctl : ∀ k op fd ok, op ≠ .del → K.ctl k op fd ok → ok = k.ctlLegal op fd
  wait : ∀ k evs, K.wait k evs → k.batchLegal evs
  waitFails : K.waitFails = false

end TagSim.Epoll
