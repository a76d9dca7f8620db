import TagSim.Epoll.Proactor
import TagSim.Runs.Typestate

/-!
# What may be done with a descriptor

A descriptor of the proactor is opened, registered with the epoll instance and closed, and may then be opened
again. Only a registered descriptor is read from, written to, closed by the event loop or handed to a
callback. Three things are done with a descriptor before it is registered: it is bound or connected, it is handed to
the accept callback, which is called before the registration, and it is written to if it is the end of the wake pipe,
which is never registered. After `close` it is removed from the epoll instance. A history does not mention
`accept` and `listen`.
-/

namespace TagSim.Epoll

/-- Where a descriptor is in its life. A descriptor that is not the proactor's is shut. -/
inductive Phase where
  | shut | opened | registered
  deriving DecidableEq, Repr

/-- The phases in which an observation must find the descriptors it concerns. A failed `epoll_ctl` is the last
    thing that a process does. -/
def Obs.needsPhases : Obs → List (Fd × Phase)
  | .opened fd _ => [(fd, .shut)]
  | .bind fd _ | .connect fd _ _ | .ctl .add fd _ true | .wakeWrite fd _ => [(fd, .opened)]
  | .ctl .mod fd _ true | .closed fd | .read fd _ | .write fd _ _ | .wakeRead fd | .receiveCallback _ fd _ _
    | .sendCompleteCallback _ fd _ => [(fd, .registered)]
  | .acceptCallback _ server client _ => [(server, .registered), (client, .opened)]
  | .ctl .del fd _ true => [(fd, .shut)]
  | .ctl _ _ _ false | .setSendComplete _ | .sendReturned .. | .perror _ => []

/-- The descriptor that an observation puts into a new phase. -/
def Obs.setsPhase : Obs → Option (Fd × Phase)
  | .opened fd _ => some (fd, .opened)
  | .ctl .add fd _ true => some (fd, .registered)
  | .closed fd => some (fd, .shut)
  | _ => none

/-- The life of descriptors as a protocol, with what is allowed before the registration and after `close`. -/
def descriptorProtocol : Typestate Fd Phase Obs := ⟨Obs.needsPhases, Obs.setsPhase⟩

/-- The phase of a descriptor by the tables of the kernel. -/
def Kernel.phase (k : Kernel) (fd : Fd) : Phase :=
  match k.files fd with
  | none | some .foreign => .shut
  | some _ => if (k.interest fd).isSome then .registered else .opened

end TagSim.Epoll
