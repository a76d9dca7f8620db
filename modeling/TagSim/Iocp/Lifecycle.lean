import TagSim.Iocp.Proactor
import TagSim.Ownership.Ledger

/-!
# From `proactor_tcp_iocp_init` to `proactor_tcp_iocp_cleanup`

What the process acquires from Winsock and the kernel, and what the cleanup gives back. `opened` lists the
sockets by the function that opened them: the backend keeps two of them at most, in `server_socket` and
`client_socket`.
-/

namespace TagSim.Iocp

open TagSim.Ownership

/-- A `HANDLE`. -/
abbrev Handle := Nat

/-- `NULL` as a `HANDLE`. -/
def nullHandle : Handle := 0

inductive Resource where
  | winsock
  | port (handle : Handle)
  | socket (s : Socket)
  deriving DecidableEq, Repr

/-- Who opened a socket: `proactor_tcp_iocp_start_server`, `proactor_tcp_iocp_connect` or
    `handle_accept_event`. -/
inductive Role where
  | listener | client | accepted
  deriving DecidableEq, Repr

structure Process where
  world : World := {}
  iocp : Handle := nullHandle
  /-- Newest first. -/
  opened : List (Role × Socket) := []
  /-- Newest first. -/
  moves : List (Move Resource) := []

/-- Results of the calls made by `proactor_tcp_iocp_init`. -/
structure InitAnswers where
  wsaStartup : Bool := true
  port : Handle

def proactorTcpIocpInit (ans : InitAnswers) (p : Process) : Process :=
  if !ans.wsaStartup then { p with world := handleError "WSAStartup" p.world }
  else
    let p := { p with iocp := ans.port, moves := .acquire .winsock :: p.moves }
    if ans.port = nullHandle then { p with world := handleError "CreateIoCompletionPort" p.world }
    else { p with moves := .acquire (.port ans.port) :: p.moves }

/-- The sockets that the cleanup knows of. -/
def World.sockets (w : World) : List (Role × Socket) :=
  (if w.serverSocket ≠ invalidSocket then [(.listener, w.serverSocket)] else []) ++
    (if w.clientSocket ≠ invalidSocket then [(.client, w.clientSocket)] else [])

/-- What `proactor_tcp_iocp_cleanup` releases, the first one first. -/
def closing (p : Process) : List Resource :=
  p.world.sockets.map (fun x => .socket x.2) ++
    (if p.iocp ≠ nullHandle then [.port p.iocp, .winsock] else [.winsock])

def proactorTcpIocpCleanup (p : Process) : Process := { p with moves := releaseAll (closing p) p.moves }

/-- The socket that a step opens. -/
def opens (w : World) (act : Action) : Option (Role × Socket) :=
  match act with
  | .startServer _ ans => if ans.socket = invalidSocket then none else some (.listener, ans.socket)
  | .connect _ _ ans => if ans.socket = invalidSocket then none else some (.client, ans.socket)
  | .dequeue accept _ =>
    if (∃ p ∈ w.kernel.queue.head?, p.key = w.serverSocket) ∧ accept.accept ≠ invalidSocket then
      some (.accepted, accept.accept)
    else none
  | _ => none

/-- A step of the backend. The kernel gives out no socket that is open. -/
def Process.step (p : Process) (act : Action) : Option Process :=
  match Iocp.step p.world act, opens p.world act with
  | none, _ => none
  | some w, none => some { p with world := w }
  | some w, some x =>
    if x.2 ∈ p.opened.map Prod.snd then none
    else some { p with world := w, opened := x :: p.opened, moves := .acquire (.socket x.2) :: p.moves }

/-- The process between initialisation and cleanup as a machine. -/
def Process.machine : Machine Process Action := ⟨Process.step⟩

end TagSim.Iocp
