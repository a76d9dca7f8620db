import TagSim.Iocp.Lifecycle
import TagSim.Iocp.Proofs.FrameProofs
import TagSim.Ownership.Proofs.LedgerProofs

/-!
# Proofs: what an IOCP process gives back

`Ledger p` says what is held and which of it the backend knows. The cleanup gives everything back exactly
when the process has started one server at most, opened one connection at most and accepted none.
-/

namespace TagSim.Iocp

open TagSim.Ownership

variable {w w' : World} {act : Action} {p p' p₀ : Process} {as : List Action}

section Sockets

/-- What a step does with the sockets, if the process goes on. -/
inductive SocketOutcome (w : World) (act : Action) (w' : World) : Prop
  | listens (s) (hvalid : s ≠ invalidSocket) (hopens : opens w act = some (.listener, s))
      (hserver : w'.serverSocket = s) (hclient : w'.clientSocket = w.clientSocket)
  | connects (s) (hvalid : s ≠ invalidSocket) (hopens : opens w act = some (.client, s))
      (hserver : w'.serverSocket = w.serverSocket) (hclient : w'.clientSocket = s)
  | keeps (hopens : ∀ r s, opens w act = some (r, s) → r = .accepted) (hsame : SameSockets w w')
  | exits (hexit : w'.exited = true)

theorem startServer_sockets (port : UInt16) (ans : StartServerAnswers) (w : World) :
    SocketOutcome w (.startServer port ans) (proactorTcpIocpStartServer port ans w) := by
  by_cases hinvalid : ans.socket = invalidSocket
  · refine .exits ?_
    unfold proactorTcpIocpStartServer
    rw [if_pos hinvalid]
    rfl
  · refine .listens ans.socket hinvalid (if_neg hinvalid) ?_ ?_
    all_goals
      unfold proactorTcpIocpStartServer
      split_ifs
      all_goals rfl

theorem connect_sockets (address : String) (port : UInt16) (ans : ConnectAnswers) (w : World) :
    SocketOutcome w (.connect address port ans) (proactorTcpIocpConnect address port ans w) := by
  by_cases hinvalid : ans.socket = invalidSocket
  · refine .exits ?_
    unfold proactorTcpIocpConnect
    rw [if_pos hinvalid]
    rfl
  · refine .connects ans.socket hinvalid (if_neg hinvalid) ?_ ?_
    all_goals
      unfold proactorTcpIocpConnect
      split_ifs
      all_goals rfl

/-- Only `proactor_tcp_iocp_start_server` and `proactor_tcp_iocp_connect` set a static socket. -/
theorem step_sockets (h : step w act = some w') : SocketOutcome w act w' := by
  cases step_way h with
  | startServer port ans => exact startServer_sockets port ans w
  | connect address port ans => exact connect_sockets address port ans w
  | send socket data ans hsend => exact .keeps nofun (send_framed hsend).1
  | wake | stop | setReceiveCallback func userData | setSendCompleteCallback func userData
    | setAcceptCallback func userData | arrive key overlapped | run | test | dequeueFails =>
    exact .keeps nofun ⟨rfl, rfl⟩
  | dequeue accept io packet rest hloop hqueue hhandle =>
    have hsame : SameSockets (w.take packet rest) w' := packet_framed hhandle
    refine .keeps (fun r s hopens => ?_) ⟨hsame.server, hsame.client⟩
    simp only [opens] at hopens
    split_ifs at hopens
    exact (Prod.mk.inj (Option.some.inj hopens)).1.symm
  | complete a result hcomplete => exact .keeps nofun (ioCompletes_framed hcomplete).1

end Sockets

section Ledger

/-- What the process has acquired. -/
def Process.acquired (p : Process) : List Resource :=
  p.opened.map (fun x => .socket x.2) ++ [.port p.iocp, .winsock]

/-- A static socket is not set and none was opened for it, or it is the last one opened for it. -/
def Knows (opened : List (Role × Socket)) (r : Role) (s : Socket) : Prop :=
  (s = invalidSocket ∧ ∀ t, (r, t) ∉ opened) ∨ (s ≠ invalidSocket ∧ (r, s) ∈ opened)

/-- What is held, and what the backend knows of it. -/
structure Ledger (p : Process) : Prop where
  held : holdings p.moves = some p.acquired.toFinset
  port : p.iocp ≠ nullHandle
  nodup : (p.opened.map Prod.snd).Nodup
  server : Knows p.opened .listener p.world.serverSocket
  client : Knows p.opened .client p.world.clientSocket

theorem Knows.opens {opened : List (Role × Socket)} {r r' : Role} {s t : Socket} (h : Knows opened r s)
    (hne : r' ≠ r) : Knows ((r', t) :: opened) r s := by
  rcases h with ⟨hs, hnone⟩ | ⟨hs, hmem⟩
  · refine Or.inl ⟨hs, fun u hu => ?_⟩
    rcases List.mem_cons.mp hu with heq | hu
    · exact hne (Prod.mk.inj heq).1.symm
    · exact hnone u hu
  · exact Or.inr ⟨hs, List.mem_cons_of_mem _ hmem⟩

/-- The cases of a step of the process. -/
theorem process_cases (h : p.step act = some p') : ∃ w, step p.world act = some w ∧
    ((opens p.world act = none ∧ p' = { p with world := w }) ∨
      ∃ r s, opens p.world act = some (r, s) ∧ s ∉ p.opened.map Prod.snd ∧
        p' = { p with world := w, opened := (r, s) :: p.opened, moves := .acquire (.socket s) :: p.moves }) := by
  unfold Process.step at h
  cases hstep : step p.world act with
  | none => simp [hstep] at h
  | some w =>
    cases hopens : opens p.world act with
    | none =>
      simp only [hstep, hopens] at h
      exact ⟨w, rfl, Or.inl ⟨rfl, (Option.some.inj h).symm⟩⟩
    | some x =>
      simp only [hstep, hopens] at h
      split_ifs at h with hfresh
      exact ⟨w, rfl, Or.inr ⟨x.1, x.2, rfl, hfresh, (Option.some.inj h).symm⟩⟩

/-- A socket that is opened is held from then on. -/
theorem Ledger.acquires (hp : Ledger p) {s : Socket} (hfresh : s ∉ p.opened.map Prod.snd) (r : Role) :
    holdings (.acquire (.socket s) :: p.moves) =
      some (Process.acquired { p with opened := (r, s) :: p.opened }).toFinset := by
  have hnot : Resource.socket s ∉ p.acquired.toFinset := by
    rw [List.mem_toFinset, Process.acquired, List.mem_append]
    rintro (hmem | hmem)
    · obtain ⟨x, hx, heq⟩ := List.mem_map.mp hmem
      exact hfresh (Resource.socket.inj heq ▸ List.mem_map_of_mem hx)
    · simp at hmem
  rw [holdings_acquire hp.held hnot]
  simp [Process.acquired]

/-- A socket is opened, and a static socket may be set to it. -/
theorem Ledger.opens (hp : Ledger p) {r : Role} {s : Socket} (hfresh : s ∉ p.opened.map Prod.snd)
    (hserver : Knows ((r, s) :: p.opened) .listener w.serverSocket)
    (hclient : Knows ((r, s) :: p.opened) .client w.clientSocket) :
    Ledger { p with world := w, opened := (r, s) :: p.opened, moves := .acquire (.socket s) :: p.moves } :=
  ⟨hp.acquires hfresh r, hp.port, List.nodup_cons.mpr ⟨hfresh, hp.nodup⟩, hserver, hclient⟩

theorem Ledger.step (hp : Ledger p) (h : p.step act = some p') (hexit : p'.world.exited = false) :
    Ledger p' := by
  obtain ⟨w, hstep, ⟨hnone, rfl⟩ | ⟨r, s, hsome, hfresh, rfl⟩⟩ := process_cases h
  · cases step_sockets hstep with
    | listens s hvalid hopens hserver hclient => simp [hopens] at hnone
    | connects s hvalid hopens hserver hclient => simp [hopens] at hnone
    | keeps hopens hsame =>
      exact ⟨hp.held, hp.port, hp.nodup, hsame.server.symm ▸ hp.server, hsame.client.symm ▸ hp.client⟩
    | exits hexit' => exact absurd (hexit.symm.trans hexit') nofun
  · cases step_sockets hstep with
    | listens t hvalid hopens hserver hclient =>
      obtain ⟨rfl, rfl⟩ := Prod.mk.inj (Option.some.inj (hopens.symm.trans hsome))
      refine hp.opens hfresh (Or.inr ⟨hserver.symm ▸ hvalid, hserver.symm ▸ List.mem_cons_self ..⟩) ?_
      exact hclient.symm ▸ hp.client.opens (by decide)
    | connects t hvalid hopens hserver hclient =>
      obtain ⟨rfl, rfl⟩ := Prod.mk.inj (Option.some.inj (hopens.symm.trans hsome))
      refine hp.opens hfresh ?_ (Or.inr ⟨hclient.symm ▸ hvalid, hclient.symm ▸ List.mem_cons_self ..⟩)
      exact hserver.symm ▸ hp.server.opens (by decide)
    | keeps hopens hsame =>
      obtain rfl := hopens r s hsome
      refine hp.opens hfresh ?_ ?_
      · exact hsame.server.symm ▸ hp.server.opens (by decide)
      · exact hsame.client.symm ▸ hp.client.opens (by decide)
    | exits hexit' => exact absurd (hexit.symm.trans hexit') nofun

/-- A successful `proactor_tcp_iocp_init` of a new process. -/
def Initialised (p : Process) : Prop := ∃ ans, p = proactorTcpIocpInit ans {} ∧ p.world.exited = false

theorem Initialised.ledger (h : Initialised p) : Ledger p := by
  obtain ⟨ans, rfl, halive⟩ := h
  unfold proactorTcpIocpInit at halive ⊢
  split_ifs at halive ⊢ with hstartup hport
  · cases halive
  · cases halive
  · refine ⟨?_, hport, List.nodup_nil, Or.inl ⟨rfl, nofun⟩, Or.inl ⟨rfl, nofun⟩⟩
    have hwinsock : holdings [Move.acquire Resource.winsock] = some {.winsock} := rfl
    rw [holdings_acquire hwinsock (by simp)]
    rfl

theorem run_ledger (hstart : Initialised p₀) (hrun : Process.machine.run p₀ as = some p) :
    p.world.exited = false → Ledger p := by
  refine Machine.run_preserves (M := Process.machine) (I := fun q => q.world.exited = false → Ledger q)
    (fun q act q' hq hact hexit => ?_) (fun _ => hstart.ledger) hrun
  have hstep : q.step act = some q' := hact
  obtain ⟨w, halive, -⟩ := process_cases hstep
  exact (hq (alive_of_step halive)).step hstep hexit

end Ledger

section Cleanup

/-- The roles in which sockets were opened. -/
def Process.roles (p : Process) : List Role := p.opened.map Prod.fst

theorem Knows.mem {opened : List (Role × Socket)} {r : Role} {s t : Socket} (h : Knows opened r s)
    (hmem : (r, t) ∈ opened) : s ≠ invalidSocket ∧ (r, s) ∈ opened := by
  rcases h with ⟨-, hnone⟩ | hsome
  · exact absurd hmem (hnone t)
  · exact hsome

theorem mem_sockets {x : Role × Socket} : x ∈ w.sockets ↔
    (w.serverSocket ≠ invalidSocket ∧ x = (.listener, w.serverSocket)) ∨
      (w.clientSocket ≠ invalidSocket ∧ x = (.client, w.clientSocket)) := by
  unfold World.sockets
  rw [List.mem_append]
  refine or_congr ?_ ?_
  all_goals
    split_ifs with hvalid
    · simp [hvalid]
    · simp [hvalid]

theorem nodup_sockets (w : World) : (w.sockets.map Prod.fst).Nodup := by
  unfold World.sockets
  split_ifs <;> simp

/-- The backend knows of no socket that was not opened. -/
theorem Ledger.sockets_subset (hp : Ledger p) : ∀ x ∈ p.world.sockets, x ∈ p.opened := by
  intro x hx
  rcases mem_sockets.mp hx with ⟨hvalid, rfl⟩ | ⟨hvalid, rfl⟩
  · rcases hp.server with ⟨hs, -⟩ | ⟨-, hmem⟩
    · exact absurd hs hvalid
    · exact hmem
  · rcases hp.client with ⟨hs, -⟩ | ⟨-, hmem⟩
    · exact absurd hs hvalid
    · exact hmem

/-- The backend knows of all sockets exactly when they were opened in different roles, and none by an
    accept. -/
theorem Ledger.sockets_iff (hp : Ledger p) :
    (∀ x ∈ p.opened, x ∈ p.world.sockets) ↔ p.roles.Nodup ∧ .accepted ∉ p.roles := by
  constructor
  · intro hall
    have hinj : ∀ x ∈ p.opened, ∀ y ∈ p.opened, x.1 = y.1 → x = y := fun x hx y hy =>
      List.inj_on_of_nodup_map (nodup_sockets p.world) (hall x hx) (hall y hy)
    refine ⟨(List.Nodup.of_map _ hp.nodup).map_on hinj, fun hmem => ?_⟩
    obtain ⟨x, hx, hrole⟩ := List.mem_map.mp hmem
    rcases mem_sockets.mp (hall x hx) with ⟨-, rfl⟩ | ⟨-, rfl⟩ <;> cases hrole
  · rintro ⟨hnodup, hnone⟩ ⟨r, t⟩ hx
    have hinj : ∀ s, (r, s) ∈ p.opened → (r, t) = (r, s) := fun s hs =>
      List.inj_on_of_nodup_map hnodup hx hs rfl
    cases r with
    | listener =>
      obtain ⟨hvalid, hmem⟩ := hp.server.mem hx
      exact mem_sockets.mpr (Or.inl ⟨hvalid, hinj _ hmem⟩)
    | client =>
      obtain ⟨hvalid, hmem⟩ := hp.client.mem hx
      exact mem_sockets.mpr (Or.inr ⟨hvalid, hinj _ hmem⟩)
    | accepted => exact absurd (List.mem_map_of_mem hx) hnone

/-- No socket is closed twice. -/
theorem Ledger.nodup_closing (hp : Ledger p) : (closing p).Nodup := by
  rw [closing, if_pos hp.port, List.nodup_append]
  refine ⟨?_, by simp, ?_⟩
  · have hsockets : p.world.sockets.Nodup := List.Nodup.of_map _ (nodup_sockets p.world)
    refine hsockets.map_on fun x hx y hy heq => ?_
    exact List.inj_on_of_nodup_map hp.nodup (hp.sockets_subset x hx) (hp.sockets_subset y hy)
      (Resource.socket.inj heq)
  · intro r hr r' hr' heq
    obtain ⟨x, -, rfl⟩ := List.mem_map.mp hr
    subst heq
    simp at hr'

/-- What is closed is what was acquired exactly when the backend knows of all sockets. -/
theorem Ledger.closing_iff (hp : Ledger p) :
    (∀ r, r ∈ closing p ↔ r ∈ p.acquired.toFinset) ↔ ∀ x ∈ p.opened, x ∈ p.world.sockets := by
  rw [closing, if_pos hp.port]
  constructor
  · intro hsame x hx
    have hacquired : Resource.socket x.2 ∈ p.acquired.toFinset := by
      rw [List.mem_toFinset, Process.acquired, List.mem_append]
      exact Or.inl (List.mem_map_of_mem hx)
    rcases List.mem_append.mp ((hsame _).mpr hacquired) with hmem | hmem
    · obtain ⟨y, hy, heq⟩ := List.mem_map.mp hmem
      have hyx : y = x :=
        List.inj_on_of_nodup_map hp.nodup (hp.sockets_subset y hy) hx (Resource.socket.inj heq)
      exact hyx ▸ hy
    · simp at hmem
  · intro hall r
    rw [List.mem_toFinset, Process.acquired, List.mem_append, List.mem_append]
    refine or_congr_left ?_
    rw [List.mem_map, List.mem_map]
    constructor
    · rintro ⟨x, hx, hr⟩
      exact ⟨x, hp.sockets_subset x hx, hr⟩
    · rintro ⟨x, hx, hr⟩
      exact ⟨x, hall x hx, hr⟩

/-- The cleanup gives back everything that was acquired, once, exactly when at most one server was started,
    at most one connection was opened and none was accepted. -/
theorem cleanup_gives_back_iff (hstart : Initialised p₀) (hrun : Process.machine.run p₀ as = some p)
    (hexit : p.world.exited = false) :
    Settled (proactorTcpIocpCleanup p).moves ↔ p.roles.Nodup ∧ .accepted ∉ p.roles := by
  have hp := run_ledger hstart hrun hexit
  rw [proactorTcpIocpCleanup, settled_releaseAll_iff _ hp.held, and_iff_right hp.nodup_closing,
    hp.closing_iff, hp.sockets_iff]

/-- A server that accepts a connection. -/
def acceptOnce : List Action :=
  [.startServer 502 ⟨6, true, true, true⟩, .arrive 6 none, .run, .test, .dequeue ⟨7, true⟩ ⟨none, .failed⟩]

/-- The accepted connection is not given back. -/
theorem cleanup_gives_back_iff_acceptOnce : ∃ p₀ p, Initialised p₀ ∧
    Process.machine.run p₀ acceptOnce = some p ∧ .accepted ∈ p.roles ∧
    (Settled (proactorTcpIocpCleanup p).moves ↔ p.roles.Nodup ∧ .accepted ∉ p.roles) := by
  have hstart : Initialised (proactorTcpIocpInit ⟨true, 4⟩ {}) := ⟨_, rfl, rfl⟩
  have hsome : (Process.machine.run (proactorTcpIocpInit ⟨true, 4⟩ {}) acceptOnce).isSome = true := rfl
  have hrun := (Option.some_get hsome).symm
  have haccepted : .accepted ∈ [Role.accepted, .listener] := List.mem_cons_self ..
  exact ⟨_, _, hstart, hrun, haccepted, cleanup_gives_back_iff hstart hrun rfl⟩

end Cleanup

end TagSim.Iocp
