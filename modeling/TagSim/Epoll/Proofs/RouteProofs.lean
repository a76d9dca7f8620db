import TagSim.Epoll.Proofs.RegistryProofs

/-!
# Events and the roles of descriptors

What a descriptor is for is kept in `server_socket` and `wakeup_fds`, and every `start_server` overwrites
`server_socket`. The event of a listening socket that is not in it any more is taken for data: events are
handled by the role of their descriptor exactly as long as no such event is ready for reading.
-/

namespace TagSim.Epoll

/-- The event loop takes `ev` from its batch, and `ev` says that its descriptor is ready for reading. -/
def TakesReady (w : World) (a : Action) (ev : Event) : Prop :=
  (∃ ans, a = .event ans) ∧ w.callback = none ∧ w.batch.head? = some ev ∧ ev.events &&& EPOLLIN ≠ 0

/-- A step handles its event by the role of the descriptor, and closes no listening socket. It leaves their
    registrations alone too, unless the application sends on one or the process exits. -/
structure ByRole (K : KernelRules) (w : World) (a : Action) : Prop where
  listener : ∀ ev, TakesReady w a ev → w.kernel.files ev.fd = some .listener → route w ev = .accept
  pipe : ∀ ev, TakesReady w a ev → w.kernel.files ev.fd = some .pipeRead → route w ev = .wake
  stream : ∀ ev, TakesReady w a ev → w.kernel.files ev.fd = some .stream → route w ev = .data
  stays : ∀ w', step K w a = some w' → ∀ fd, w.kernel.files fd = some .listener →
    w'.kernel.files fd = some .listener
  interest : ∀ w', step K w a = some w' → w'.exited = false → ∀ fd, w.kernel.files fd = some .listener →
    (∀ data ans, a ≠ .send fd data ans) → w'.kernel.interest fd = w.kernel.interest fd

/-- A listening socket whose event is handled and ready for reading is the one in `server_socket`. -/
def ListenerIsServer (w : World) (a : Action) : Prop :=
  ∀ ev, TakesReady w a ev → w.kernel.files ev.fd = some .listener → ev.fd = w.serverSocket

/-- What was open is open. -/
def KeepsFiles (w w' : World) : Prop :=
  ∀ fd kind, w.kernel.files fd = some kind → w'.kernel.files fd = some kind

variable {K : KernelRules} {w₀ w w' : World} {a : Action} {as : List Action}

section Files

variable {fd : Fd} {kind : FileKind}

theorem KeepsFiles.of_eq (h : w'.kernel.files = w.kernel.files) : KeepsFiles w w' := by
  intro fd kind hfile
  rw [h]
  exact hfile

theorem KeepsFiles.of_openFile (hfresh : w.kernel.fresh fd)
    (h : w'.kernel.files = (w.kernel.openFile fd kind).files) : KeepsFiles w w' := by
  intro fd' kind' hfile
  rw [h, Kernel.files_openFile, if_neg (Kernel.ne_of_fresh hfresh hfile)]
  exact hfile

/-- `epoll_ctl` opens and closes nothing. -/
theorem epollCtl_files {op : CtlOp} {events : EventMask} {ok : Bool} {next : World → World}
    (h : epollCtl K op fd events ok next w = some w') (hnext : ∀ v, (next v).kernel = v.kernel) :
    w'.kernel.files = w.kernel.files := by
  rcases epollCtl_cases h with ⟨-, rfl⟩ | ⟨-, rfl⟩
  · rw [hnext]
    exact Kernel.files_ctl ..
  · rfl

theorem startServer_files {port : UInt16} {ans : StartServerAnswers}
    (h : proactorTcpEpollStartServer K port ans w = some w') : KeepsFiles w w' := by
  unfold proactorTcpEpollStartServer at h
  split_ifs at h with hs hfresh hb hl
  · obtain rfl := Option.some.inj h
    exact .of_eq rfl
  · obtain rfl := Option.some.inj h
    exact .of_openFile hfresh rfl
  · obtain rfl := Option.some.inj h
    exact .of_openFile hfresh rfl
  · exact .of_openFile hfresh (epollCtl_files h fun _ => rfl)

theorem connect_files {address : String} {port : UInt16} {ans : ConnectAnswers}
    (h : proactorTcpEpollConnect K address port ans w = some w') : KeepsFiles w w' := by
  unfold proactorTcpEpollConnect at h
  split_ifs at h with hs hfresh hc
  · obtain rfl := Option.some.inj h
    exact .of_eq rfl
  · obtain rfl := Option.some.inj h
    exact .of_openFile hfresh rfl
  · exact .of_openFile hfresh (epollCtl_files h fun _ => rfl)

theorem send_files {socket : Fd} {data : List Byte} {ans : SendAnswers}
    (h : proactorTcpEpollSend K socket data ans w = some w') : KeepsFiles w w' := by
  unfold proactorTcpEpollSend at h
  split_ifs at h
  · obtain rfl := Option.some.inj h
    exact .of_eq rfl
  · obtain rfl := Option.some.inj h
    exact .of_eq rfl
  · obtain rfl := Option.some.inj h
    exact .of_eq rfl
  · have hfiles := epollCtl_files h fun _ => rfl
    exact .of_eq hfiles

theorem acceptEvent_files {client : Fd} {ctl : Bool} (h : handleAcceptEvent K fd client ctl w = some w') :
    KeepsFiles w w' := by
  unfold handleAcceptEvent at h
  split_ifs at h with hneg hfresh
  · obtain rfl := Option.some.inj h
    exact .of_eq rfl
  · cases hfunc : w.acceptCallback with
    | none =>
      simp only [World.openFile, hfunc] at h
      exact .of_openFile hfresh (epollCtl_files h fun _ => rfl)
    | some func =>
      simp only [World.openFile, hfunc] at h
      obtain rfl := Option.some.inj h
      exact .of_openFile hfresh rfl

theorem writeEvent_files {bytesSent : Int} (h : handleWriteEvent fd bytesSent w = some w') :
    KeepsFiles w w' := by
  unfold handleWriteEvent at h
  cases hreq : w.currentSendRequest with
  | none =>
    simp only [hreq] at h
    obtain rfl := Option.some.inj h
    exact .of_eq rfl
  | some req =>
    simp only [hreq] at h
    split_ifs at h
    · obtain rfl := Option.some.inj h
      exact .of_eq rfl
    · split at h
      all_goals
        obtain rfl := Option.some.inj h
        exact .of_eq rfl
    · obtain rfl := Option.some.inj h
      exact .of_eq rfl

/-- `handle_data_event` closes nothing but its own descriptor. -/
theorem dataEvent_files {bytesRead : Option (List Byte)} {ctl : Bool}
    (h : handleDataEvent K fd bytesRead ctl w = some w') (fd' : Fd) (hne : fd' ≠ fd) :
    w'.kernel.files fd' = w.kernel.files fd' := by
  have hclosed : ∀ v : World, v.kernel = w.kernel →
      epollCtl K .del fd (EPOLLIN ||| EPOLLOUT) ctl id (v.closeFile fd) = some w' →
      w'.kernel.files fd' = w.kernel.files fd' := by
    intro v hv hctl
    have hfiles : (v.closeFile fd).kernel.files fd' = v.kernel.files fd' := by
      rw [World.closeFile, Kernel.files_closeFile, if_neg hne]
    rw [epollCtl_files hctl fun _ => rfl, hfiles, hv]
  unfold handleDataEvent at h
  cases hread : bytesRead with
  | none =>
    rw [hread] at h
    exact hclosed ((w.log (.read fd (-1))).log (.perror "read")) rfl h
  | some buf =>
    rw [hread] at h
    cases buf with
    | nil => exact hclosed (w.log (.read fd 0)) rfl h
    | cons b bs =>
      simp only at h
      split_ifs at h
      split at h
      all_goals
        obtain rfl := Option.some.inj h
        rfl

theorem waitEvents_files {ans : WaitAnswer} (h : waitEvents K ans w = some w') :
    w'.kernel.files = w.kernel.files := by
  unfold waitEvents at h
  by_cases hstop : w.stop = true
  · rw [if_pos hstop] at h
    obtain rfl := Option.some.inj h
    rfl
  · rw [if_neg hstop] at h
    cases ans with
    | interrupted =>
      obtain rfl := Option.some.inj h
      rfl
    | events | failed =>
      simp only at h
      split_ifs at h
      obtain rfl := Option.some.inj h
      rfl

/-- A step leaves every open descriptor open, or it is the one of an event that is taken for data. -/
theorem step_files (h : step K w a = some w') :
    KeepsFiles w w' ∨ ∃ ans ev rest, a = .event ans ∧ Dispatches w ev rest .data ∧
      ∀ fd, fd ≠ ev.fd → w'.kernel.files fd = w.kernel.files fd := by
  have hrunning := (step_outcome h).1
  unfold step at h
  rw [if_neg (by simp [hrunning])] at h
  cases a with
  | startServer port ans => exact Or.inl (startServer_files h)
  | connect address port ans => exact Or.inl (connect_files h)
  | send socket data ans =>
    simp only at h
    split_ifs at h
    exact Or.inl (send_files h)
  | setReceiveCallback | setSendCompleteCallback | setAcceptCallback =>
    obtain rfl := Option.some.inj h
    exact Or.inl (.of_eq rfl)
  | wake ret =>
    obtain rfl := Option.some.inj h
    rcases wake_cases ret w with hw | hw
    all_goals
      rw [hw]
      exact Or.inl (.of_eq rfl)
  | stop ret =>
    obtain rfl := Option.some.inj h
    rcases wake_cases ret { w with stop := true } with hw | hw
    all_goals
      rw [proactorTcpEpollStop, hw]
      exact Or.inl (.of_eq rfl)
  | run =>
    simp only at h
    split_ifs at h
    obtain rfl := Option.some.inj h
    exact Or.inl (.of_eq rfl)
  | wait ans =>
    simp only at h
    split_ifs at h
    exact Or.inl (.of_eq (waitEvents_files h))
  | event ans =>
    simp only at h
    split at h
    · next ev rest hcb hbatch =>
      have hsame : route { w with batch := rest } ev = route w ev := rfl
      unfold handleEvent at h
      rw [hsame] at h
      cases hroute : route w ev with
      | wake | ignored =>
        rw [hroute] at h
        obtain rfl := Option.some.inj h
        exact Or.inl (.of_eq rfl)
      | accept =>
        rw [hroute] at h
        have hkeeps := acceptEvent_files h
        exact Or.inl hkeeps
      | data =>
        rw [hroute] at h
        have hothers := dataEvent_files h
        exact Or.inr ⟨ans, ev, rest, rfl, ⟨hcb, hbatch, hroute⟩, hothers⟩
      | write =>
        rw [hroute] at h
        have hkeeps := writeEvent_files h
        exact Or.inl hkeeps
    · cases h
  | callbackReturn ctl =>
    simp only at h
    split at h
    · next cb hcb =>
      cases cb with
      | accept server client =>
        simp only [callbackReturn, registerClient] at h
        have hfiles := epollCtl_files h fun _ => rfl
        exact Or.inl (.of_eq hfiles)
      | receive fd | sendComplete fd =>
        obtain rfl := Option.some.inj h
        exact Or.inl (.of_eq rfl)
    · cases h

end Files

section Roles

variable {ev : Event}

/-- An event that is taken for data is ready for reading. -/
theorem TakesReady.of_dispatches {ans : EventAnswers} {rest : List Event} (hev : Dispatches w ev rest .data) :
    TakesReady w (.event ans) ev := by
  have hroute := hev.route
  unfold route at hroute
  split_ifs at hroute with hwake hserver hready
  exact ⟨⟨ans, rfl⟩, hev.callback, by rw [hev.batch]; rfl, hready⟩

/-- The event of a descriptor that is neither the wake pipe's nor in `server_socket` is taken for data when it
    is ready for reading. -/
theorem route_data (hready : ev.events &&& EPOLLIN ≠ 0) (hwake : ev.fd ≠ w.wakeupFds.1)
    (hserver : ev.fd ≠ w.serverSocket) : route w ev = .data := by
  rw [route, if_neg hwake, if_neg hserver, if_pos hready]

theorem Registry.ne_wake (h : Registry w) {fd : Fd} {kind : FileKind} (hfile : w.kernel.files fd = some kind)
    (hkind : kind ≠ .pipeRead) : fd ≠ w.wakeupFds.1 := by
  intro hfd
  rw [(h.pipeRead fd).mpr hfd] at hfile
  exact hkind (Option.some.inj hfile).symm

theorem Registry.stream_ne_server (h : Registry w) {fd : Fd} (hfile : w.kernel.files fd = some .stream) :
    fd ≠ w.serverSocket := by
  rintro rfl
  rcases h.server with hnone | hlistener
  · have hpos : 0 ≤ w.serverSocket := h.nonneg _ _ hfile nofun
    rw [hnone] at hpos
    exact absurd hpos (by decide)
  · rw [hlistener] at hfile
    cases hfile

/-- A listening socket is handled as one exactly when it is in `server_socket`. -/
theorem Registry.route_listener (h : Registry w) (hfile : w.kernel.files ev.fd = some .listener) :
    route w ev = .accept ↔ ev.fd = w.serverSocket := by
  have hwake := h.ne_wake hfile nofun
  constructor
  · intro hroute
    by_contra hserver
    rw [route, if_neg hwake, if_neg hserver] at hroute
    split_ifs at hroute
  · intro hserver
    rw [route, if_neg hwake, if_pos hserver]

/-- What is registered for a listening socket changes only when it is closed or sent on. -/
theorem KernelOutcome.interest_listener (hs : KernelOutcome K w a w') (h : Registry w)
    (hexit : w'.exited = false) {fd : Fd} (hfile : w.kernel.files fd = some .listener)
    (hstays : w'.kernel.files fd = some .listener) (hsend : ∀ data ans, a ≠ .send fd data ans) :
    w'.kernel.interest fd = w.kernel.interest fd := by
  cases hs with
  | quiet hkeeps hserver hkernel => rw [hkernel]
  | registers fd' kind mask pre hkeeps hcb hkind hfresh hctl hkernel =>
    rw [hkernel, Kernel.interest_add, if_neg (Kernel.ne_of_fresh hfresh hfile), Kernel.interest_openFile]
  | accepts server client o hkeeps hserver hcb hfresh hkernel => rw [hkernel, Kernel.interest_openFile]
  | returns server client hkeeps hserver hcb hcb' hctl hkernel =>
    have hne : fd ≠ client := by
      rintro rfl
      rw [(h.accepting server fd hcb).1] at hfile
      cases hfile
    rw [hkernel, Kernel.interest_add, if_neg hne]
  | mods socket data ans ha hkeeps hserver hcb hidle hmalloc hctl hkernel =>
    have hne : fd ≠ socket := by
      rintro rfl
      exact hsend data ans ha
    rw [hkernel, Kernel.interest_mod, if_neg hne]
  | closes ev rest pre hkeeps hserver hev hbatch hcb hctl hkernel =>
    have hne : fd ≠ ev.fd := by
      rintro rfl
      rw [hkernel, Kernel.files_ctl, Kernel.files_closeFile, if_pos rfl] at hstays
      cases hstays
    rw [hkernel, Kernel.interest_del, if_neg hne, Kernel.interest_closeFile, if_neg hne]
  | waits evs hwait hw' => rw [hw']
  | exit hexit' =>
    rw [hexit] at hexit'
    cases hexit'

/-- A step goes by the roles of descriptors exactly when it takes no ready event of a listening socket that is
    not in `server_socket`. -/
theorem byRole_step (h : Registry w) : ByRole K w a ↔ ListenerIsServer w a := by
  constructor
  · intro hrole ev htakes hfile
    exact (h.route_listener hfile).mp (hrole.listener ev htakes hfile)
  · intro hserver
    -- no listening socket is taken for data
    have hstays : ∀ v, step K w a = some v → ∀ fd, w.kernel.files fd = some .listener →
        v.kernel.files fd = some .listener := by
      intro v hv fd hfile
      rcases step_files hv with hkeeps | ⟨ans, ev, rest, rfl, hev, hothers⟩
      · exact hkeeps fd _ hfile
      · have hne : fd ≠ ev.fd := by
          rintro rfl
          have haccept := (h.route_listener hfile).mpr (hserver ev (.of_dispatches hev) hfile)
          rw [hev.route] at haccept
          cases haccept
        rw [hothers fd hne]
        exact hfile
    refine ⟨fun ev htakes hfile => (h.route_listener hfile).mpr (hserver ev htakes hfile), ?_, ?_, hstays, ?_⟩
    · intro ev _ hfile
      rw [route, if_pos ((h.pipeRead _).mp hfile)]
    · intro ev htakes hfile
      exact route_data htakes.2.2.2 (h.ne_wake hfile nofun) (h.stream_ne_server hfile)
    · intro v hv hexit fd hfile hsend
      have hout := step_kernelOutcome (show (machine K).step w a = some v from hv)
      exact hout.interest_listener h hexit hfile (hstays v hv fd hfile) hsend

end Roles

section Run

/-- Along a run every event is handled by the role of its descriptor, and every listening socket stays, exactly
    when each read-ready event of a listening socket is one of the socket in `server_socket`. -/
theorem byRole_iff (hK : K.Strict) (hstart : Started K w₀) (hrun : (machine K).run w₀ as = some w) :
    (machine K).AllSteps (ByRole K) w₀ as ↔ (machine K).AllSteps ListenerIsServer w₀ as := by
  have hJ : ∀ s a s', (s.exited = false → Registry s) → (machine K).step s a = some s' →
      s'.exited = false → Registry s' := fun s a s' hs ha => step_registry hK hs ha
  refine Machine.allSteps_congr hJ ?_ (started_registry hstart) hrun
  intro s a s' hs ha
  have hrunning : s.exited = false := (step_outcome ha).1
  exact byRole_step (hs hrunning)

/-- A server to which one peer connects. -/
def oneServer : List Action :=
  [.startServer 502 ⟨6, true, true, true⟩, .run, .wait (.events [⟨6, EPOLLIN⟩])]

/-- A server is started on a second port, and a peer connects to the first one. -/
def twoPorts : List Action :=
  [.startServer 502 ⟨6, true, true, true⟩, .startServer 503 ⟨7, true, true, true⟩, .run,
    .wait (.events [⟨6, EPOLLIN⟩])]

theorem oneServer_byRole : (machine documented).AllSteps (ByRole documented) stdioStart
    (oneServer ++ [.event { accept := 7 }]) := by
  have hsome : ((machine documented).run stdioStart oneServer).isSome = true := rfl
  have haccept : ((machine documented).run stdioStart (oneServer ++ [.event { accept := 7 }])).isSome = true :=
    rfl
  have hbefore : ∀ a ∈ oneServer, ∀ v, ListenerIsServer v a := by
    rintro a ha v ev ⟨⟨ans, rfl⟩, -⟩
    simp [oneServer] at ha
  refine (byRole_iff documented_strict stdioStart_documented (Option.some_get haccept).symm).mpr ?_
  refine (Machine.allSteps_append (Option.some_get hsome).symm).mpr ⟨Machine.allSteps_of_forall hbefore _, ?_⟩
  refine ⟨?_, fun _ _ => trivial⟩
  rintro ev ⟨-, -, hev, -⟩ -
  obtain rfl := Option.some.inj hev
  rfl

/-- The first listening socket is read from. -/
theorem twoPorts_not_byRole : ¬ ∀ w₀ as w, Started documented w₀ → (machine documented).run w₀ as = some w →
    (machine documented).AllSteps (ByRole documented) w₀ as := by
  intro h
  have hsome : ((machine documented).run stdioStart twoPorts).isSome = true := rfl
  have hread : ((machine documented).run stdioStart
      (twoPorts ++ [.event { read := none, ctl := false }])).isSome = true := rfl
  have hall := h _ _ _ stdioStart_documented (Option.some_get hread).symm
  have hlast := ((Machine.allSteps_append (Option.some_get hsome).symm).mp hall).2.1
  have hroute : Route.data = .accept := hlast.listener ⟨6, EPOLLIN⟩ ⟨⟨_, rfl⟩, rfl, rfl, by decide⟩ rfl
  cases hroute

end Run

end TagSim.Epoll
