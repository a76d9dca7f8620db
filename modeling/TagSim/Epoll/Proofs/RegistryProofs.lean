import TagSim.Epoll.Proofs.HistoryProofs
import TagSim.Epoll.Proofs.KernelProofs
import TagSim.Epoll.Proofs.StepProofs

/-!
# The descriptors of the backend

`KernelOutcome` sums up what a step does to the descriptor table and the interest list. `Registry` is the
invariant of all runs: which files the descriptors in the static variables refer to, that only open
listeners, connections and the wake pipe are registered, and that the descriptors in the hands of the
event loop and of a callback are what they were reported as.
-/

namespace TagSim.Epoll

/-- Some inert observations were made. -/
def Adds (w w' : World) : Prop := ∃ pre, (∀ o ∈ pre, o.Inert) ∧ w'.history = pre ++ w.history

/-- The variables that only `proactor_tcp_epoll_init` sets, and those of the batch. -/
structure Keeps (w w' : World) : Prop where
  epollFd : w'.epollFd = w.epollFd
  wakeupFds : w'.wakeupFds = w.wakeupFds
  batch : w'.batch <:+ w.batch

/-- The outcomes of a step on the kernel. -/
inductive KernelOutcome (K : KernelRules) (w : World) (a : Action) (w' : World) : Prop
  | quiet (hkeeps : Keeps w w') (hserver : w'.serverSocket = w.serverSocket)
      (hkernel : w'.kernel = w.kernel) (hadds : Adds w w')
      (haccept : ∀ server client, w'.callback = some (.accept server client) →
        w.callback = some (.accept server client))
      (hreceive : ∀ fd, w'.callback = some (.receive fd) →
        w.callback = some (.receive fd) ∨ ∃ ev ∈ w.batch, ev.fd = fd)
  | registers (fd kind mask) (pre : List Obs) (hkeeps : Keeps w w') (hcb : w'.callback = w.callback)
      (hkind : kind = .listener ∧ mask = EPOLLIN ∧ w'.serverSocket = fd ∨
        kind = .stream ∧ mask = EPOLLIN ||| EPOLLOUT ∧ w'.serverSocket = w.serverSocket)
      (hfresh : w.kernel.fresh fd) (hctl : K.ctl (w.kernel.openFile fd kind) .add fd true)
      (hkernel : w'.kernel = (w.kernel.openFile fd kind).ctl .add fd mask)
      (hpre : ∀ o ∈ pre, o.Inert)
      (hhist : w'.history = .ctl .add fd mask true :: (pre ++ .opened fd kind :: w.history))
  | accepts (server client) (o : Obs) (hkeeps : Keeps w w') (hserver : w'.serverSocket = w.serverSocket)
      (hcb : w'.callback = some (.accept server client)) (hfresh : w.kernel.fresh client)
      (hkernel : w'.kernel = w.kernel.openFile client .stream)
      (ho : o.Inert) (hhist : w'.history = o :: .opened client .stream :: w.history)
  | returns (server client) (hkeeps : Keeps w w') (hserver : w'.serverSocket = w.serverSocket)
      (hcb : w.callback = some (.accept server client)) (hcb' : w'.callback = none)
      (hctl : K.ctl w.kernel .add client true)
      (hkernel : w'.kernel = w.kernel.ctl .add client (EPOLLIN ||| EPOLLOUT))
      (hhist : w'.history = .ctl .add client (EPOLLIN ||| EPOLLOUT) true :: w.history)
  | mods (socket data) (ans : SendAnswers) (ha : a = .send socket data ans) (hkeeps : Keeps w w')
      (hserver : w'.serverSocket = w.serverSocket) (hcb : w'.callback = w.callback)
      (hidle : w.currentSendRequest = none) (hmalloc : ans.mallocRequest ∧ ans.mallocData)
      (hctl : K.ctl w.kernel .mod socket true)
      (hkernel : w'.kernel = w.kernel.ctl .mod socket EPOLLOUT)
      (hhist : w'.history = .sendReturned socket data 0 :: .ctl .mod socket EPOLLOUT true :: w.history)
  | closes (ev rest) (pre : List Obs) (hkeeps : Keeps w w') (hserver : w'.serverSocket = w.serverSocket)
      (hev : Dispatches w ev rest .data) (hbatch : w'.batch = rest) (hcb : w'.callback = none)
      (hctl : K.ctl (w.kernel.closeFile ev.fd) .del ev.fd true)
      (hkernel : w'.kernel = (w.kernel.closeFile ev.fd).ctl .del ev.fd (EPOLLIN ||| EPOLLOUT))
      (hpre : ∀ o ∈ pre, o.Inert)
      (hhist : w'.history = .ctl .del ev.fd (EPOLLIN ||| EPOLLOUT) true :: .closed ev.fd ::
        (pre ++ w.history))
  | waits (evs) (hwait : K.wait w.kernel evs) (hw' : w' = { w with batch := evs })
  | exit (hexit : w'.exited = true)

section Outcomes

variable {K : KernelRules} {w w' : World} {a : Action} {ev : Event} {rest : List Event} {r : Route}

theorem Keeps.refl_of_eq (he : w'.epollFd = w.epollFd) (hw : w'.wakeupFds = w.wakeupFds)
    (hb : w'.batch = w.batch) : Keeps w w' :=
  ⟨he, hw, by rw [hb]⟩

theorem Keeps.of_event (hev : Dispatches w ev rest r) (he : w'.epollFd = w.epollFd)
    (hw : w'.wakeupFds = w.wakeupFds) (hb : w'.batch = rest) : Keeps w w' :=
  ⟨he, hw, by rw [hev.batch, hb]; exact List.suffix_cons ev rest⟩

theorem Dispatches.mem (hev : Dispatches w ev rest r) : ev ∈ w.batch := by
  rw [hev.batch]
  exact List.mem_cons_self ..

/-- A call of the application that leaves the kernel, the descriptors and the callback being executed. -/
theorem KernelOutcome.of_call (hkeeps : Keeps w w') (hserver : w'.serverSocket = w.serverSocket)
    (hkernel : w'.kernel = w.kernel) (hcb : w'.callback = w.callback) (hadds : Adds w w') :
    KernelOutcome K w a w' :=
  .quiet hkeeps hserver hkernel hadds (fun _ _ h => hcb ▸ h) fun _ h => Or.inl (hcb ▸ h)

/-- An event that leaves the kernel and the descriptors, and calls no callback but the receive or the
    send-complete callback. -/
theorem KernelOutcome.of_event (hev : Dispatches w ev rest r) (hkeeps : Keeps w w')
    (hserver : w'.serverSocket = w.serverSocket) (hkernel : w'.kernel = w.kernel)
    (hcb : w'.callback = none ∨ w'.callback = some (.receive ev.fd) ∨
      w'.callback = some (.sendComplete ev.fd)) (hadds : Adds w w') : KernelOutcome K w a w' := by
  refine .quiet hkeeps hserver hkernel hadds ?_ ?_
  · intro server client h
    rcases hcb with hcb | hcb | hcb
    all_goals
      rw [hcb] at h
      cases h
  · intro fd h
    rcases hcb with hcb | hcb | hcb
    · rw [hcb] at h
      cases h
    · rw [hcb] at h
      cases h
      exact Or.inr ⟨ev, hev.mem, rfl⟩
    · rw [hcb] at h
      cases h

/-- What a step does to the kernel. -/
theorem Outcome.kernelOutcome (h : Outcome K w a w') : KernelOutcome K w a w' := by
  cases h with
  | startServer port ans hfresh hctl =>
    exact .registers ans.socket .listener EPOLLIN [.bind ans.socket port] (.refl_of_eq rfl rfl rfl) rfl
      (Or.inl ⟨rfl, rfl, rfl⟩) hfresh hctl rfl (by simp [Obs.Inert]) rfl
  | connect address port ans hfresh hctl =>
    exact .registers ans.socket .stream (EPOLLIN ||| EPOLLOUT) [.connect ans.socket address port]
      (.refl_of_eq rfl rfl rfl) rfl (Or.inr ⟨rfl, rfl, rfl⟩) hfresh hctl rfl (by simp [Obs.Inert]) rfl
  | sendRejected socket data ans hbusy =>
    exact .of_call (.refl_of_eq rfl rfl rfl) rfl rfl rfl
      ⟨[.sendReturned socket data (-1)], by simp [Obs.Inert], rfl⟩
  | sendAccepted socket data ans hidle hlen hmalloc hctl =>
    exact .mods socket data ans rfl (.refl_of_eq rfl rfl rfl) rfl rfl hidle hmalloc hctl rfl rfl
  | setReceiveCallback | setAcceptCallback | run | loopEnd | interrupted =>
    exact .of_call (.refl_of_eq rfl rfl rfl) rfl rfl rfl ⟨[], by simp, rfl⟩
  | setSendCompleteCallback func userData =>
    exact .of_call (.refl_of_eq rfl rfl rfl) rfl rfl rfl ⟨[.setSendComplete func], by simp [Obs.Inert], rfl⟩
  | wake ret | stop ret =>
    exact .of_call (.refl_of_eq rfl rfl rfl) rfl rfl rfl
      ⟨[.wakeWrite w.wakeupFds.2 ret], by simp [Obs.Inert], rfl⟩
  | events evs hcb hbatch hwait => exact .waits evs hwait rfl
  | eventWake ans ev rest hev =>
    exact .of_event hev (.of_event hev rfl rfl rfl) rfl rfl (Or.inl hev.callback)
      ⟨[.wakeRead ev.fd], by simp [Obs.Inert], rfl⟩
  | acceptFailed ans ev rest hev =>
    exact .of_event hev (.of_event hev rfl rfl rfl) rfl rfl (Or.inl hev.callback)
      ⟨[.perror "accept"], by simp [Obs.Inert], rfl⟩
  | acceptCallback ans ev rest func hev hfresh =>
    exact .accepts ev.fd ans.accept (.acceptCallback func ev.fd ans.accept w.acceptCallbackUserData)
      (.of_event hev rfl rfl rfl) rfl rfl hfresh rfl trivial rfl
  | acceptRegistered ans ev rest hev hfresh hctl =>
    exact .registers ans.accept .stream (EPOLLIN ||| EPOLLOUT) [] (.of_event hev rfl rfl rfl) rfl
      (Or.inr ⟨rfl, rfl, rfl⟩) hfresh hctl rfl (by simp) rfl
  | dataEnd ans ev rest pre hev hread hpre hctl =>
    refine .closes ev rest pre (.of_event hev rfl rfl rfl) rfl hev rfl hev.callback hctl rfl ?_ rfl
    rcases hpre with rfl | rfl <;> simp [Obs.Inert]
  | dataUnread ans ev rest buf hev hread hbuf =>
    exact .of_event hev (.of_event hev rfl rfl rfl) rfl rfl (Or.inl hev.callback)
      ⟨[.read ev.fd buf.length], by simp [Obs.Inert], rfl⟩
  | dataCallback ans ev rest buf func hev hread hbuf =>
    exact .of_event hev (.of_event hev rfl rfl rfl) rfl rfl (Or.inr (Or.inl rfl))
      ⟨[.receiveCallback func ev.fd buf w.receiveCallbackUserData, .read ev.fd buf.length],
        by simp [Obs.Inert], rfl⟩
  | writeIdle ans ev rest hev | ignored ans ev rest hev =>
    exact .of_event hev (.of_event hev rfl rfl rfl) rfl rfl (Or.inl hev.callback) ⟨[], by simp, rfl⟩
  | writeFailed ans ev rest req hev hreq hret =>
    exact .of_event hev (.of_event hev rfl rfl rfl) rfl rfl (Or.inl hev.callback)
      ⟨[.perror "write", .write ev.fd req.unsent (-1)], by simp [Obs.Inert], rfl⟩
  | writePartial ans ev rest req k hev | writeFinished ans ev rest req k hev =>
    exact .of_event hev (.of_event hev rfl rfl rfl) rfl rfl (Or.inl hev.callback)
      ⟨[.write ev.fd req.unsent k], by simp [Obs.Inert], rfl⟩
  | writeCallback ans ev rest req k func hev =>
    exact .of_event hev (.of_event hev rfl rfl rfl) rfl rfl (Or.inr (Or.inr rfl))
      ⟨[.sendCompleteCallback func ev.fd w.sendCompleteCallbackUserData, .write ev.fd req.unsent k],
        by simp [Obs.Inert], rfl⟩
  | returnAccept ctl server client hcb hctl =>
    exact .returns server client (.refl_of_eq rfl rfl rfl) rfl hcb rfl hctl rfl rfl
  | returnReceive ctl fd hcb | returnSendComplete ctl fd hcb =>
    exact .quiet (.refl_of_eq rfl rfl rfl) rfl rfl ⟨[], by simp, rfl⟩ nofun nofun
  | exit a w' hcan hexit hsilent => exact .exit hexit

theorem step_kernelOutcome (h : (machine K).step w a = some w') : KernelOutcome K w a w' :=
  (step_outcome h).2.kernelOutcome

end Outcomes

/-- What the descriptors of a running backend refer to. -/
structure Registry (w : World) : Prop where
  epoll : ∀ fd, w.kernel.files fd = some .epoll ↔ fd = w.epollFd
  pipeRead : ∀ fd, w.kernel.files fd = some .pipeRead ↔ fd = w.wakeupFds.1
  pipeWrite : ∀ fd, w.kernel.files fd = some .pipeWrite ↔ fd = w.wakeupFds.2
  nonneg : ∀ fd kind, w.kernel.files fd = some kind → kind ≠ .foreign → 0 ≤ fd
  server : w.serverSocket = -1 ∨ w.kernel.files w.serverSocket = some .listener
  registered : ∀ fd, (w.kernel.interest fd).isSome →
    fd = w.wakeupFds.1 ∨ w.kernel.files fd = some .listener ∨ w.kernel.files fd = some .stream
  batch : ∀ ev ∈ w.batch, (w.kernel.interest ev.fd).isSome
  nodup : (w.batch.map Event.fd).Nodup
  accepting : ∀ server client, w.callback = some (.accept server client) →
    w.kernel.files client = some .stream ∧ w.kernel.interest client = none
  receiving : ∀ fd, w.callback = some (.receive fd) → (w.kernel.interest fd).isSome
  ctls : ∀ op fd events ok, Obs.ctl op fd events ok ∈ w.history → ok = true

namespace Registry

variable {K : KernelRules} {w w' : World} {a : Action}

/-- Only open descriptors are registered. -/
theorem isOpen (h : Registry w) {fd : Fd} (hfd : (w.kernel.interest fd).isSome) :
    (w.kernel.files fd).isSome := by
  rcases h.registered fd hfd with rfl | hfile | hfile
  · rw [(h.pipeRead _).mpr rfl]; rfl
  · rw [hfile]; rfl
  · rw [hfile]; rfl

theorem interest_of_fresh (h : Registry w) {fd : Fd} (hfresh : w.kernel.fresh fd) :
    w.kernel.interest fd = none := by
  rw [← Option.not_isSome_iff_eq_none]
  intro hfd
  have hopen := h.isOpen hfd
  rw [Kernel.files_of_fresh hfresh] at hopen
  cases hopen

/-- A descriptor that an event sends to `handle_data_event` is an open listener or connection, and not the
    one in `server_socket`. -/
theorem of_data (h : Registry w) {ev : Event} {rest : List Event} (hev : Dispatches w ev rest .data) :
    ev.fd ≠ w.serverSocket ∧
      (w.kernel.files ev.fd = some .listener ∨ w.kernel.files ev.fd = some .stream) := by
  have hroute := hev.route
  unfold route at hroute
  split_ifs at hroute with hwake hserver hin
  refine ⟨hserver, ?_⟩
  rcases h.registered ev.fd (h.batch ev hev.mem) with hfd | hfile
  · exact absurd hfd hwake
  · exact hfile

theorem ctls_cons {h : List Obs} (hc : ∀ op fd events ok, Obs.ctl op fd events ok ∈ h → ok = true)
    (op : CtlOp) (fd : Fd) (events : EventMask) :
    ∀ op' fd' events' ok, Obs.ctl op' fd' events' ok ∈ .ctl op fd events true :: h → ok = true := by
  intro op' fd' events' ok hmem
  rcases List.mem_cons.mp hmem with heq | hmem
  · cases heq
    rfl
  · exact hc op' fd' events' ok hmem

theorem ctls_append {h pre : List Obs} (hpre : ∀ o ∈ pre, o.Inert)
    (hc : ∀ op fd events ok, Obs.ctl op fd events ok ∈ h → ok = true) :
    ∀ op fd events ok, Obs.ctl op fd events ok ∈ pre ++ h → ok = true := by
  intro op fd events ok hmem
  rcases List.mem_append.mp hmem with hmem | hmem
  · exact (hpre _ hmem).elim
  · exact hc op fd events ok hmem

theorem nodup_of_suffix (h : Registry w) (hb : w'.batch <:+ w.batch) : (w'.batch.map Event.fd).Nodup :=
  h.nodup.sublist (hb.sublist.map Event.fd)

/-- A new descriptor is opened, which is neither registered yet nor one that is known already. -/
theorem opens (h : Registry w) {fd : Fd} {kind : FileKind} (hfresh : w.kernel.fresh fd)
    (hkind : kind = .listener ∨ kind = .stream) {k : Kernel} (hk : k = w.kernel.openFile fd kind) :
    (∀ fd', k.files fd' = some .epoll ↔ fd' = w.epollFd) ∧
    (∀ fd', k.files fd' = some .pipeRead ↔ fd' = w.wakeupFds.1) ∧
    (∀ fd', k.files fd' = some .pipeWrite ↔ fd' = w.wakeupFds.2) ∧
    (∀ fd', (w.kernel.interest fd').isSome →
      fd' = w.wakeupFds.1 ∨ k.files fd' = some .listener ∨ k.files fd' = some .stream) ∧
    (∀ fd' kind', k.files fd' = some kind' → kind' ≠ .foreign → 0 ≤ fd') ∧
    ∀ fd' kind', w.kernel.files fd' = some kind' → k.files fd' = some kind' := by
  have hne : kind ≠ .epoll ∧ kind ≠ .pipeRead ∧ kind ≠ .pipeWrite := by
    rcases hkind with rfl | rfl <;> exact ⟨nofun, nofun, nofun⟩
  have hold : ∀ fd' kind', w.kernel.files fd' = some kind' → k.files fd' = some kind' := by
    intro fd' kind' hfile
    rw [hk, Kernel.files_openFile, if_neg (Kernel.ne_of_fresh hfresh hfile)]
    exact hfile
  refine ⟨fun fd' => ?_, fun fd' => ?_, fun fd' => ?_, fun fd' hfd' => ?_, fun fd' kind' hk' hne' => ?_, hold⟩
  · rw [hk, Kernel.files_openFile_iff hfresh hne.1]
    exact h.epoll fd'
  · rw [hk, Kernel.files_openFile_iff hfresh hne.2.1]
    exact h.pipeRead fd'
  · rw [hk, Kernel.files_openFile_iff hfresh hne.2.2]
    exact h.pipeWrite fd'
  · exact (h.registered fd' hfd').imp_right (Or.imp (hold _ _) (hold _ _))
  · rw [hk, Kernel.files_openFile] at hk'
    split_ifs at hk' with heq
    · exact heq ▸ Kernel.nonneg_of_fresh hfresh
    · exact h.nonneg fd' kind' hk' hne'

theorem quiet (h : Registry w) (hkeeps : Keeps w w') (hserver : w'.serverSocket = w.serverSocket)
    (hkernel : w'.kernel = w.kernel) (hadds : Adds w w')
    (haccept : ∀ server client, w'.callback = some (.accept server client) →
      w.callback = some (.accept server client))
    (hreceive : ∀ fd, w'.callback = some (.receive fd) →
      w.callback = some (.receive fd) ∨ ∃ ev ∈ w.batch, ev.fd = fd) : Registry w' := by
  obtain ⟨pre, hpre, hhist⟩ := hadds
  exact
    { epoll := by rw [hkernel, hkeeps.epollFd]; exact h.epoll
      pipeRead := by rw [hkernel, hkeeps.wakeupFds]; exact h.pipeRead
      pipeWrite := by rw [hkernel, hkeeps.wakeupFds]; exact h.pipeWrite
      nonneg := by rw [hkernel]; exact h.nonneg
      server := by rw [hkernel, hserver]; exact h.server
      registered := by rw [hkernel, hkeeps.wakeupFds]; exact h.registered
      batch := fun ev hev => by rw [hkernel]; exact h.batch ev (hkeeps.batch.subset hev)
      nodup := h.nodup_of_suffix hkeeps.batch
      accepting := fun server client hcb => by rw [hkernel]; exact h.accepting _ _ (haccept _ _ hcb)
      receiving := fun fd hcb => by
        rw [hkernel]
        rcases hreceive fd hcb with hcb | ⟨ev, hev, rfl⟩
        · exact h.receiving fd hcb
        · exact h.batch ev hev
      ctls := by rw [hhist]; exact ctls_append hpre h.ctls }

/-- A new listener or connection is opened and registered. -/
theorem registers (h : Registry w) {fd : Fd} {kind : FileKind} {mask : EventMask} {pre : List Obs}
    (hkeeps : Keeps w w') (hcb : w'.callback = w.callback)
    (hkind : kind = .listener ∧ mask = EPOLLIN ∧ w'.serverSocket = fd ∨
      kind = .stream ∧ mask = EPOLLIN ||| EPOLLOUT ∧ w'.serverSocket = w.serverSocket)
    (hfresh : w.kernel.fresh fd)
    (hkernel : w'.kernel = (w.kernel.openFile fd kind).ctl .add fd mask) (hpre : ∀ o ∈ pre, o.Inert)
    (hhist : w'.history = .ctl .add fd mask true :: (pre ++ .opened fd kind :: w.history)) :
    Registry w' := by
  obtain ⟨hepoll, hread, hwrite, hreg, hnonneg, hold⟩ :=
    h.opens hfresh (hkind.imp And.left And.left) rfl
  have hnew : (w.kernel.openFile fd kind).files fd = some kind := by simp
  have hinterest : ∀ fd', (w.kernel.interest fd').isSome → (w'.kernel.interest fd').isSome := by
    intro fd' hfd'
    rw [hkernel, Kernel.interest_add, Kernel.interest_openFile]
    split
    · rfl
    · exact hfd'
  exact
    { epoll := by rw [hkernel, Kernel.files_ctl, hkeeps.epollFd]; exact hepoll
      pipeRead := by rw [hkernel, Kernel.files_ctl, hkeeps.wakeupFds]; exact hread
      pipeWrite := by rw [hkernel, Kernel.files_ctl, hkeeps.wakeupFds]; exact hwrite
      nonneg := by rw [hkernel, Kernel.files_ctl]; exact hnonneg
      server := by
        rw [hkernel, Kernel.files_ctl]
        rcases hkind with ⟨rfl, -, hs⟩ | ⟨-, -, hs⟩
        · rw [hs]
          exact Or.inr hnew
        · rw [hs]
          exact h.server.imp_right (hold _ _)
      registered := fun fd' hfd' => by
        rw [hkernel, Kernel.interest_add, Kernel.interest_openFile] at hfd'
        rw [hkernel, Kernel.files_ctl, hkeeps.wakeupFds]
        by_cases heq : fd' = fd
        · subst heq
          rw [hnew]
          rcases hkind with ⟨rfl, -⟩ | ⟨rfl, -⟩
          · exact Or.inr (Or.inl rfl)
          · exact Or.inr (Or.inr rfl)
        · rw [if_neg heq] at hfd'
          exact hreg fd' hfd'
      batch := fun ev hev => hinterest _ (h.batch ev (hkeeps.batch.subset hev))
      nodup := h.nodup_of_suffix hkeeps.batch
      accepting := fun server client hc => by
        obtain ⟨hfile, hint⟩ := h.accepting server client (hcb ▸ hc)
        rw [hkernel, Kernel.files_ctl, Kernel.interest_add, Kernel.interest_openFile,
          if_neg (Kernel.ne_of_fresh hfresh hfile)]
        exact ⟨hold _ _ hfile, hint⟩
      receiving := fun fd' hc => hinterest _ (h.receiving fd' (hcb ▸ hc))
      ctls := by
        have hopened : ∀ op fd' events ok,
            Obs.ctl op fd' events ok ∈ .opened fd kind :: w.history → ok = true := by
          intro op fd' events ok hmem
          exact h.ctls op fd' events ok (by simpa using hmem)
        rw [hhist]
        exact ctls_cons (ctls_append hpre hopened) .add fd mask }

/-- A connection is accepted and handed to the accept callback. -/
theorem accepts (h : Registry w) {server client : Fd} {o : Obs} (hkeeps : Keeps w w')
    (hserver : w'.serverSocket = w.serverSocket) (hcb : w'.callback = some (.accept server client))
    (hfresh : w.kernel.fresh client) (hkernel : w'.kernel = w.kernel.openFile client .stream)
    (ho : o.Inert) (hhist : w'.history = o :: .opened client .stream :: w.history) : Registry w' := by
  obtain ⟨hepoll, hread, hwrite, hreg, hnonneg, hold⟩ := h.opens hfresh (Or.inr rfl) rfl
  exact
    { epoll := by rw [hkernel, hkeeps.epollFd]; exact hepoll
      pipeRead := by rw [hkernel, hkeeps.wakeupFds]; exact hread
      pipeWrite := by rw [hkernel, hkeeps.wakeupFds]; exact hwrite
      nonneg := by rw [hkernel]; exact hnonneg
      server := by rw [hkernel, hserver]; exact h.server.imp_right (hold _ _)
      registered := by rw [hkernel, Kernel.interest_openFile, hkeeps.wakeupFds]; exact hreg
      batch := fun ev hev => by
        rw [hkernel, Kernel.interest_openFile]
        exact h.batch ev (hkeeps.batch.subset hev)
      nodup := h.nodup_of_suffix hkeeps.batch
      accepting := fun server' client' hc => by
        cases hcb.symm.trans hc
        rw [hkernel, Kernel.interest_openFile]
        exact ⟨by simp, h.interest_of_fresh hfresh⟩
      receiving := fun fd hc => by cases hcb.symm.trans hc
      ctls := by
        have hopened : ∀ op fd' events ok,
            Obs.ctl op fd' events ok ∈ .opened client .stream :: w.history → ok = true := by
          intro op fd' events ok hmem
          exact h.ctls op fd' events ok (by simpa using hmem)
        have hsingle : ∀ o' ∈ [o], o'.Inert := by
          intro o' ho'
          rw [List.mem_singleton.mp ho']
          exact ho
        rw [hhist]
        exact ctls_append hsingle hopened }

/-- An open connection or listener is registered, or its mask is replaced. -/
theorem updates (h : Registry w) {op : CtlOp} {fd : Fd} {mask : EventMask} (hop : op ≠ .del)
    (hopen : (w.kernel.interest fd).isSome ∨ w.kernel.files fd = some .stream) (hkeeps : Keeps w w')
    (hserver : w'.serverSocket = w.serverSocket)
    (hcb : w'.callback = none ∨ w'.callback = w.callback ∧ (w.kernel.interest fd).isSome)
    (hkernel : w'.kernel = w.kernel.ctl op fd mask)
    (hctls : ∀ op fd events ok, Obs.ctl op fd events ok ∈ w'.history → ok = true) : Registry w' := by
  have hint : ∀ fd', w'.kernel.interest fd' = if fd' = fd then some mask else w.kernel.interest fd' := by
    intro fd'
    rw [hkernel]
    cases op with
    | add => exact Kernel.interest_add ..
    | mod => exact Kernel.interest_mod ..
    | del => exact absurd rfl hop
  have hinterest : ∀ fd', (w.kernel.interest fd').isSome → (w'.kernel.interest fd').isSome := by
    intro fd' hfd'
    rw [hint]
    split
    · rfl
    · exact hfd'
  have hfiles : w'.kernel.files = w.kernel.files := by rw [hkernel, Kernel.files_ctl]
  exact
    { epoll := by rw [hfiles, hkeeps.epollFd]; exact h.epoll
      pipeRead := by rw [hfiles, hkeeps.wakeupFds]; exact h.pipeRead
      pipeWrite := by rw [hfiles, hkeeps.wakeupFds]; exact h.pipeWrite
      nonneg := by rw [hfiles]; exact h.nonneg
      server := by rw [hfiles, hserver]; exact h.server
      registered := fun fd' hfd' => by
        rw [hint] at hfd'
        rw [hfiles, hkeeps.wakeupFds]
        by_cases heq : fd' = fd
        · subst heq
          rcases hopen with hopen | hopen
          · exact h.registered fd' hopen
          · exact Or.inr (Or.inr hopen)
        · rw [if_neg heq] at hfd'
          exact h.registered fd' hfd'
      batch := fun ev hev => hinterest _ (h.batch ev (hkeeps.batch.subset hev))
      nodup := h.nodup_of_suffix hkeeps.batch
      accepting := fun server client hc => by
        rcases hcb with hcb | ⟨hcb, hreg⟩
        · cases hcb.symm.trans hc
        · obtain ⟨hfile, hnone⟩ := h.accepting server client (hcb ▸ hc)
          have hne : client ≠ fd := by
            rintro rfl
            rw [hnone] at hreg
            cases hreg
          rw [hfiles, hint, if_neg hne]
          exact ⟨hfile, hnone⟩
      receiving := fun fd' hc => by
        rcases hcb with hcb | ⟨hcb, -⟩
        · cases hcb.symm.trans hc
        · exact hinterest _ (h.receiving fd' (hcb ▸ hc))
      ctls := hctls }

/-- The connection of a data event is closed. -/
theorem closes (h : Registry w) {ev : Event} {rest : List Event} {pre : List Obs} (hkeeps : Keeps w w')
    (hserver : w'.serverSocket = w.serverSocket) (hev : Dispatches w ev rest .data)
    (hbatch : w'.batch = rest) (hcb : w'.callback = none)
    (hkernel : w'.kernel = (w.kernel.closeFile ev.fd).ctl .del ev.fd (EPOLLIN ||| EPOLLOUT))
    (hpre : ∀ o ∈ pre, o.Inert)
    (hhist : w'.history = .ctl .del ev.fd (EPOLLIN ||| EPOLLOUT) true :: .closed ev.fd ::
      (pre ++ w.history)) : Registry w' := by
  obtain ⟨hne, hkind⟩ := h.of_data hev
  have hfile : ∀ kind, kind ≠ .listener → kind ≠ .stream → w.kernel.files ev.fd ≠ some kind := by
    intro kind hl hs hk
    rcases hkind with hkind | hkind
    · exact hl (Option.some.inj (hk.symm.trans hkind))
    · exact hs (Option.some.inj (hk.symm.trans hkind))
  have hfiles : ∀ fd, fd ≠ ev.fd → w'.kernel.files fd = w.kernel.files fd := by
    intro fd hfd
    rw [hkernel, Kernel.files_ctl, Kernel.files_closeFile, if_neg hfd]
  have hint : ∀ fd, w'.kernel.interest fd = if fd = ev.fd then none else w.kernel.interest fd := by
    intro fd
    rw [hkernel, Kernel.interest_del, Kernel.interest_closeFile]
    split <;> rfl
  have hnodup := h.nodup
  rw [hev.batch, List.map_cons, List.nodup_cons] at hnodup
  exact
    { epoll := fun fd => by
        rw [hkernel, Kernel.files_ctl, Kernel.files_closeFile_iff (hfile .epoll nofun nofun), hkeeps.epollFd]
        exact h.epoll fd
      pipeRead := fun fd => by
        rw [hkernel, Kernel.files_ctl, Kernel.files_closeFile_iff (hfile .pipeRead nofun nofun),
          hkeeps.wakeupFds]
        exact h.pipeRead fd
      pipeWrite := fun fd => by
        rw [hkernel, Kernel.files_ctl, Kernel.files_closeFile_iff (hfile .pipeWrite nofun nofun),
          hkeeps.wakeupFds]
        exact h.pipeWrite fd
      nonneg := fun fd kind hk hne' => by
        rw [hkernel, Kernel.files_ctl, Kernel.files_closeFile] at hk
        split_ifs at hk
        exact h.nonneg fd kind hk hne'
      server := by
        rw [hserver, hfiles _ (Ne.symm hne)]
        exact h.server
      registered := fun fd hfd => by
        rw [hint] at hfd
        by_cases heq : fd = ev.fd
        · rw [if_pos heq] at hfd
          cases hfd
        · rw [if_neg heq] at hfd
          rw [hfiles fd heq, hkeeps.wakeupFds]
          exact h.registered fd hfd
      batch := fun ev' hev' => by
        rw [hbatch] at hev'
        have hne' : ev'.fd ≠ ev.fd := fun heq => hnodup.1 (heq ▸ List.mem_map_of_mem hev')
        rw [hint, if_neg hne']
        exact h.batch ev' (by rw [hev.batch]; exact List.mem_cons_of_mem _ hev')
      nodup := h.nodup_of_suffix hkeeps.batch
      accepting := fun server client hc => by cases hcb.symm.trans hc
      receiving := fun fd hc => by cases hcb.symm.trans hc
      ctls := by
        have hclosed : ∀ op fd events ok,
            Obs.ctl op fd events ok ∈ .closed ev.fd :: (pre ++ w.history) → ok = true := by
          intro op fd events ok hmem
          exact ctls_append hpre h.ctls op fd events ok (by simpa using hmem)
        rw [hhist]
        exact ctls_cons hclosed .del ev.fd _ }

/-- A step of a backend with a sound registry leaves a sound registry, unless the process exits. -/
theorem step (hK : K.Strict) (h : Registry w) (hs : KernelOutcome K w a w') (hexit : w'.exited = false) :
    Registry w' := by
  cases hs with
  | quiet hkeeps hserver hkernel hadds haccept hreceive =>
    exact h.quiet hkeeps hserver hkernel hadds haccept hreceive
  | registers fd kind mask pre hkeeps hcb hkind hfresh hctl hkernel hpre hhist =>
    exact h.registers hkeeps hcb hkind hfresh hkernel hpre hhist
  | accepts server client o hkeeps hserver hcb hfresh hkernel ho hhist =>
    exact h.accepts hkeeps hserver hcb hfresh hkernel ho hhist
  | returns server client hkeeps hserver hcb hcb' hctl hkernel hhist =>
    have hadd : CtlOp.add ≠ .del := nofun
    refine h.updates hadd (Or.inr (h.accepting server client hcb).1) hkeeps hserver (Or.inl hcb')
      hkernel ?_
    rw [hhist]
    exact ctls_cons h.ctls .add client _
  | mods socket data ans ha hkeeps hserver hcb hidle hmalloc hctl hkernel hhist =>
    have hmod : CtlOp.mod ≠ .del := nofun
    have hreg : (w.kernel.interest socket).isSome :=
      (Kernel.ctlLegal_mod.mp (hK.ctl _ _ _ _ hmod hctl).symm).2
    refine h.updates hmod (Or.inl hreg) hkeeps hserver (Or.inr ⟨hcb, hreg⟩) hkernel ?_
    rw [hhist]
    intro op fd events ok hmem
    exact ctls_cons h.ctls _ _ _ op fd events ok (by simpa using hmem)
  | closes ev rest pre hkeeps hserver hev hbatch hcb hctl hkernel hpre hhist =>
    exact h.closes hkeeps hserver hev hbatch hcb hkernel hpre hhist
  | waits evs hwait hw' =>
    have hlegal := hK.wait _ _ hwait
    rw [hw']
    exact { h with
      batch := fun ev hev => Kernel.interest_of_batchLegal hlegal hev
      nodup := Kernel.nodup_of_batchLegal hlegal }
  | exit hexit' => rw [hexit] at hexit'; cases hexit'

end Registry

section Start

variable {k : Kernel} {e rd wr : Fd}

/-- The descriptors after `proactor_tcp_epoll_init`. -/
theorem files_started (fd : Fd) : (started k e rd wr).kernel.files fd =
    if fd = wr then some .pipeWrite else if fd = rd then some .pipeRead
    else if fd = e then some .epoll else k.files fd := by
  simp [started]

theorem Starts.registry (h : Starts k e rd wr) : Registry (started k e rd wr) := by
  have hdistinct : e ≠ rd ∧ e ≠ wr ∧ rd ≠ wr :=
    ⟨Kernel.ne_of_fresh h.fresh_rd (by simp : _ = some FileKind.epoll),
      Kernel.ne_of_fresh h.fresh_wr (by simp : _ = some FileKind.epoll), h.ne⟩
  have hforeign : ∀ fd kind, k.files fd = some kind → kind = .foreign := by
    intro fd kind hfile
    rcases h.files fd with hnone | hsome
    · rw [hnone] at hfile
      cases hfile
    · exact Option.some.inj (hfile.symm.trans hsome)
  have hint : ∀ fd, (started k e rd wr).kernel.interest fd = if fd = rd then some EPOLLIN else none := by
    intro fd
    simp [started, h.interest]
  exact
    { epoll := fun fd => by
        rw [files_started]
        split_ifs with h1 h2 h3
        all_goals grind [started]
      pipeRead := fun fd => by
        rw [files_started]
        split_ifs with h1 h2 h3
        all_goals grind [started]
      pipeWrite := fun fd => by
        rw [files_started]
        split_ifs with h1 h2 h3
        all_goals grind [started]
      nonneg := fun fd kind hk hne => by
        rw [files_started] at hk
        split_ifs at hk with h1 h2 h3
        · exact h1 ▸ Kernel.nonneg_of_fresh h.fresh_wr
        · exact h2 ▸ Kernel.nonneg_of_fresh h.fresh_rd
        · exact h3 ▸ Kernel.nonneg_of_fresh h.fresh_e
        · exact absurd (hforeign fd kind hk) hne
      server := Or.inl rfl
      registered := fun fd hfd => by
        rw [hint] at hfd
        split_ifs at hfd with heq
        · exact Or.inl heq
        · cases hfd
      batch := nofun
      nodup := List.nodup_nil
      accepting := nofun
      receiving := nofun
      ctls := by
        intro op fd events ok hmem
        simp only [started, List.mem_cons, List.not_mem_nil, or_false, Obs.ctl.injEq] at hmem
        rcases hmem with ⟨-, -, -, hok⟩ | hmem | hmem | hmem
        · exact hok
        all_goals cases hmem }

end Start

section Run

variable {K : KernelRules} {w₀ w w' : World} {a : Action} {as : List Action}

theorem started_registry (hstart : Started K w₀) : w₀.exited = false → Registry w₀ := by
  obtain ⟨k, e, rd, wr, hk, rfl⟩ := hstart.eq_started
  exact fun _ => hk.registry

theorem step_registry (hK : K.Strict) (h : w.exited = false → Registry w)
    (ha : (machine K).step w a = some w') : w'.exited = false → Registry w' := by
  intro hexit
  have hrunning : w.exited = false := (step_outcome ha).1
  exact (h hrunning).step hK (step_kernelOutcome ha) hexit

/-- The registry is sound in every state of every run, unless the process has exited. -/
theorem run_registry (hK : K.Strict) (hstart : Started K w₀) (hrun : (machine K).run w₀ as = some w) :
    w.exited = false → Registry w :=
  Machine.run_preserves (fun _ _ _ hs ha => step_registry hK hs ha) (started_registry hstart) hrun

end Run

end TagSim.Epoll
