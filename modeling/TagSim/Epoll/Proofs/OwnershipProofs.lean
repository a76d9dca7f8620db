import TagSim.Epoll.Proofs.RegistryProofs
import TagSim.Ownership.Proofs.LedgerProofs

/-!
# Who closes the descriptors

The descriptors that the backend holds are those that are open and were not open before it started:
`Owned` relates the ledger of the history to the descriptor table. `proactor_tcp_epoll_cleanup` closes the
descriptors it finds in the static variables, which need not be those that are held.
-/

namespace TagSim.Epoll

open TagSim.Ownership

/-- The listeners and connections that are open are those in `server_socket` and `client_socket`, each in
    one of them, and `client_socket` has not been closed. -/
structure CleanupComplete (w : World) : Prop where
  kept : ∀ fd, w.kernel.files fd = some .listener ∨ w.kernel.files fd = some .stream →
    fd = w.serverSocket ∨ fd = w.clientSocket
  client : w.clientSocket = -1 ∨ w.kernel.files w.clientSocket = some .listener ∨
    w.kernel.files w.clientSocket = some .stream
  distinct : w.clientSocket = -1 ∨ w.clientSocket ≠ w.serverSocket

/-- The ledger of the history holds what is open and not foreign. -/
def Owned (w : World) : Prop :=
  ∃ s, holdings (moves w.history) = some s ∧
    ∀ fd, fd ∈ s ↔ ∃ kind, w.kernel.files fd = some kind ∧ kind ≠ .foreign

/-- The descriptors that `proactor_tcp_epoll_cleanup` closes, in order. -/
def closing (w : World) : List Fd :=
  (if w.serverSocket ≠ -1 then [w.serverSocket] else []) ++
    ((if w.clientSocket ≠ -1 then [w.clientSocket] else []) ++
      ((if w.wakeupFds.1 ≠ -1 then [w.wakeupFds.1, w.wakeupFds.2] else []) ++ [w.epollFd]))

variable {K : KernelRules} {w₀ w w' : World} {a : Action} {as : List Action}

namespace Owned

theorem of_same (h : Owned w) (hfiles : w'.kernel.files = w.kernel.files)
    (hmoves : moves w'.history = moves w.history) : Owned w' := by
  rw [Owned, hfiles, hmoves]
  exact h

theorem opens (h : Owned w) {fd : Fd} {kind : FileKind} (hfresh : w.kernel.fresh fd)
    (hkind : kind ≠ .foreign) (hfiles : ∀ fd', w'.kernel.files fd' = (w.kernel.openFile fd kind).files fd')
    (hmoves : moves w'.history = .acquire fd :: moves w.history) : Owned w' := by
  obtain ⟨s, hs, hmem⟩ := h
  have hnot : fd ∉ s := by
    intro hfd
    obtain ⟨kind', hfile, -⟩ := (hmem fd).mp hfd
    rw [Kernel.files_of_fresh hfresh] at hfile
    cases hfile
  refine ⟨insert fd s, ?_, fun fd' => ?_⟩
  · rw [hmoves]
    exact holdings_acquire hs hnot
  · rw [hfiles, Kernel.files_openFile, Finset.mem_insert]
    by_cases heq : fd' = fd
    · simp [heq, hkind]
    · simp [heq, hmem fd']

theorem closes (h : Owned w) {fd : Fd} {kind : FileKind} (hopen : w.kernel.files fd = some kind)
    (hkind : kind ≠ .foreign) (hfiles : ∀ fd', w'.kernel.files fd' = (w.kernel.closeFile fd).files fd')
    (hmoves : moves w'.history = .release fd :: moves w.history) : Owned w' := by
  obtain ⟨s, hs, hmem⟩ := h
  have hheld : fd ∈ s := (hmem fd).mpr ⟨kind, hopen, hkind⟩
  refine ⟨s.erase fd, ?_, fun fd' => ?_⟩
  · rw [hmoves]
    exact holdings_release hs hheld
  · rw [hfiles, Kernel.files_closeFile, Finset.mem_erase]
    by_cases heq : fd' = fd
    · simp [heq]
    · simp [heq, hmem fd']

/-- A step acquires what it opens and releases what it closes, and it closes only what is held. -/
theorem step (h : Owned w) (hreg : Registry w) (hs : KernelOutcome K w a w') (hexit : w'.exited = false) :
    Owned w' := by
  cases hs with
  | quiet hkeeps hserver hkernel hadds haccept hreceive =>
    obtain ⟨pre, hpre, hhist⟩ := hadds
    exact h.of_same (by rw [hkernel]) (by rw [hhist, moves_append hpre])
  | registers fd kind mask pre hkeeps hcb hkind hfresh hctl hkernel hpre hhist =>
    have hne : kind ≠ .foreign := by
      rcases hkind with ⟨rfl, -⟩ | ⟨rfl, -⟩
      · nofun
      · nofun
    refine h.opens hfresh hne (fun fd' => by rw [hkernel, Kernel.files_ctl]) ?_
    rw [hhist, moves_ctl, moves_append hpre, moves_opened]
  | accepts server client o hkeeps hserver hcb hfresh hkernel ho hhist =>
    have hsingle : ∀ o' ∈ [o], o'.Inert := by
      intro o' ho'
      rw [List.mem_singleton.mp ho']
      exact ho
    have hne : FileKind.stream ≠ .foreign := nofun
    refine h.opens hfresh hne (fun fd' => by rw [hkernel]) ?_
    rw [hhist]
    exact moves_append hsingle _
  | returns server client hkeeps hserver hcb hcb' hctl hkernel hhist =>
    exact h.of_same (by rw [hkernel, Kernel.files_ctl]) (by rw [hhist, moves_ctl])
  | mods socket data ans ha hkeeps hserver hcb hidle hmalloc hctl hkernel hhist =>
    exact h.of_same (by rw [hkernel, Kernel.files_ctl]) (by rw [hhist, moves_sendReturned, moves_ctl])
  | closes ev rest pre hkeeps hserver hev hbatch hcb hctl hkernel hpre hhist =>
    have hfiles : ∀ fd, w'.kernel.files fd = (w.kernel.closeFile ev.fd).files fd :=
      fun fd => by rw [hkernel, Kernel.files_ctl]
    have hmoves : moves w'.history = .release ev.fd :: moves w.history := by
      rw [hhist, moves_ctl, moves_closed, moves_append hpre]
    rcases (hreg.of_data hev).2 with hopen | hopen
    · exact h.closes hopen nofun hfiles hmoves
    · exact h.closes hopen nofun hfiles hmoves
  | waits evs hwait hw' => exact h.of_same (by rw [hw']) (by rw [hw'])
  | exit hexit' => rw [hexit] at hexit'; cases hexit'

end Owned

theorem Starts.owned {k : Kernel} {e rd wr : Fd} (h : Starts k e rd wr) : Owned (started k e rd wr) := by
  have hdistinct : e ≠ rd ∧ e ≠ wr ∧ rd ≠ wr :=
    ⟨Kernel.ne_of_fresh h.fresh_rd (by simp : _ = some FileKind.epoll),
      Kernel.ne_of_fresh h.fresh_wr (by simp : _ = some FileKind.epoll), h.ne⟩
  refine ⟨{wr, rd, e}, ?_, fun fd => ?_⟩
  · have he : holdings [Move.acquire e] = some {e} := by simp [holdings]
    have hrd : holdings [Move.acquire rd, .acquire e] = some {rd, e} :=
      holdings_acquire he (by simp [Ne.symm hdistinct.1])
    exact holdings_acquire hrd (by simp [Ne.symm hdistinct.2.1, Ne.symm h.ne])
  · rw [files_started]
    have hforeign := h.files fd
    simp only [Finset.mem_insert, Finset.mem_singleton]
    split_ifs with h1 h2 h3
    all_goals grind

/-- What is held: the descriptors opened by `proactor_tcp_epoll_init`, listeners and connections. -/
theorem mem_held (hreg : Registry w) (fd : Fd) :
    (∃ kind, w.kernel.files fd = some kind ∧ kind ≠ .foreign) ↔
      fd = w.wakeupFds.1 ∨ fd = w.wakeupFds.2 ∨ fd = w.epollFd ∨
        w.kernel.files fd = some .listener ∨ w.kernel.files fd = some .stream := by
  rw [← hreg.epoll, ← hreg.pipeRead, ← hreg.pipeWrite]
  constructor
  · rintro ⟨kind, hfile, hne⟩
    rw [hfile]
    cases kind with
    | foreign => exact absurd rfl hne
    | _ => simp
  · rintro (hfile | hfile | hfile | hfile | hfile)
    all_goals exact ⟨_, hfile, nofun⟩

/-- The moves of `proactor_tcp_epoll_cleanup`. -/
theorem moves_cleanup (w : World) :
    moves (proactorTcpEpollCleanup w).history = releaseAll (closing w) (moves w.history) := by
  unfold proactorTcpEpollCleanup closing
  by_cases hs : w.serverSocket = -1 <;> by_cases hc : w.clientSocket = -1 <;>
    by_cases hw : w.wakeupFds.1 = -1 <;>
    simp [hs, hc, hw, World.closeFile, releaseAll]

theorem wake_ne (hreg : Registry w) : w.wakeupFds.1 ≠ -1 := by
  intro heq
  have hnonneg := hreg.nonneg _ _ ((hreg.pipeRead _).mpr rfl) nofun
  rw [heq] at hnonneg
  exact absurd hnonneg (by decide)

theorem mem_closing (hreg : Registry w) (fd : Fd) :
    fd ∈ closing w ↔ (w.serverSocket ≠ -1 ∧ fd = w.serverSocket) ∨
      (w.clientSocket ≠ -1 ∧ fd = w.clientSocket) ∨ fd = w.wakeupFds.1 ∨ fd = w.wakeupFds.2 ∨
      fd = w.epollFd := by
  rw [closing, if_pos (wake_ne hreg)]
  by_cases hs : w.serverSocket = -1 <;> by_cases hc : w.clientSocket = -1 <;> simp [hs, hc]

/-- Only `client_socket` can hold a descriptor that is closed for another reason too. -/
theorem nodup_closing (hreg : Registry w) :
    (closing w).Nodup ↔ w.clientSocket = -1 ∨ (w.clientSocket ≠ w.serverSocket ∧
      w.clientSocket ≠ w.wakeupFds.1 ∧ w.clientSocket ≠ w.wakeupFds.2 ∧ w.clientSocket ≠ w.epollFd) := by
  have hepoll := (hreg.epoll _).mpr rfl
  have hread := (hreg.pipeRead _).mpr rfl
  have hwrite := (hreg.pipeWrite _).mpr rfl
  have hne : ∀ {fd fd' : Fd} {kind kind' : FileKind}, w.kernel.files fd = some kind →
      w.kernel.files fd' = some kind' → kind ≠ kind' → fd ≠ fd' := by
    rintro fd _ kind kind' hk hk' hkind rfl
    exact hkind (Option.some.inj (hk.symm.trans hk'))
  have hrw := hne hread hwrite nofun
  have hre := hne hread hepoll nofun
  have hwe := hne hwrite hepoll nofun
  rw [closing, if_pos (wake_ne hreg)]
  rcases hreg.server with hs | hs
  · by_cases hc : w.clientSocket = -1
    · simp [hs, hc, hrw, hre, hwe]
    · simp [hs, hc, hrw, hre, hwe]
  · have hsr := hne hs hread nofun
    have hsw := hne hs hwrite nofun
    have hse := hne hs hepoll nofun
    by_cases hs' : w.serverSocket = -1 <;> by_cases hc : w.clientSocket = -1
    all_goals simp [hs', hc, hrw, hre, hwe, hsr, hsw, hse, eq_comm]

/-- The descriptors in the static variables are what is held, each once, exactly when the cleanup is
    complete. -/
theorem closing_iff (hreg : Registry w) :
    ((closing w).Nodup ∧ ∀ fd, fd ∈ closing w ↔ ∃ kind, w.kernel.files fd = some kind ∧ kind ≠ .foreign) ↔
      CleanupComplete w := by
  have hepoll := (hreg.epoll _).mpr rfl
  have hread := (hreg.pipeRead _).mpr rfl
  have hwrite := (hreg.pipeWrite _).mpr rfl
  rw [nodup_closing hreg]
  constructor
  · rintro ⟨hnodup, hheld⟩
    refine ⟨fun fd hfile => ?_, ?_, hnodup.imp_right And.left⟩
    · have hheldFd := (mem_held hreg fd).mpr (Or.inr (Or.inr (Or.inr hfile)))
      have hin := (mem_closing hreg fd).mp ((hheld fd).mpr hheldFd)
      rcases hin with ⟨-, hin⟩ | ⟨-, hin⟩ | rfl | rfl | rfl
      · exact Or.inl hin
      · exact Or.inr hin
      · simp [hread] at hfile
      · simp [hwrite] at hfile
      · simp [hepoll] at hfile
    · rcases hnodup with hc | ⟨-, hrd, hwr, he⟩
      · exact Or.inl hc
      · by_cases hc : w.clientSocket = -1
        · exact Or.inl hc
        · have hin := (mem_closing hreg w.clientSocket).mpr (Or.inr (Or.inl ⟨hc, rfl⟩))
          rcases (mem_held hreg _).mp ((hheld _).mp hin) with hfd | hfd | hfd | hfile
          · exact absurd hfd hrd
          · exact absurd hfd hwr
          · exact absurd hfd he
          · exact Or.inr hfile
  · rintro ⟨hkept, hclient, hdistinct⟩
    have hkind : w.clientSocket = -1 ∨ (w.clientSocket ≠ w.wakeupFds.1 ∧
        w.clientSocket ≠ w.wakeupFds.2 ∧ w.clientSocket ≠ w.epollFd) := by
      refine hclient.imp_right fun hfile => ⟨?_, ?_, ?_⟩
      · intro heq
        simp [heq, hread] at hfile
      · intro heq
        simp [heq, hwrite] at hfile
      · intro heq
        simp [heq, hepoll] at hfile
    have hnodup : w.clientSocket = -1 ∨ (w.clientSocket ≠ w.serverSocket ∧
        w.clientSocket ≠ w.wakeupFds.1 ∧ w.clientSocket ≠ w.wakeupFds.2 ∧ w.clientSocket ≠ w.epollFd) := by
      rcases hdistinct with hc | hne
      · exact Or.inl hc
      · exact hkind.imp_right fun hk => ⟨hne, hk⟩
    refine ⟨hnodup, fun fd => ?_⟩
    rw [mem_closing hreg, mem_held hreg]
    constructor
    · rintro (⟨hs, rfl⟩ | ⟨hc, rfl⟩ | hfd | hfd | hfd)
      · exact Or.inr (Or.inr (Or.inr (Or.inl (hreg.server.resolve_left hs))))
      · exact Or.inr (Or.inr (Or.inr (hclient.resolve_left hc)))
      · exact Or.inl hfd
      · exact Or.inr (Or.inl hfd)
      · exact Or.inr (Or.inr (Or.inl hfd))
    · rintro (hfd | hfd | hfd | hfile)
      · exact Or.inr (Or.inr (Or.inl hfd))
      · exact Or.inr (Or.inr (Or.inr (Or.inl hfd)))
      · exact Or.inr (Or.inr (Or.inr (Or.inr hfd)))
      · have hopen : fd ≠ -1 := by
          rintro rfl
          rcases hfile with hfile | hfile
          · exact absurd (hreg.nonneg _ _ hfile nofun) (by decide)
          · exact absurd (hreg.nonneg _ _ hfile nofun) (by decide)
        rcases hkept fd hfile with rfl | rfl
        · exact Or.inl ⟨hopen, rfl⟩
        · exact Or.inr (Or.inl ⟨hopen, rfl⟩)

section Run

theorem run_owned (hK : K.Strict) (hstart : Started K w₀) (hrun : (machine K).run w₀ as = some w) :
    w.exited = false → Registry w ∧ Owned w := by
  have hstep : ∀ s a s', (s.exited = false → Registry s ∧ Owned s) → (machine K).step s a = some s' →
      s'.exited = false → Registry s' ∧ Owned s' := by
    intro s a s' hs ha hexit
    obtain ⟨hreg, howned⟩ := hs (step_outcome ha).1
    have hout := step_kernelOutcome ha
    exact ⟨hreg.step hK hout hexit, howned.step hreg hout hexit⟩
  obtain ⟨k, e, rd, wr, hk, rfl⟩ := hstart.eq_started
  exact Machine.run_preserves hstep (fun _ => ⟨hk.registry, hk.owned⟩) hrun

/-- A run that ends with `proactor_tcp_epoll_cleanup` closes every descriptor that was returned to it
    exactly once, and no other, exactly when the cleanup is complete. -/
theorem cleanup_settles_iff (hstart : Started anyDel w₀) (hrun : (machine anyDel).run w₀ as = some w)
    (hexit : w.exited = false) :
    Settled (moves (proactorTcpEpollCleanup w).history) ↔ CleanupComplete w := by
  obtain ⟨hreg, s, hs, hmem⟩ := run_owned anyDel_strict hstart hrun hexit
  rw [moves_cleanup, settled_releaseAll_iff _ hs, ← closing_iff hreg]
  simp only [hmem]

/-- A server and a connection, one at a time: the peer of an accepted connection closes it. -/
def tidyRun : List Action :=
  [.startServer 502 ⟨6, true, true, true⟩, .connect "127.0.0.1" 503 ⟨7, true, true⟩, .run,
    .wait (.events [⟨6, EPOLLIN⟩]), .event { accept := 8 }, .wait (.events [⟨8, EPOLLIN⟩]),
    .event { read := some [] }]

theorem tidyRun_complete : ∃ w, (machine anyDel).run stdioStart tidyRun = some w ∧ CleanupComplete w := by
  have hsome : ((machine anyDel).run stdioStart tidyRun).isSome = true := rfl
  have hsettled : Settled ([.release 3, .release 5, .release 4, .release 7, .release 6, .release 8,
      .acquire 8, .acquire 7, .acquire 6, .acquire 5, .acquire 4, .acquire 3] : List (Move Fd)) := by
    decide
  have hrun := (Option.some_get hsome).symm
  exact ⟨_, hrun, (cleanup_settles_iff stdioStart_anyDel hrun rfl).mp hsettled⟩

/-- Two servers: the listener of the first is never closed. -/
def twoServers : List Action :=
  [.startServer 502 ⟨6, true, true, true⟩, .startServer 503 ⟨7, true, true, true⟩]

theorem twoServers_not_settled : ¬ ∀ w₀ as w, Started anyDel w₀ → (machine anyDel).run w₀ as = some w →
    w.exited = false → Settled (moves (proactorTcpEpollCleanup w).history) := by
  intro h
  have hsome : ((machine anyDel).run stdioStart twoServers).isSome = true := rfl
  have hsettled : Settled ([.release 3, .release 5, .release 4, .release 7, .acquire 7, .acquire 6,
      .acquire 5, .acquire 4, .acquire 3] : List (Move Fd)) :=
    h _ _ _ stdioStart_anyDel (Option.some_get hsome).symm rfl
  exact absurd hsettled (by decide)

end Run

end TagSim.Epoll
