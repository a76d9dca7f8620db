import TagSim.Epoll.Proofs.InterestProofs
import TagSim.Runs.Proofs.AccountProofs

/-!
# Connections that keep the event loop busy

Every registered connection is registered for `EPOLLOUT`, whether there is something to send or not. As long
as it can be written to `epoll_wait` does not block, and as long as nothing is being sent handling its event
changes nothing.
-/

namespace TagSim.Epoll

/-- Every registered connection is registered for `EPOLLOUT`. -/
def AwaitsWritable (w : World) : Prop :=
  ∀ fd mask, w.kernel.files fd = some .stream → w.kernel.interest fd = some mask →
    mask = EPOLLIN ||| EPOLLOUT ∨ mask = EPOLLOUT

/-- The event loop is at its head and is to go on, and nothing is being sent. -/
structure Idle (w : World) : Prop where
  alive : w.exited = false
  running : w.running = true
  goesOn : w.stop = false
  callback : w.callback = none
  batch : w.batch = []
  request : w.currentSendRequest = none

variable {K : KernelRules} {w₀ w w' : World} {a : Action} {as : List Action} {fd : Fd}

namespace AwaitsWritable

theorem of_kernel (h : AwaitsWritable w) (hkernel : w'.kernel = w.kernel) : AwaitsWritable w' := by
  rw [AwaitsWritable, hkernel]
  exact h

/-- A descriptor is registered anew, for `EPOLLOUT` too if it is a connection. -/
theorem of_mask (h : AwaitsWritable w) (fd : Fd) (mask : EventMask)
    (hmask : w'.kernel.files fd = some .stream → mask = EPOLLIN ||| EPOLLOUT ∨ mask = EPOLLOUT)
    (hfiles : ∀ fd', fd' ≠ fd → w'.kernel.files fd' = some .stream → w.kernel.files fd' = some .stream)
    (hint : ∀ fd', w'.kernel.interest fd' = if fd' = fd then some mask else w.kernel.interest fd') :
    AwaitsWritable w' := by
  intro fd' mask' hfile hmask'
  rw [hint] at hmask'
  split_ifs at hmask' with heq
  · obtain rfl := Option.some.inj hmask'
    exact hmask (heq ▸ hfile)
  · exact h fd' mask' (hfiles fd' heq hfile) hmask'

theorem step (h : AwaitsWritable w) (hreg : Registry w) (hs : KernelOutcome K w a w')
    (hexit : w'.exited = false) : AwaitsWritable w' := by
  cases hs with
  | quiet hkeeps hserver hkernel => exact h.of_kernel hkernel
  | registers fd kind mask pre hkeeps hcb hkind hfresh hctl hkernel =>
    refine h.of_mask fd mask (fun hfile => ?_) (fun fd' hne hfile => ?_) fun fd' => ?_
    · rcases hkind with ⟨rfl, -⟩ | ⟨-, rfl, -⟩
      · simp [hkernel] at hfile
      · exact Or.inl rfl
    · simpa [hkernel, hne] using hfile
    · simp [hkernel]
  | accepts server client o hkeeps hserver hcb hfresh hkernel =>
    -- a connection that is handed to the accept callback is not registered yet
    intro fd mask hfile hmask
    rw [hkernel, Kernel.interest_openFile] at hmask
    rw [hkernel, Kernel.files_openFile] at hfile
    split_ifs at hfile with heq
    · rw [heq, hreg.interest_of_fresh hfresh] at hmask
      cases hmask
    · exact h fd mask hfile hmask
  | returns server client hkeeps hserver hcb hcb' hctl hkernel =>
    refine h.of_mask client _ (fun _ => Or.inl rfl) (fun fd' _ hfile => ?_) fun fd' => ?_
    · simpa [hkernel] using hfile
    · simp [hkernel]
  | mods socket data ans ha hkeeps hserver hcb hidle hmalloc hctl hkernel =>
    refine h.of_mask socket _ (fun _ => Or.inr rfl) (fun fd' _ hfile => ?_) fun fd' => ?_
    · simpa [hkernel] using hfile
    · simp [hkernel]
  | closes ev rest pre hkeeps hserver hev hbatch hcb hctl hkernel =>
    intro fd mask hfile hmask
    rw [hkernel, Kernel.files_ctl, Kernel.files_closeFile] at hfile
    rw [hkernel, Kernel.interest_del, Kernel.interest_closeFile] at hmask
    split_ifs at hfile hmask
    exact h fd mask hfile hmask
  | waits evs hwait hw' => exact h.of_kernel (by rw [hw'])
  | exit hexit' => exact absurd (hexit.symm.trans hexit') nofun

end AwaitsWritable

theorem run_awaitsWritable (hK : K.Strict) (hstart : Started K w₀) (hrun : (machine K).run w₀ as = some w)
    (hexit : w.exited = false) : Registry w ∧ AwaitsWritable w := by
  have hinv : w.exited = false → Registry w ∧ AwaitsWritable w := by
    refine Machine.run_preserves (M := machine K)
      (I := fun v => v.exited = false → Registry v ∧ AwaitsWritable v) (fun v b v' hv hb halive => ?_)
      (fun halive => ?_) hrun
    · obtain ⟨hbefore, hout⟩ := step_outcome hb
      obtain ⟨hreg, hwritable⟩ := hv hbefore
      exact ⟨hreg.step hK hout.kernelOutcome halive, hwritable.step hreg hout.kernelOutcome halive⟩
    · obtain ⟨k, e, rd, wr, hk, rfl⟩ := hstart.eq_started
      refine ⟨hk.registry, fun fd mask hfile hmask => ?_⟩
      -- only the wake pipe is registered
      have hfd : fd = rd := by
        by_contra hne
        simp [started, hne, hk.interest] at hmask
      rw [files_started, hfd, if_neg hk.ne, if_pos rfl] at hfile
      cases hfile
  exact hinv hexit

/-- What the kernel reports while the connection can be written to, and the handling of it. -/
def writableRound (fd : Fd) (ans : EventAnswers) : List Action :=
  [.wait (.events [⟨fd, EPOLLOUT⟩]), .event ans]

/-- The kernel may report that the connection is writable. -/
theorem AwaitsWritable.batchLegal (h : AwaitsWritable w) (hfile : w.kernel.files fd = some .stream)
    (hint : (w.kernel.interest fd).isSome) : w.kernel.batchLegal [⟨fd, EPOLLOUT⟩] = true := by
  obtain ⟨mask, hmask⟩ := Option.isSome_iff_exists.mp hint
  have hreports : w.kernel.reports ⟨fd, EPOLLOUT⟩ = true := by
    unfold Kernel.reports
    rw [hmask]
    rcases h fd mask hfile hmask with rfl | rfl
    all_goals simp only [EPOLLIN, EPOLLOUT, EPOLLERR, EPOLLHUP]; rfl
  simp [Kernel.batchLegal, hreports, maxEvents]

/-- The event of a writable connection goes to `handle_write_event`. -/
theorem Registry.route_writable (h : Registry w) (hfile : w.kernel.files fd = some .stream) :
    route w ⟨fd, EPOLLOUT⟩ = .write := by
  have hwake : fd ≠ w.wakeupFds.1 := by
    rintro rfl
    rw [(h.pipeRead _).mpr rfl] at hfile
    cases hfile
  have hserver : fd ≠ w.serverSocket := by
    rintro rfl
    rcases h.server with hnone | hlistener
    · have hnonneg := h.nonneg _ _ hfile nofun
      rw [hnone] at hnonneg
      exact absurd hnonneg (by decide)
    · rw [hlistener] at hfile
      cases hfile
  have hin : ¬ EPOLLOUT &&& EPOLLIN ≠ 0 := by decide
  have hout : EPOLLOUT &&& EPOLLOUT ≠ 0 := by decide
  unfold route
  rw [if_neg hwake, if_neg hserver, if_neg hin, if_pos hout]

/-- One round of the event loop of an idle process leaves it as it was. -/
theorem Idle.round (h : Idle w) (hreg : Registry w) (hfile : w.kernel.files fd = some .stream)
    (hlegal : w.kernel.batchLegal [⟨fd, EPOLLOUT⟩] = true) (ans : EventAnswers) :
    (machine documented).run w (writableRound fd ans) = some w := by
  let waited : World := { w with batch := [⟨fd, EPOLLOUT⟩] }
  have hwait : step documented w (.wait (.events [⟨fd, EPOLLOUT⟩])) = some waited := by
    unfold step waitEvents
    simp [h.alive, h.running, h.callback, h.batch, h.goesOn, documented, hlegal, waited]
  have hdispatches : Dispatches waited ⟨fd, EPOLLOUT⟩ [] .write :=
    ⟨h.callback, rfl, hreg.route_writable hfile⟩
  have hevent : step documented waited (.event ans) = some w := by
    have halive : waited.exited = false := h.alive
    have hroute : route { waited with batch := [] } ⟨fd, EPOLLOUT⟩ = .write := hreg.route_writable hfile
    have hrequest : waited.currentSendRequest = none := h.request
    rw [step_event halive hdispatches, handleEvent, hroute]
    unfold handleWriteEvent
    simp only [hrequest]
    exact congrArg some (by rw [← h.batch])
  have hfirst : (machine documented).step w (.wait (.events [⟨fd, EPOLLOUT⟩])) = some waited := hwait
  have hsecond : (machine documented).step waited (.event ans) = some w := hevent
  rw [writableRound, Machine.run_cons hfirst, Machine.run_cons hsecond, Machine.run]

/-- In every reachable state a registered connection that can be written to is reported as writable, and a
    process that has nothing to send is busy with it forever. -/
theorem idle_connection_spins (hstart : Started documented w₀) (hrun : (machine documented).run w₀ as = some w)
    (hidle : Idle w) (hfile : w.kernel.files fd = some .stream) (hint : (w.kernel.interest fd).isSome)
    (ans : EventAnswers) (n : Nat) :
    (machine documented).run w (List.replicate n (writableRound fd ans)).flatten = some w := by
  obtain ⟨hreg, hwritable⟩ := run_awaitsWritable documented_strict hstart hrun hidle.alive
  exact Machine.run_replicate (hidle.round hreg hfile (hwritable.batchLegal hfile hint) ans) n

/-- Nothing is ever sent on the connection of the example. -/
theorem idle_connection_spins_idleConnection : ∃ w,
    (machine documented).run stdioStart idleConnection = some w ∧
    (machine documented).run w (List.replicate 1000 (writableRound 6 {})).flatten = some w := by
  have hsome : ((machine documented).run stdioStart idleConnection).isSome = true := rfl
  have hrun := (Option.some_get hsome).symm
  exact ⟨_, hrun, idle_connection_spins stdioStart_documented hrun ⟨rfl, rfl, rfl, rfl, rfl, rfl⟩ rfl rfl {} 1000⟩

end TagSim.Epoll
