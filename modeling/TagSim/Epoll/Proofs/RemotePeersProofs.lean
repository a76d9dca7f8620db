import TagSim.Epoll.Proofs.RegistryProofs

/-!
# What remote peers can do to the process

`handle_data_event` closes the descriptor before it removes the registration, and the removal then fails.
Under the documented rules of `epoll_ctl` the event loop never exits, and never makes a call whose
precondition does not hold, exactly as long as no `read` reports the end of a stream or an error.
-/

namespace TagSim.Epoll

/-- A step of the event loop, not a call of the application. -/
def Action.OfLoop : Action → Prop
  | .wait _ | .event _ | .callbackReturn _ => True
  | _ => False

/-- A step of the event loop does not call `handle_error`, and every `epoll_ctl` up to it succeeded: under
    the documented rules its precondition held. -/
def LoopSafe (K : KernelRules) (w : World) (a : Action) : Prop :=
  a.OfLoop → ∀ w', step K w a = some w' →
    w'.exited = false ∧ ∀ op fd events ok, Obs.ctl op fd events ok ∈ w'.history → ok = true

/-- A `read` of `handle_data_event` returns 0 or fails: the peer closed or reset the connection. -/
def EndOfStream (w : World) (a : Action) : Prop :=
  ∃ ans ev rest, a = .event ans ∧ Dispatches w ev rest .data ∧ ans.read.getD [] = []

variable {w₀ w w' : World} {a : Action} {as : List Action}

/-- After `close` the documented `epoll_ctl` cannot remove the registration. -/
theorem not_ctl_del_closeFile (k : Kernel) (fd : Fd) :
    documented.ctl (k.closeFile fd) .del fd true = false := by
  simp [documented, Kernel.ctlLegal_del_closeFile]

/-- The end of a stream ends the process. -/
theorem exited_of_endOfStream (h : EndOfStream w a) (hstep : step documented w a = some w') :
    w'.exited = true := by
  obtain ⟨ans, ev, rest, rfl, hev, hread⟩ := h
  have hroute : route { w with batch := rest } ev = .data := hev.route
  rw [step_event (step_outcome hstep).1 hev, handleEvent, hroute] at hstep
  have hend : ∀ v : World, epollCtl documented .del ev.fd (EPOLLIN ||| EPOLLOUT) ans.ctl id
      (v.closeFile ev.fd) = some w' → w'.exited = true := by
    intro v hv
    rcases epollCtl_cases hv with ⟨hctl, -⟩ | ⟨-, rfl⟩
    · have hno := not_ctl_del_closeFile v.kernel ev.fd
      rw [World.closeFile] at hctl
      rw [hno] at hctl
      cases hctl
    · rfl
  unfold handleDataEvent at hstep
  cases hans : ans.read with
  | none =>
    rw [hans] at hstep
    exact hend _ hstep
  | some buf =>
    rw [hans] at hstep hread
    obtain rfl : buf = [] := hread
    exact hend _ hstep

/-- A new connection can always be registered. -/
theorem not_ctl_add_false {k : Kernel} {fd : Fd} (hopen : (k.files fd).isSome)
    (hint : k.interest fd = none) : ¬ documented.ctl k .add fd false := by
  have hlegal : k.ctlLegal .add fd = true := Kernel.ctlLegal_add.mpr ⟨hopen, hint⟩
  simp [documented, hlegal]

/-- The only way for the event loop to exit is the end of a stream. -/
theorem endOfStream_of_canExit (h : Registry w) (hloop : a.OfLoop) (hcan : CanExit documented w a) :
    EndOfStream w a := by
  cases a with
  | wait ans => cases hcan
  | event ans =>
    obtain ⟨ev, rest, ⟨hev, hfresh, hctl⟩ | ⟨hev, hread, -⟩⟩ := hcan
    · exact absurd hctl (not_ctl_add_false (by simp) (h.interest_of_fresh hfresh))
    · exact ⟨ans, ev, rest, rfl, hev, hread⟩
  | callbackReturn ctl =>
    obtain ⟨server, client, hcb, hctl⟩ := hcan
    obtain ⟨hfile, hint⟩ := h.accepting server client hcb
    exact absurd hctl (not_ctl_add_false (by rw [hfile]; rfl) hint)
  | _ => exact hloop.elim

/-- A step that is taken is safe exactly when it does not find the end of a stream. -/
theorem loopSafe_iff (h : Registry w) (hstep : step documented w a = some w') :
    LoopSafe documented w a ↔ ¬ EndOfStream w a := by
  constructor
  · intro hsafe hend
    have hloop : a.OfLoop := by
      obtain ⟨ans, ev, rest, rfl, -⟩ := hend
      trivial
    have hexit := exited_of_endOfStream hend hstep
    rw [(hsafe hloop w' hstep).1] at hexit
    cases hexit
  · intro hno hloop v hv
    have hrunning := (step_outcome hv).1
    have hexit : v.exited = false := by
      by_contra hex
      have hcan := (step_outcome hv).2.canExit hrunning (by simpa using hex)
      exact hno (endOfStream_of_canExit h hloop hcan)
    exact ⟨hexit, (h.step documented_strict (step_outcome hv).2.kernelOutcome hexit).ctls⟩

/-- Along a run every step of the event loop is safe exactly when no `read` finds the end of a stream. -/
theorem loopSafe_iff_no_endOfStream (hstart : Started documented w₀)
    (hrun : (machine documented).run w₀ as = some w) :
    (machine documented).AllSteps (LoopSafe documented) w₀ as ↔
      (machine documented).AllSteps (fun v a => ¬ EndOfStream v a) w₀ as := by
  have hJ : ∀ s a s', (s.exited = false → Registry s) → (machine documented).step s a = some s' →
      s'.exited = false → Registry s' :=
    fun s a s' hs ha => step_registry documented_strict hs ha
  refine Machine.allSteps_congr hJ ?_ (started_registry hstart) hrun
  intro s a s' hs ha
  have hstep : step documented s a = some s' := ha
  exact loopSafe_iff (hs (step_outcome hstep).1) hstep

/-- A server to which one peer connects and sends two bytes. -/
def peerSends : List Action :=
  [.startServer 502 ⟨6, true, true, true⟩, .run, .wait (.events [⟨6, EPOLLIN⟩]),
    .event { accept := 7, read := some [0] }, .wait (.events [⟨7, EPOLLIN⟩]), .event { read := some [1, 2] }]

theorem peerSends_loopSafe : (machine documented).AllSteps (LoopSafe documented) stdioStart peerSends := by
  have hsome : ((machine documented).run stdioStart peerSends).isSome = true := rfl
  rw [loopSafe_iff_no_endOfStream stdioStart_documented (Option.some_get hsome).symm]
  refine Machine.allSteps_of_forall (fun a ha v => ?_) stdioStart
  rintro ⟨ans, ev, rest, rfl, -, hread⟩
  simp only [peerSends, List.mem_cons, List.not_mem_nil, or_false, Action.event.injEq] at ha
  rcases ha with ha | ha | ha | rfl | ha | rfl
  all_goals first | cases ha | cases hread

/-- A server to which one peer connects; the connection is ready for reading. -/
def peerConnects : List Action :=
  [.startServer 502 ⟨6, true, true, true⟩, .run, .wait (.events [⟨6, EPOLLIN⟩]), .event { accept := 7 },
    .wait (.events [⟨7, EPOLLIN⟩])]

/-- The peer closes the connection: `read` returns 0. -/
theorem peerCloses_not_loopSafe : ¬ ∀ w₀ as w, Started documented w₀ →
    (machine documented).run w₀ as = some w →
    (machine documented).AllSteps (LoopSafe documented) w₀ as := by
  intro h
  have hsome : ((machine documented).run stdioStart peerConnects).isSome = true := rfl
  have hclose : ((machine documented).run stdioStart
      (peerConnects ++ [.event { read := some [], ctl := false }])).isSome = true := rfl
  have hall := h _ _ _ stdioStart_documented (Option.some_get hclose).symm
  have hlast := ((Machine.allSteps_append (Option.some_get hsome).symm).mp hall).2.1
  have hsafe := (hlast trivial _ rfl).1
  cases hsafe

end TagSim.Epoll
