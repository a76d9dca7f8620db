import TagSim.Epoll.Proofs.RegistryProofs
import TagSim.Epoll.Protocol
import TagSim.Runs.Proofs.TypestateProofs

/-!
# Proofs: descriptors follow the protocol

In every run the phases that the history gives the descriptors are those of the kernel's tables. So nothing is
done with a descriptor before it is opened and registered or after it is closed.
-/

namespace TagSim.Epoll

open TagSim.Typestate

variable {K : KernelRules} {w₀ w w' : World} {a : Action} {as : List Action}

section Phases

variable {k : Kernel} {fd : Fd} {kind : FileKind}

theorem phase_of_files (hfile : k.files fd = some kind) (hkind : kind ≠ .foreign) :
    k.phase fd = if (k.interest fd).isSome then .registered else .opened := by
  unfold Kernel.phase
  rw [hfile]
  cases kind with
  | foreign => exact absurd rfl hkind
  | _ => rfl

theorem phase_registered (hfile : k.files fd = some kind) (hkind : kind ≠ .foreign)
    (hint : (k.interest fd).isSome) : k.phase fd = .registered := by
  rw [phase_of_files hfile hkind, if_pos hint]

theorem phase_opened (hfile : k.files fd = some kind) (hkind : kind ≠ .foreign)
    (hint : k.interest fd = none) : k.phase fd = .opened := by
  rw [phase_of_files hfile hkind, hint]
  rfl

theorem phase_shut (hfile : k.files fd = none) : k.phase fd = .shut := by
  unfold Kernel.phase
  rw [hfile]

theorem phase_fresh (hfresh : k.fresh fd) : k.phase fd = .shut := phase_shut (Kernel.files_of_fresh hfresh)

/-- The phase of a descriptor depends on its own entries only. -/
theorem phase_congr {k' : Kernel} {fd' : Fd} (hfile : k'.files fd' = k.files fd')
    (hint : (k'.interest fd').isSome = (k.interest fd').isSome) : k'.phase fd' = k.phase fd' := by
  unfold Kernel.phase
  rw [hfile, hint]

/-- One descriptor is in a new phase, the others are where they were. -/
theorem phase_update {k' : Kernel} {p : Phase} (hself : k'.phase fd = p)
    (hother : ∀ fd', fd' ≠ fd → k'.files fd' = k.files fd' ∧ k'.interest fd' = k.interest fd') :
    k'.phase = Function.update k.phase fd p := by
  funext fd'
  by_cases hfd : fd' = fd
  · rw [hfd, hself, Function.update_self]
  · obtain ⟨hfile, hint⟩ := hother fd' hfd
    rw [Function.update_of_ne hfd]
    exact phase_congr hfile (congrArg Option.isSome hint)

theorem phase_openFile (hint : k.interest fd = none) (hkind : kind ≠ .foreign) :
    (k.openFile fd kind).phase = Function.update k.phase fd .opened := by
  have hfile : (k.openFile fd kind).files fd = some kind := by simp
  refine phase_update (phase_opened hfile hkind hint) fun fd' hfd => ?_
  simp [hfd]

theorem phase_add {mask : EventMask} (hfile : k.files fd = some kind) (hkind : kind ≠ .foreign) :
    (k.ctl .add fd mask).phase = Function.update k.phase fd .registered := by
  have hfile' : (k.ctl .add fd mask).files fd = some kind := by rw [Kernel.files_ctl, hfile]
  refine phase_update (phase_registered hfile' hkind (by simp)) fun fd' hfd => ?_
  simp [hfd]

theorem phase_mod {mask : EventMask} (hint : (k.interest fd).isSome) :
    (k.ctl .mod fd mask).phase = k.phase := by
  funext fd'
  refine phase_congr (by simp) ?_
  rw [Kernel.interest_mod]
  split_ifs with hfd
  · rw [hfd, hint]
    rfl
  · rfl

theorem phase_closeFile : (k.closeFile fd).phase = Function.update k.phase fd .shut := by
  refine phase_update (phase_shut (by simp)) fun fd' hfd => ?_
  simp [hfd]

theorem phase_del {mask : EventMask} (hint : k.interest fd = none) :
    (k.ctl .del fd mask).phase = k.phase := by
  funext fd'
  refine phase_congr (by simp) ?_
  rw [Kernel.interest_del]
  split_ifs with hfd
  · rw [hfd, hint]
  · rfl

end Phases

section Registry

variable {fd : Fd}

namespace Registry

/-- A registered descriptor is one of the proactor's. -/
theorem phase_of_interest (h : Registry w) (hint : (w.kernel.interest fd).isSome) :
    w.kernel.phase fd = .registered := by
  rcases h.registered fd hint with rfl | hfile | hfile
  · exact phase_registered ((h.pipeRead _).mpr rfl) nofun hint
  · exact phase_registered hfile nofun hint
  · exact phase_registered hfile nofun hint

theorem phase_of_dispatches (h : Registry w) {ev : Event} {rest : List Event} {r : Route}
    (hev : Dispatches w ev rest r) : w.kernel.phase ev.fd = .registered :=
  h.phase_of_interest (h.batch ev hev.mem)

/-- The end of the wake pipe that is written to is not registered. -/
theorem phase_pipeWrite (h : Registry w) : w.kernel.phase w.wakeupFds.2 = .opened := by
  have hfile := (h.pipeWrite _).mpr rfl
  refine phase_opened hfile nofun ?_
  rw [← Option.not_isSome_iff_eq_none]
  intro hint
  rcases h.registered _ hint with heq | hother | hother
  · have hread := (h.pipeRead _).mpr heq
    rw [hfile] at hread
    cases hread
  all_goals
    rw [hfile] at hother
    cases hother

end Registry

end Registry

section Steps

/-- The history follows the protocol, and the kernel's tables agree with it. -/
def Follows (w : World) : Prop :=
  descriptorProtocol.phases (fun _ => .shut) w.history = some w.kernel.phase

theorem Follows.of_same (h : Follows w) (hkernel : w'.kernel = w.kernel) (hhist : w'.history = w.history) :
    Follows w' := by
  rw [Follows, hkernel, hhist]
  exact h

/-- Observations of registered descriptors that set no phase. -/
theorem Follows.of_registered (h : Follows w) (pre : List Obs)
    (hpre : ∀ o ∈ pre, o.setsPhase = none ∧ ∀ x ∈ o.needsPhases, w.kernel.phase x.1 = x.2)
    (hkernel : w'.kernel = w.kernel) (hhist : w'.history = pre ++ w.history) : Follows w' := by
  rw [Follows, hkernel, hhist]
  exact phases_append hpre h

/-- A new descriptor is opened. -/
theorem phases_open {k : Kernel} {h : List Obs} {fd : Fd} (kind : FileKind)
    (hk : descriptorProtocol.phases (fun _ => .shut) h = some k.phase) (hkind : kind ≠ .foreign)
    (hfresh : k.fresh fd) (hint : k.interest fd = none) :
    descriptorProtocol.phases (fun _ => .shut) (.opened fd kind :: h) = some (k.openFile fd kind).phase := by
  rw [phase_openFile hint hkind]
  refine phases_sets rfl hk fun x hx => ?_
  obtain rfl := List.mem_singleton.mp hx
  exact phase_fresh hfresh

/-- An open descriptor is registered. -/
theorem phases_add {k : Kernel} {h : List Obs} {fd : Fd} {mask : EventMask} (kind : FileKind)
    (hk : descriptorProtocol.phases (fun _ => .shut) h = some k.phase) (hfile : k.files fd = some kind)
    (hkind : kind ≠ .foreign) (hint : k.interest fd = none) :
    descriptorProtocol.phases (fun _ => .shut) (.ctl .add fd mask true :: h) =
      some (k.ctl .add fd mask).phase := by
  rw [phase_add hfile hkind]
  refine phases_sets rfl hk fun x hx => ?_
  obtain rfl := List.mem_singleton.mp hx
  exact phase_opened hfile hkind hint

/-- A new descriptor is opened, used while it is being set up, and registered. -/
theorem Follows.registers (h : Follows w) (hreg : Registry w) {fd : Fd} {mask : EventMask} (kind : FileKind)
    (pre : List Obs) (hkind : kind ≠ .foreign) (hfresh : w.kernel.fresh fd)
    (hpre : ∀ o ∈ pre, o.setsPhase = none ∧ o.needsPhases = [(fd, .opened)])
    (hkernel : w'.kernel = (w.kernel.openFile fd kind).ctl .add fd mask)
    (hhist : w'.history = .ctl .add fd mask true :: (pre ++ .opened fd kind :: w.history)) : Follows w' := by
  have hint := hreg.interest_of_fresh hfresh
  have hfile : (w.kernel.openFile fd kind).files fd = some kind := by simp
  rw [Follows, hkernel, hhist]
  have hopened := phases_open kind h hkind hfresh hint
  refine phases_add kind (phases_append (fun o ho => ?_) hopened) hfile hkind hint
  obtain ⟨hsets, hneeds⟩ := hpre o ho
  refine ⟨hsets, fun x hx => ?_⟩
  rw [show descriptorProtocol.needs o = [(fd, .opened)] from hneeds] at hx
  obtain rfl := List.mem_singleton.mp hx
  exact phase_opened hfile hkind hint

/-- The mask of a registered descriptor is replaced. -/
theorem Follows.mods (h : Follows w) (hreg : Registry w) {fd : Fd} {data : List Byte} {ret : Int}
    (hint : (w.kernel.interest fd).isSome) (hkernel : w'.kernel = w.kernel.ctl .mod fd EPOLLOUT)
    (hhist : w'.history = .sendReturned fd data ret :: .ctl .mod fd EPOLLOUT true :: w.history) :
    Follows w' := by
  rw [Follows, hkernel, phase_mod hint, hhist]
  have hfd := hreg.phase_of_interest hint
  have hpre : ∀ o ∈ [Obs.sendReturned fd data ret, .ctl .mod fd EPOLLOUT true],
      o.setsPhase = none ∧ ∀ x ∈ o.needsPhases, w.kernel.phase x.1 = x.2 := by
    simp [Obs.setsPhase, Obs.needsPhases, hfd]
  exact phases_append hpre h

/-- A connection is opened and handed to the accept callback. -/
theorem Follows.accepts (h : Follows w) (hreg : Registry w) {server client : Fd} {func : FuncPtr}
    {userData : Ptr} (hserver : w.kernel.phase server = .registered) (hfresh : w.kernel.fresh client)
    (hkernel : w'.kernel = w.kernel.openFile client .stream)
    (hhist : w'.history = .acceptCallback func server client userData ::
      .opened client .stream :: w.history) : Follows w' := by
  have hint := hreg.interest_of_fresh hfresh
  have hne : server ≠ client := by
    rintro rfl
    rw [phase_fresh hfresh] at hserver
    cases hserver
  have hopened : (w.kernel.openFile client .stream).phase = Function.update w.kernel.phase client .opened :=
    phase_openFile hint nofun
  rw [Follows, hkernel, hhist]
  refine phases_keeps rfl (phases_open .stream h nofun hfresh hint) fun x hx => ?_
  rw [hopened]
  rcases List.mem_cons.mp hx with rfl | hx
  · exact (Function.update_of_ne hne ..).trans hserver
  · obtain rfl := List.mem_singleton.mp hx
    exact Function.update_self ..

/-- A registered descriptor is read from for the last time and closed. -/
theorem Follows.closes (h : Follows w) {fd : Fd} {mask : EventMask} {pre : List Obs}
    (hfd : w.kernel.phase fd = .registered) (hpre : pre = [.read fd 0] ∨ pre = [.perror "read", .read fd (-1)])
    (hkernel : w'.kernel = (w.kernel.closeFile fd).ctl .del fd mask)
    (hhist : w'.history = .ctl .del fd mask true :: .closed fd :: (pre ++ w.history)) : Follows w' := by
  have hread : ∀ o ∈ pre, o.setsPhase = none ∧ ∀ x ∈ o.needsPhases, w.kernel.phase x.1 = x.2 := by
    rcases hpre with rfl | rfl <;> simp [Obs.setsPhase, Obs.needsPhases, hfd]
  have hclosed : descriptorProtocol.phases (fun _ => .shut) (.closed fd :: (pre ++ w.history)) =
      some (w.kernel.closeFile fd).phase := by
    rw [phase_closeFile]
    refine phases_sets rfl (phases_append hread h) fun x hx => ?_
    obtain rfl := List.mem_singleton.mp hx
    exact hfd
  rw [Follows, hkernel, hhist, phase_del (by simp)]
  refine phases_keeps rfl hclosed fun x hx => ?_
  obtain rfl := List.mem_singleton.mp hx
  exact phase_shut (by simp)

/-- A step of a process that goes on. -/
theorem Follows.step (hK : K.Strict) (h : Follows w) (hreg : Registry w) (hout : Outcome K w a w')
    (hexit : w'.exited = false) : Follows w' := by
  cases hout with
  | startServer port ans hfresh hctl =>
    exact h.registers hreg .listener [.bind ans.socket port] nofun hfresh
      (by simp [Obs.setsPhase, Obs.needsPhases]) rfl rfl
  | connect address port ans hfresh hctl =>
    exact h.registers hreg .stream [.connect ans.socket address port] nofun hfresh
      (by simp [Obs.setsPhase, Obs.needsPhases]) rfl rfl
  | sendRejected socket data ans hbusy =>
    exact h.of_registered [.sendReturned socket data (-1)] (by simp [Obs.setsPhase, Obs.needsPhases]) rfl rfl
  | sendAccepted socket data ans hidle hlen hmalloc hctl =>
    have hmod : CtlOp.mod ≠ .del := nofun
    exact h.mods hreg (Kernel.ctlLegal_mod.mp (hK.ctl _ _ _ _ hmod hctl).symm).2 rfl rfl
  | setReceiveCallback func userData | setAcceptCallback func userData => exact h.of_same rfl rfl
  | setSendCompleteCallback func userData =>
    exact h.of_registered [.setSendComplete func] (by simp [Obs.setsPhase, Obs.needsPhases]) rfl rfl
  | wake ret | stop ret =>
    refine h.of_registered [.wakeWrite w.wakeupFds.2 ret] ?_ rfl rfl
    simp [Obs.setsPhase, Obs.needsPhases, hreg.phase_pipeWrite]
  | run hrun => exact h.of_same rfl rfl
  | loopEnd ans hstop => exact h.of_same rfl rfl
  | interrupted => exact h
  | events evs hcb hbatch hwait => exact h.of_same rfl rfl
  | eventWake ans ev rest hev =>
    refine h.of_registered [.wakeRead ev.fd] ?_ rfl rfl
    simp [Obs.setsPhase, Obs.needsPhases, hreg.phase_of_dispatches hev]
  | acceptFailed ans ev rest hev =>
    exact h.of_registered [.perror "accept"] (by simp [Obs.setsPhase, Obs.needsPhases]) rfl rfl
  | acceptCallback ans ev rest func hev hfresh =>
    exact h.accepts hreg (hreg.phase_of_dispatches hev) hfresh rfl rfl
  | acceptRegistered ans ev rest hev hfresh hctl =>
    exact h.registers hreg .stream [] nofun hfresh (by simp) rfl rfl
  | dataEnd ans ev rest pre hev hread hpre hctl =>
    exact h.closes (hreg.phase_of_dispatches hev) hpre rfl rfl
  | dataUnread ans ev rest buf hev hread hbuf =>
    refine h.of_registered [.read ev.fd buf.length] ?_ rfl rfl
    simp [Obs.setsPhase, Obs.needsPhases, hreg.phase_of_dispatches hev]
  | dataCallback ans ev rest buf func hev hread hbuf =>
    refine h.of_registered
      [.receiveCallback func ev.fd buf w.receiveCallbackUserData, .read ev.fd buf.length] ?_ rfl rfl
    simp [Obs.setsPhase, Obs.needsPhases, hreg.phase_of_dispatches hev]
  | writeIdle ans ev rest hev hidle => exact h.of_same rfl rfl
  | writeFailed ans ev rest req hev hreq hret =>
    refine h.of_registered [.perror "write", .write ev.fd req.unsent (-1)] ?_ rfl rfl
    simp [Obs.setsPhase, Obs.needsPhases, hreg.phase_of_dispatches hev]
  | writePartial ans ev rest req k hev hreq hret hk hlt =>
    refine h.of_registered [.write ev.fd req.unsent k] ?_ rfl rfl
    simp [Obs.setsPhase, Obs.needsPhases, hreg.phase_of_dispatches hev]
  | writeFinished ans ev rest req k hev hreq hret hk hge hfunc =>
    refine h.of_registered [.write ev.fd req.unsent k] ?_ rfl rfl
    simp [Obs.setsPhase, Obs.needsPhases, hreg.phase_of_dispatches hev]
  | writeCallback ans ev rest req k func hev hreq hret hk hge hfunc =>
    refine h.of_registered [.sendCompleteCallback func ev.fd w.sendCompleteCallbackUserData,
      .write ev.fd req.unsent k] ?_ rfl rfl
    simp [Obs.setsPhase, Obs.needsPhases, hreg.phase_of_dispatches hev]
  | ignored ans ev rest hev => exact h.of_same rfl rfl
  | returnAccept ctl server client hcb hctl =>
    obtain ⟨hfile, hint⟩ := hreg.accepting server client hcb
    exact phases_add .stream h hfile nofun hint
  | returnReceive ctl fd hcb => exact h.of_same rfl rfl
  | returnSendComplete ctl fd hcb => exact h.of_same rfl rfl
  | exit a w' hcan hexit' hsilent => exact absurd (hexit.symm.trans hexit') nofun

end Steps

section Run

/-- The phases after `proactor_tcp_epoll_init`. -/
theorem Starts.follows {k : Kernel} {e rd wr : Fd} (h : Starts k e rd wr) :
    Follows (started k e rd wr) := by
  have hboot : descriptorProtocol.phases (fun _ => .shut) [] = some k.phase := by
    refine congrArg some (funext fun fd => Eq.symm ?_)
    unfold Kernel.phase
    rcases h.files fd with hfile | hfile <;> rw [hfile]
  have he := phases_open .epoll hboot (by simp) h.fresh_e (h.interest e)
  have hrd := phases_open .pipeRead he (by simp) h.fresh_rd (h.interest rd)
  have hwr : ((k.openFile e .epoll).openFile rd .pipeRead).fresh wr := by
    rw [Kernel.fresh, Kernel.files_openFile, if_neg (Ne.symm h.ne)]
    exact h.fresh_wr
  have hopened := phases_open .pipeWrite hrd (by simp) hwr (h.interest wr)
  exact phases_add .pipeRead hopened (by simp [h.ne]) (by simp) (h.interest rd)

/-- In every run the descriptors follow the protocol, and are in the phases that the kernel has them in. -/
theorem descriptors_follow_protocol (hK : K.Strict) (hstart : Started K w₀)
    (hrun : (machine K).run w₀ as = some w) (hexit : w.exited = false) :
    descriptorProtocol.phases (fun _ => .shut) w.history = some w.kernel.phase := by
  have hinv : w.exited = false → Registry w ∧ Follows w := by
    refine Machine.run_preserves (M := machine K) (I := fun v => v.exited = false → Registry v ∧ Follows v)
      (fun v b v' hv hb halive => ?_) (fun halive => ?_) hrun
    · obtain ⟨hbefore, hout⟩ := step_outcome hb
      obtain ⟨hreg, hfollows⟩ := hv hbefore
      exact ⟨hreg.step hK hout.kernelOutcome halive, hfollows.step hK hreg hout halive⟩
    · obtain ⟨k, e, rd, wr, hk, rfl⟩ := hstart.eq_started
      exact ⟨hk.registry, hk.follows⟩
  exact (hinv hexit).2

/-- The peer closes a connection, and its descriptor is opened again. -/
def reopen : List Action :=
  [.connect "127.0.0.1" 502 ⟨6, true, true⟩, .run, .wait (.events [⟨6, EPOLLIN⟩]), .event { read := some [] },
    .connect "127.0.0.1" 502 ⟨6, true, true⟩]

theorem descriptors_follow_protocol_reopen : ∃ w, (machine anyDel).run stdioStart reopen = some w ∧
    .closed 6 ∈ w.history ∧ w.kernel.phase 6 = .registered ∧
    descriptorProtocol.phases (fun _ => .shut) w.history = some w.kernel.phase := by
  have hsome : ((machine anyDel).run stdioStart reopen).isSome = true := rfl
  have hrun := (Option.some_get hsome).symm
  have hclosed : Obs.closed 6 ∈ (((machine anyDel).run stdioStart reopen).get hsome).history :=
    List.mem_of_getElem? (i := 4) rfl
  exact ⟨_, hrun, hclosed, rfl, descriptors_follow_protocol anyDel_strict stdioStart_anyDel hrun rfl⟩

end Run

end TagSim.Epoll
