import TagSim.Epoll.Proofs.RegistryProofs

/-!
# The interest sets of the connections

`connect` and `handle_accept_event` register a connection for `EPOLLIN | EPOLLOUT`; a send replaces the
mask by `EPOLLOUT`. So a connection stays readable exactly as long as nothing is sent on it.
-/

namespace TagSim.Epoll

/-- Every open connection that was registered is waited for to become readable, and the connection for
    which a send is pending to become writable. -/
structure InterestSet (w : World) : Prop where
  readable : ∀ fd, w.kernel.files fd = some .stream → registered fd w.history →
    ∃ mask, w.kernel.interest fd = some mask ∧ mask &&& EPOLLIN ≠ 0
  writable : ∀ req fd, pendingRequest w = some req → destination w.history = some fd →
    destinationClosed w.history = false → ∃ mask, w.kernel.interest fd = some mask ∧ mask &&& EPOLLOUT ≠ 0

/-- A send on `socket` that goes through: nothing is being sent, the allocations succeed and `socket` is
    open and registered. -/
def AcceptedSend (w : World) (a : Action) (socket : Fd) : Prop :=
  ∃ data ans, a = .send socket data ans ∧ w.currentSendRequest = none ∧
    (ans.mallocRequest ∧ ans.mallocData) ∧ w.kernel.ctlLegal .mod socket

/-- A send on a connection goes through. -/
def SendsOnConnection (w : World) (a : Action) : Prop :=
  ∃ socket, AcceptedSend w a socket ∧ w.kernel.files socket = some .stream

/-- The history tells what is registered, and with which mask the last send left its addressee. -/
structure Recorded (w : World) : Prop where
  registered_eq : ∀ fd, registered fd w.history = (w.kernel.interest fd).isSome
  destination_mask : ∀ fd, destination w.history = some fd → destinationClosed w.history = false →
    w.kernel.interest fd = some EPOLLOUT

variable {K : KernelRules} {w₀ w w' : World} {a : Action} {as : List Action}

namespace Recorded

/-- A descriptor that is not registered yet is registered. -/
theorem adds (h : Recorded w) {fd : Fd} {mask : EventMask} (hnew : w.kernel.interest fd = none)
    (hint : ∀ fd', w'.kernel.interest fd' = if fd' = fd then some mask else w.kernel.interest fd')
    {hist : List Obs} (hsame : SameRecords w.history hist)
    (hhist : w'.history = .ctl .add fd mask true :: hist) : Recorded w' where
  registered_eq fd' := by
    rw [hhist, hint, registered_add, hsame.registered, h.registered_eq]
    by_cases heq : fd' = fd
    · simp [heq]
    · simp [heq, Ne.symm heq]
  destination_mask fd' hdest hopen := by
    rw [hhist, destination_ctl, hsame.destination] at hdest
    rw [hhist, destinationClosed_ctl, hsame.destinationClosed] at hopen
    have hmask := h.destination_mask fd' hdest hopen
    have hne : fd' ≠ fd := by
      rintro rfl
      rw [hnew] at hmask
      cases hmask
    rw [hint, if_neg hne]
    exact hmask

/-- What is registered stays so, and nothing is recorded. -/
theorem keeps (h : Recorded w) (hint : w'.kernel.interest = w.kernel.interest)
    (hsame : SameRecords w.history w'.history) : Recorded w' where
  registered_eq fd := by rw [hsame.registered, hint]; exact h.registered_eq fd
  destination_mask fd hdest hopen := by
    rw [hint]
    exact h.destination_mask fd (hsame.destination ▸ hdest) (hsame.destinationClosed ▸ hopen)

/-- The mask of a registered descriptor is replaced by the send that is addressed to it. -/
theorem mods (h : Recorded w) {socket : Fd} {data : List Byte}
    (hreg : (w.kernel.interest socket).isSome)
    (hkernel : w'.kernel = w.kernel.ctl .mod socket EPOLLOUT)
    (hhist : w'.history = .sendReturned socket data 0 :: .ctl .mod socket EPOLLOUT true :: w.history) :
    Recorded w' where
  registered_eq fd := by
    rw [hhist, hkernel, Kernel.interest_mod, registered_sendReturned, registered_mod, h.registered_eq]
    by_cases heq : fd = socket
    · simp [heq, hreg]
    · simp [heq]
  destination_mask fd hdest _ := by
    rw [hhist, destination_accepted] at hdest
    rw [hkernel, Kernel.interest_mod, if_pos (Option.some.inj hdest).symm]

/-- A descriptor is closed. -/
theorem closes (h : Recorded w) {fd : Fd} {mask : EventMask} {hist : List Obs}
    (hkernel : w'.kernel = (w.kernel.closeFile fd).ctl .del fd mask)
    (hsame : SameRecords w.history hist)
    (hhist : w'.history = .ctl .del fd mask true :: .closed fd :: hist) : Recorded w' where
  registered_eq fd' := by
    rw [hhist, hkernel, Kernel.interest_del, Kernel.interest_closeFile, registered_del, registered_closed,
      hsame.registered, h.registered_eq]
    by_cases heq : fd' = fd
    · simp [heq]
    · simp [heq, Ne.symm heq]
  destination_mask fd' hdest hopen := by
    have hdest' : destination w.history = some fd' := by
      rw [hhist, destination_ctl, destination_closed, hsame.destination] at hdest
      exact hdest
    rw [hhist, destinationClosed_ctl, destinationClosed_closed, hsame.destination, hsame.destinationClosed,
      hdest', Bool.or_eq_false_iff] at hopen
    have hne : fd' ≠ fd := by simpa using hopen.1
    rw [hkernel, Kernel.interest_del, Kernel.interest_closeFile, if_neg hne, if_neg hne]
    exact h.destination_mask fd' hdest' hopen.2

theorem step (hK : K.Strict) (h : Recorded w) (hreg : Registry w) (hs : KernelOutcome K w a w')
    (hexit : w'.exited = false) : Recorded w' := by
  cases hs with
  | quiet hkeeps hserver hkernel hadds haccept hreceive =>
    obtain ⟨pre, hpre, hhist⟩ := hadds
    refine h.keeps (by rw [hkernel]) ?_
    rw [hhist]
    exact sameRecords_append hpre _
  | registers fd kind mask pre hkeeps hcb hkind hfresh hctl hkernel hpre hhist =>
    have hsame := (sameRecords_opened fd kind w.history).trans (sameRecords_append hpre _)
    refine h.adds (hreg.interest_of_fresh hfresh) (fun fd' => ?_) hsame hhist
    rw [hkernel, Kernel.interest_add, Kernel.interest_openFile]
  | accepts server client o hkeeps hserver hcb hfresh hkernel ho hhist =>
    have hsame := (sameRecords_opened client .stream w.history).trans (sameRecords_cons _ _ ho)
    refine h.keeps (by rw [hkernel, Kernel.interest_openFile]) ?_
    rw [hhist]
    exact hsame
  | returns server client hkeeps hserver hcb hcb' hctl hkernel hhist =>
    refine h.adds (hreg.accepting server client hcb).2 (fun fd' => ?_) (.refl _) hhist
    rw [hkernel, Kernel.interest_add]
  | mods socket data ans ha hkeeps hserver hcb hidle hmalloc hctl hkernel hhist =>
    have hmod : CtlOp.mod ≠ .del := nofun
    exact h.mods (Kernel.ctlLegal_mod.mp (hK.ctl _ _ _ _ hmod hctl).symm).2 hkernel hhist
  | closes ev rest pre hkeeps hserver hev hbatch hcb hctl hkernel hpre hhist =>
    exact h.closes hkernel (sameRecords_append hpre _) hhist
  | waits evs hwait hw' => rw [hw']; exact { h with }
  | exit hexit' => rw [hexit] at hexit'; cases hexit'

/-- The addressee of the last send is waited for to become writable, as long as it is open. -/
theorem writable (h : Recorded w) {fd : Fd} (hdest : destination w.history = some fd)
    (hopen : destinationClosed w.history = false) :
    ∃ mask, w.kernel.interest fd = some mask ∧ mask &&& EPOLLOUT ≠ 0 :=
  ⟨EPOLLOUT, h.destination_mask fd hdest hopen, by decide⟩

end Recorded

section Step

/-- What an accepted send does to the kernel and to the history. -/
theorem AcceptedSend.outcome {socket : Fd} (h : AcceptedSend w a socket)
    (hout : Outcome documented w a w') : w'.exited = w.exited ∧
      w'.kernel = w.kernel.ctl .mod socket EPOLLOUT ∧
      ∃ data, w'.history = .sendReturned socket data 0 :: .ctl .mod socket EPOLLOUT true :: w.history := by
  obtain ⟨data, ans, rfl, hidle, hmalloc, hlegal⟩ := h
  cases hout with
  | sendRejected _ _ _ hbusy =>
    rw [hidle] at hbusy
    cases hbusy
  | sendAccepted => exact ⟨rfl, rfl, data, rfl⟩
  | exit _ _ hcan =>
    rcases hcan.2 with hm | hm | hctl
    · rw [hmalloc.1] at hm
      cases hm
    · rw [hmalloc.2] at hm
      cases hm
    · simp [documented, hlegal] at hctl

/-- A connection is readable after it has been registered. -/
theorem readable_of_add (h : InterestSet w) {fd : Fd} {mask : EventMask} (hmask : mask &&& EPOLLIN ≠ 0)
    (hfiles : ∀ fd', fd' ≠ fd → w'.kernel.files fd' = some .stream → w.kernel.files fd' = some .stream)
    (hint : ∀ fd', w'.kernel.interest fd' = if fd' = fd then some mask else w.kernel.interest fd')
    {hist : List Obs} (hsame : SameRecords w.history hist)
    (hhist : w'.history = .ctl .add fd mask true :: hist) :
    ∀ fd', w'.kernel.files fd' = some .stream → registered fd' w'.history →
      ∃ mask, w'.kernel.interest fd' = some mask ∧ mask &&& EPOLLIN ≠ 0 := by
  intro fd' hfile hreg
  rw [hint]
  by_cases heq : fd' = fd
  · rw [if_pos heq]
    exact ⟨mask, rfl, hmask⟩
  · rw [if_neg heq]
    rw [hhist, registered_add, hsame.registered] at hreg
    exact h.readable fd' (hfiles fd' heq hfile) (by simpa [Ne.symm heq] using hreg)

/-- A step that is no accepted send leaves every connection readable. -/
theorem readable_step (h : InterestSet w) (hrec : Recorded w) (hreg : Registry w)
    (hs : KernelOutcome K w a w') (hexit : w'.exited = false)
    (hno : ∀ socket, w'.kernel = w.kernel.ctl .mod socket EPOLLOUT → ¬ AcceptedSend w a socket)
    (hK : K.Strict) :
    ∀ fd, w'.kernel.files fd = some .stream → registered fd w'.history →
      ∃ mask, w'.kernel.interest fd = some mask ∧ mask &&& EPOLLIN ≠ 0 := by
  cases hs with
  | quiet hkeeps hserver hkernel hadds haccept hreceive =>
    obtain ⟨pre, hpre, hhist⟩ := hadds
    intro fd hfile hr
    rw [hhist, (sameRecords_append hpre _).registered] at hr
    rw [hkernel] at hfile ⊢
    exact h.readable fd hfile hr
  | registers fd kind mask pre hkeeps hcb hkind hfresh hctl hkernel hpre hhist =>
    have hsame := (sameRecords_opened fd kind w.history).trans (sameRecords_append hpre _)
    have hmask : mask &&& EPOLLIN ≠ 0 := by
      rcases hkind with ⟨-, rfl, -⟩ | ⟨-, rfl, -⟩
      · decide
      · decide
    refine readable_of_add h hmask ?_ (fun fd' => ?_) hsame hhist
    · intro fd' hne hfile
      rw [hkernel, Kernel.files_ctl, Kernel.files_openFile, if_neg hne] at hfile
      exact hfile
    · rw [hkernel, Kernel.interest_add, Kernel.interest_openFile]
  | accepts server client o hkeeps hserver hcb hfresh hkernel ho hhist =>
    have hsame := (sameRecords_opened client .stream w.history).trans (sameRecords_cons _ _ ho)
    intro fd hfile hr
    rw [hhist, hsame.registered] at hr
    rw [hkernel, Kernel.interest_openFile]
    -- the new connection is not registered before its callback returns
    have hne : fd ≠ client := by
      rintro rfl
      rw [hrec.registered_eq, hreg.interest_of_fresh hfresh] at hr
      cases hr
    rw [hkernel, Kernel.files_openFile, if_neg hne] at hfile
    exact h.readable fd hfile hr
  | returns server client hkeeps hserver hcb hcb' hctl hkernel hhist =>
    have hmask : (EPOLLIN ||| EPOLLOUT) &&& EPOLLIN ≠ 0 := by decide
    refine readable_of_add h hmask ?_ (fun fd' => ?_) (.refl _) hhist
    · intro fd' _ hfile
      rw [hkernel, Kernel.files_ctl] at hfile
      exact hfile
    · rw [hkernel, Kernel.interest_add]
  | mods socket data ans ha hkeeps hserver hcb hidle hmalloc hctl hkernel hhist =>
    have hmod : CtlOp.mod ≠ .del := nofun
    exact absurd ⟨data, ans, ha, hidle, hmalloc, (hK.ctl _ _ _ _ hmod hctl).symm⟩ (hno socket hkernel)
  | closes ev rest pre hkeeps hserver hev hbatch hcb hctl hkernel hpre hhist =>
    intro fd hfile hr
    rw [hkernel, Kernel.files_ctl, Kernel.files_closeFile] at hfile
    split_ifs at hfile with heq
    rw [hhist, registered_del, registered_closed, (sameRecords_append hpre _).registered] at hr
    rw [hkernel, Kernel.interest_del, Kernel.interest_closeFile, if_neg heq, if_neg heq]
    exact h.readable fd hfile (by simpa [Ne.symm heq] using hr)
  | waits evs hwait hw' =>
    rw [hw']
    exact h.readable
  | exit hexit' => rw [hexit] at hexit'; cases hexit'

/-- A step that is taken leaves the interest sets complete exactly when it is no send on a connection. -/
theorem interestSet_step (h : InterestSet w) (hrec : Recorded w) (hreg : Registry w)
    (hout : Outcome documented w a w') (hrunning : w.exited = false) :
    (w'.exited = false → InterestSet w') ↔ ¬ SendsOnConnection w a := by
  by_cases hsend : ∃ socket, AcceptedSend w a socket
  · obtain ⟨socket, hsend⟩ := hsend
    obtain ⟨hexit, hkernel, data, hhist⟩ := hsend.outcome hout
    rw [hrunning] at hexit
    have hregistered : (w.kernel.interest socket).isSome := by
      obtain ⟨-, -, -, -, -, hlegal⟩ := hsend
      exact (Kernel.ctlLegal_mod.mp hlegal).2
    have hrec' := hrec.mods hregistered hkernel hhist
    constructor
    · rintro hset ⟨socket', hsend', hfile⟩
      obtain rfl : socket = socket' := by
        obtain ⟨data, ans, rfl, -⟩ := hsend
        obtain ⟨data', ans', ha, -⟩ := hsend'
        exact (Action.send.inj ha).1
      have hr : registered socket w'.history := by rw [hrec'.registered_eq, hkernel]; simp
      obtain ⟨mask, hmask, hin⟩ := (hset hexit).readable socket (by rw [hkernel]; simpa using hfile) hr
      rw [hkernel, Kernel.interest_mod, if_pos rfl] at hmask
      obtain rfl := Option.some.inj hmask
      exact hin (by decide)
    · intro hno _
      refine ⟨fun fd hfile hr => ?_, fun req fd _ hdest hopen => hrec'.writable hdest hopen⟩
      rw [hkernel, Kernel.files_ctl] at hfile
      have hne : fd ≠ socket := by
        rintro rfl
        exact hno ⟨fd, hsend, hfile⟩
      rw [hkernel, Kernel.interest_mod, if_neg hne]
      rw [hhist] at hr
      exact h.readable fd hfile (by simpa using hr)
  · have hno : ∀ socket, ¬ AcceptedSend w a socket := fun socket hs => hsend ⟨socket, hs⟩
    refine ⟨fun _ ⟨socket, hs, _⟩ => hno socket hs, fun _ hexit => ?_⟩
    have hs := hout.kernelOutcome
    have hrec' := hrec.step documented_strict hreg hs hexit
    exact ⟨readable_step h hrec hreg hs hexit (fun socket _ => hno socket) documented_strict,
      fun req fd _ hdest hopen => hrec'.writable hdest hopen⟩

end Step

/-- Along a run all interest sets are complete in every state exactly when nothing is sent on a
    connection. -/
theorem interestSet_iff_no_send (hstart : Started documented w₀)
    (hrun : (machine documented).run w₀ as = some w) :
    (machine documented).AllStates (fun v => v.exited = false → InterestSet v) w₀ as ↔
      (machine documented).AllSteps (fun v a => ¬ SendsOnConnection v a) w₀ as := by
  obtain ⟨k, e, rd, wr, hk, rfl⟩ := hstart.eq_started
  have hint : ∀ fd, (started k e rd wr).kernel.interest fd = if fd = rd then some EPOLLIN else none := by
    intro fd
    simp [started, hk.interest]
  have hrec : Recorded (started k e rd wr) := by
    refine ⟨fun fd => ?_, by simp [started, destination]⟩
    rw [hint]
    by_cases heq : fd = rd
    · simp [heq, started, registered]
    · simp [heq, started, registered, Ne.symm heq]
  have hset : InterestSet (started k e rd wr) := by
    refine ⟨fun fd _ hr => ?_, fun req fd hreq => by cases hreq⟩
    rw [hrec.registered_eq] at hr
    obtain ⟨mask, hmask⟩ := Option.isSome_iff_exists.mp hr
    refine ⟨mask, hmask, ?_⟩
    rw [hint] at hmask
    split_ifs at hmask
    obtain rfl := Option.some.inj hmask
    decide
  have hJ : ∀ s a s', (s.exited = false → Registry s ∧ Recorded s) → (machine documented).step s a = some s' →
      s'.exited = false → Registry s' ∧ Recorded s' := by
    intro s a s' hs ha hexit
    obtain ⟨hreg, hrec⟩ := hs (step_outcome ha).1
    have hout := step_kernelOutcome ha
    exact ⟨hreg.step documented_strict hout hexit, hrec.step documented_strict hreg hout hexit⟩
  have hP : ∀ s a s', (s.exited = false → Registry s ∧ Recorded s) → (s.exited = false → InterestSet s) →
      (machine documented).step s a = some s' →
      ((s'.exited = false → InterestSet s') ↔ ¬ SendsOnConnection s a) := by
    intro s a s' hs hset ha
    have hstep : step documented s a = some s' := ha
    obtain ⟨hrunning, hout⟩ := step_outcome hstep
    obtain ⟨hreg, hrec⟩ := hs hrunning
    exact interestSet_step (hset hrunning) hrec hreg hout hrunning
  exact Machine.allStates_iff_allSteps hJ hP (fun _ => ⟨hk.registry, hrec⟩) (fun _ => hset) hrun

/-- A connection on which nothing is sent. -/
def idleConnection : List Action :=
  [.connect "127.0.0.1" 502 ⟨6, true, true⟩, .run, .wait (.events [⟨6, EPOLLIN⟩]), .event { read := some [1] }]

theorem idleConnection_interestSet : (machine documented).AllStates
    (fun v => v.exited = false → InterestSet v) stdioStart idleConnection := by
  have hsome : ((machine documented).run stdioStart idleConnection).isSome = true := rfl
  rw [interestSet_iff_no_send stdioStart_documented (Option.some_get hsome).symm]
  refine Machine.allSteps_of_forall (fun a ha v => ?_) stdioStart
  rintro ⟨socket, ⟨data, ans, rfl, -⟩, -⟩
  simp [idleConnection] at ha

/-- A connection on which one send is made. -/
theorem send_makes_deaf : ¬ ∀ w₀ as w, Started documented w₀ → (machine documented).run w₀ as = some w →
    (machine documented).AllStates (fun v => v.exited = false → InterestSet v) w₀ as := by
  intro h
  have hsome : ((machine documented).run stdioStart
      [.connect "127.0.0.1" 502 ⟨6, true, true⟩, .send 6 [1] {}]).isSome = true := rfl
  have hall := h _ _ _ stdioStart_documented (Option.some_get hsome).symm
  obtain ⟨mask, hmask, hin⟩ := ((hall.2 _ rfl).2 _ rfl rfl).readable 6 rfl rfl
  obtain rfl := Option.some.inj hmask
  exact hin (by decide)

end TagSim.Epoll
