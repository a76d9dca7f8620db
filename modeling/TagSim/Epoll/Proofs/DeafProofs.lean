import TagSim.Epoll.Proofs.InterestProofs

/-!
# A connection that has been sent on

A send leaves its connection registered for `EPOLLOUT` alone, and no other function of the source registers
it again. `Deaf` is what that makes of the connection: no readable event of it is ever reported, so that
it is neither read from nor closed for as long as the process lives.
-/

namespace TagSim.Epoll

/-- The observation is one of reading from the descriptor, of handing its bytes to the application or of
    closing it. -/
def Obs.readsOrCloses (fd : Fd) : Obs → Bool
  | .read fd' _ | .receiveCallback _ fd' _ _ | .closed fd' => fd' = fd
  | _ => false

/-- Where the descriptor has been read from or closed. -/
def readsAndCloses (fd : Fd) (h : List Obs) : List Obs := h.filter (Obs.readsOrCloses fd)

/-- No readable event of the connection is waiting to be handled. -/
def NoneReadable (fd : Fd) (batch : List Event) : Prop :=
  ∀ ev ∈ batch, ev.fd = fd → ev.events &&& EPOLLIN = 0

/-- The connection is open, but registered for `EPOLLOUT` alone. -/
structure Deaf (fd : Fd) (w : World) : Prop where
  file : w.kernel.files fd = some .stream
  interest : w.kernel.interest fd = some EPOLLOUT
  batch : NoneReadable fd w.batch

variable {K : KernelRules} {w₀ w w₁ w' : World} {a : Action} {as bs : List Action} {fd : Fd}

/-- Only what is in the interest mask is reported, apart from errors and hang-ups. -/
theorem Kernel.not_readable {k : Kernel} {evs : List Event} (h : k.batchLegal evs)
    (hint : k.interest fd = some EPOLLOUT) : NoneReadable fd evs := by
  intro ev hev hfd
  simp only [batchLegal, Bool.and_eq_true, List.all_eq_true] at h
  have hrep := h.1.1 ev hev
  rw [reports, hfd, hint] at hrep
  have hzero : ev.events &&& ~~~(EPOLLOUT ||| EPOLLERR ||| EPOLLHUP) = 0 := by simpa using hrep
  have hin : EPOLLIN = ~~~(EPOLLOUT ||| EPOLLERR ||| EPOLLHUP) &&& EPOLLIN := by decide
  rw [hin, ← BitVec.and_assoc, hzero]
  exact BitVec.zero_and

namespace Deaf

/-- The event that is taken for data is one of another descriptor. -/
theorem ne_of_data (h : Deaf fd w) {ev : Event} {rest : List Event} (hev : Dispatches w ev rest .data) :
    ev.fd ≠ fd := by
  intro hfd
  have hroute := hev.route
  unfold route at hroute
  split_ifs at hroute with hwake hserver hready
  exact hready (h.batch ev hev.mem hfd)

theorem of_kernel (h : Deaf fd w) (hfile : w'.kernel.files fd = w.kernel.files fd)
    (hint : w'.kernel.interest fd = w.kernel.interest fd) (hkeeps : Keeps w w') : Deaf fd w' where
  file := by rw [hfile]; exact h.file
  interest := by rw [hint]; exact h.interest
  batch ev hev := h.batch ev (hkeeps.batch.subset hev)

/-- No step makes the connection readable again. -/
theorem step (h : Deaf fd w) (hK : K.Strict) (hreg : Registry w) (hs : KernelOutcome K w a w')
    (hexit : w'.exited = false) : Deaf fd w' := by
  cases hs with
  | quiet hkeeps hserver hkernel =>
    refine h.of_kernel ?_ ?_ hkeeps
    all_goals rw [hkernel]
  | registers fd' kind mask pre hkeeps hcb hkind hfresh hctl hkernel =>
    have hne := Kernel.ne_of_fresh hfresh h.file
    refine h.of_kernel ?_ ?_ hkeeps
    · rw [hkernel, Kernel.files_ctl, Kernel.files_openFile, if_neg hne]
    · rw [hkernel, Kernel.interest_add, if_neg hne, Kernel.interest_openFile]
  | accepts server client o hkeeps hserver hcb hfresh hkernel =>
    have hne := Kernel.ne_of_fresh hfresh h.file
    refine h.of_kernel ?_ ?_ hkeeps
    · rw [hkernel, Kernel.files_openFile, if_neg hne]
    · rw [hkernel, Kernel.interest_openFile]
  | returns server client hkeeps hserver hcb hcb' hctl hkernel =>
    -- the connection that the accept callback was called for is not registered yet
    have hne : fd ≠ client := by
      rintro rfl
      have hnone := (hreg.accepting server fd hcb).2
      rw [h.interest] at hnone
      cases hnone
    refine h.of_kernel ?_ ?_ hkeeps
    · rw [hkernel, Kernel.files_ctl]
    · rw [hkernel, Kernel.interest_add, if_neg hne]
  | mods socket data ans ha hkeeps hserver hcb hidle hmalloc hctl hkernel =>
    refine h.of_kernel ?_ ?_ hkeeps
    · rw [hkernel, Kernel.files_ctl]
    · rw [hkernel, Kernel.interest_mod]
      split
      · exact h.interest.symm
      · rfl
  | closes ev rest pre hkeeps hserver hev hbatch hcb hctl hkernel =>
    have hne := (h.ne_of_data hev).symm
    refine h.of_kernel ?_ ?_ hkeeps
    · rw [hkernel, Kernel.files_ctl, Kernel.files_closeFile, if_neg hne]
    · rw [hkernel, Kernel.interest_del, if_neg hne, Kernel.interest_closeFile, if_neg hne]
  | waits evs hwait hw' =>
    rw [hw']
    exact ⟨h.file, h.interest, Kernel.not_readable (hK.wait _ _ hwait) h.interest⟩
  | exit hexit' =>
    rw [hexit] at hexit'
    cases hexit'

/-- No step reads from the connection or closes it. -/
theorem readsAndCloses_eq (h : Deaf fd w) (hout : Outcome K w a w') (hexit : w'.exited = false) :
    readsAndCloses fd w'.history = readsAndCloses fd w.history := by
  cases hout with
  | dataEnd ans ev rest pre hev hread hpre =>
    have hne := h.ne_of_data hev
    rcases hpre with rfl | rfl
    all_goals simp [readsAndCloses, Obs.readsOrCloses, hne]
  | dataUnread ans ev rest buf hev | dataCallback ans ev rest buf func hev =>
    have hne := h.ne_of_data hev
    simp [readsAndCloses, Obs.readsOrCloses, World.log, hne]
  | exit a w' hcan hexit' =>
    rw [hexit] at hexit'
    cases hexit'
  | _ => rfl

end Deaf

/-- A send that goes through makes a connection deaf. -/
theorem AcceptedSend.deaf (h : AcceptedSend w a fd) (hfile : w.kernel.files fd = some .stream)
    (hnone : NoneReadable fd w.batch) (hout : Outcome K w a w') (hexit : w'.exited = false) :
    Deaf fd w' ∧ readsAndCloses fd w'.history = readsAndCloses fd w.history := by
  obtain ⟨data, ans, rfl, hidle, hmalloc, hlegal⟩ := h
  cases hout with
  | sendRejected _ _ _ hbusy =>
    rw [hidle] at hbusy
    cases hbusy
  | sendAccepted =>
    refine ⟨⟨?_, ?_, hnone⟩, rfl⟩
    · rw [Kernel.files_ctl]
      exact hfile
    · rw [Kernel.interest_mod, if_pos rfl]
  | exit _ _ _ hexit' =>
    rw [hexit] at hexit'
    cases hexit'

/-- After a send on a connection that has no readable event waiting, the connection is neither read from nor
    closed in any continuation of the run. -/
theorem deaf_after_send (hK : K.Strict) (hstart : Started K w₀) (hrun : (machine K).run w₀ as = some w)
    (hsend : AcceptedSend w a fd) (hfile : w.kernel.files fd = some .stream)
    (hnone : NoneReadable fd w.batch) (hafter : (machine K).run w (a :: bs) = some w')
    (hexit : w'.exited = false) :
    readsAndCloses fd w'.history = readsAndCloses fd w.history ∧ w'.kernel.files fd = some .stream ∧
      w'.kernel.interest fd = some EPOLLOUT := by
  obtain ⟨w₁, hfirst, hafter⟩ := Machine.run_cons_some hafter
  -- the process is alive in every state before the last one
  have hinv : w'.exited = false → Registry w' ∧ Deaf fd w' ∧
      readsAndCloses fd w'.history = readsAndCloses fd w.history := by
    refine Machine.run_preserves (I := fun v => v.exited = false → Registry v ∧ Deaf fd v ∧
      readsAndCloses fd v.history = readsAndCloses fd w.history) (fun s b s' hs hb halive => ?_)
      (fun halive => ?_) hafter
    · have hstep : step K s b = some s' := hb
      obtain ⟨hbefore, hout⟩ := step_outcome hstep
      obtain ⟨hreg, hdeaf, heq⟩ := hs hbefore
      exact ⟨hreg.step hK hout.kernelOutcome halive, hdeaf.step hK hreg hout.kernelOutcome halive,
        (hdeaf.readsAndCloses_eq hout halive).trans heq⟩
    · have hstep : step K w a = some w₁ := hfirst
      have hreg := step_registry hK (run_registry hK hstart hrun) hfirst halive
      exact ⟨hreg, hsend.deaf hfile hnone (step_outcome hstep).2 halive⟩
  obtain ⟨-, hdeaf, heq⟩ := hinv hexit
  exact ⟨heq, hdeaf.file, hdeaf.interest⟩

/-- The connection is sent on, and the send is written. -/
def answerOnce : List Action :=
  [.send 6 [2, 3] {}, .wait (.events [⟨6, EPOLLOUT⟩]), .event { write := 2 }, .wait (.events [⟨6, EPOLLOUT⟩]),
    .event {}]

/-- The history of the example: one read, and none after the send. -/
theorem deaf_after_send_answerOnce : ∃ w w', (machine documented).run stdioStart idleConnection = some w ∧
    (machine documented).run w answerOnce = some w' ∧ readsAndCloses 6 w.history = [.read 6 1] ∧
    (readsAndCloses 6 w'.history = readsAndCloses 6 w.history ∧ w'.kernel.files 6 = some .stream ∧
      w'.kernel.interest 6 = some EPOLLOUT) := by
  have hsome : ((machine documented).run stdioStart idleConnection).isSome = true := rfl
  have hrun := (Option.some_get hsome).symm
  have hsome' : ((machine documented).run (((machine documented).run stdioStart idleConnection).get hsome)
      answerOnce).isSome = true := rfl
  have hafter := (Option.some_get hsome').symm
  have hsend :
      AcceptedSend (((machine documented).run stdioStart idleConnection).get hsome) (.send 6 [2, 3] {}) 6 :=
    ⟨[2, 3], {}, rfl, rfl, ⟨rfl, rfl⟩, rfl⟩
  have hnone : NoneReadable 6 (((machine documented).run stdioStart idleConnection).get hsome).batch := nofun
  exact ⟨_, _, hrun, hafter, rfl,
    deaf_after_send documented_strict stdioStart_documented hrun hsend rfl hnone hafter rfl⟩

end TagSim.Epoll
