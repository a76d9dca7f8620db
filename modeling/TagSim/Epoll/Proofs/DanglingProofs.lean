import TagSim.Epoll.Proofs.HeapProofs
import TagSim.Runs.Proofs.SilentProofs

/-!
# Cleaning up while a send is pending

`proactor_tcp_epoll_cleanup` frees a pending send request but leaves the pointer as it is, and no other
function clears it without touching what it points to. From then on every send is rejected, in the next
initialisation too, and the first step that uses the request touches freed memory.
-/

namespace TagSim.Epoll

/-- The observation is one of a send that is accepted, written or completed. -/
def Obs.transfers : Obs → Bool
  | .write .. | .sendCompleteCallback .. => true
  | .sendReturned _ _ ret => ret = 0
  | _ => false

/-- What was accepted, written and completed. -/
def transfers (h : List Obs) : List Obs := h.filter Obs.transfers

theorem transfers_append {pre : List Obs} (hpre : ∀ o ∈ pre, o.Silent) (h : List Obs) :
    transfers (pre ++ h) = transfers h := by
  refine append_silent (P := Obs.Silent) (fun o h ho => ?_) hpre h
  cases o with
  | write | sendCompleteCallback | setSendComplete | sendReturned => exact ho.elim
  | _ => rfl

variable {K : KernelRules}

/-- A step that is neither a send nor a write event sends nothing. -/
theorem Outcome.transfers_eq {w w' : World} {a : Action} (h : Outcome K w a w')
    (hsend : ∀ socket data ans, a ≠ .send socket data ans)
    (hwrite : ∀ ans ev rest, a = .event ans → ¬ Dispatches w ev rest .write) :
    transfers w'.history = transfers w.history := by
  cases h with
  | sendRejected socket data ans | sendAccepted socket data ans => exact absurd rfl (hsend socket data ans)
  | writeIdle ans ev rest hev | writeFailed ans ev rest req hev | writePartial ans ev rest req k hev
    | writeFinished ans ev rest req k hev | writeCallback ans ev rest req k func hev =>
    exact absurd hev (hwrite ans ev rest rfl)
  | dataEnd ans ev rest pre hev hread hpre =>
    rcases hpre with rfl | rfl
    · rfl
    · rfl
  | exit a w' hcan hexit hsilent =>
    obtain ⟨pre, hpre, hhist⟩ := hsilent
    rw [hhist]
    exact transfers_append hpre _
  | _ => rfl

namespace Process

/-- The heap is empty, but the pointer is not null. -/
inductive Dangling : Process → Prop
  | mk (w r) (hr : r ≠ null) : Dangling { world := w, currentSendRequest := r }

/-- The step uses the send request: it cleans up, handles a write event or ends the send-complete callback. -/
def UsesRequest (p : Process) : Action → Prop
  | .cleanup => True
  | .call (.event _) _ => ∃ ev rest, Dispatches p.world ev rest .write
  | .call (.callbackReturn _) _ => ∃ fd, p.world.callback = some (.sendComplete fd)
  | _ => False

variable {p p' p'' : Process} {a : Action} {bs : List Action}

/-- Cleaning up while a send is pending frees it, and keeps the pointer. -/
theorem Whole.cleanup_eq (hp : Whole p) (hpending : p.currentSendRequest ≠ null) : p.cleanup =
    { world := proactorTcpEpollCleanup p.world, currentSendRequest := p.currentSendRequest } := by
  cases hp with
  | idle w => exact absurd rfl hpending
  | sending w r block buf hr =>
    simp only [cleanup, if_neg hr, free, Heap.load_holding, Heap.free_holding]

theorem transfers_cleanup (w : World) :
    transfers (proactorTcpEpollCleanup w).history = transfers w.history := by
  unfold proactorTcpEpollCleanup
  by_cases hs : w.serverSocket = -1 <;> by_cases hc : w.clientSocket = -1 <;>
    by_cases hw : w.wakeupFds.1 = -1 <;>
    simp [World.closeFile, transfers, Obs.transfers, hs, hc, hw]

namespace Dangling

theorem with_world (hp : Dangling p) (w : World) : Dangling { p with world := w } := by
  cases hp with
  | mk _ r hr => exact .mk w r hr

theorem not_faulted (hp : Dangling p) : p.faulted = false := by
  cases hp with
  | mk => rfl

theorem free_faulted (hp : Dangling p) : p.free.faulted = true := by
  cases hp with
  | mk => rfl

/-- What uses the request touches freed memory. -/
theorem faults (hp : Dangling p) (huses : UsesRequest p a) (h : step K p a = some p') :
    p'.faulted = true := by
  unfold Process.step at h
  split_ifs at h
  cases a with
  | init => exact huses.elim
  | cleanup =>
    obtain rfl := Option.some.inj h
    cases hp with
    | mk w r hr =>
      rw [cleanup, if_neg hr]
      rfl
  | call a mallocs =>
    cases a with
    | event ans =>
      obtain ⟨ev, rest, hev⟩ := huses
      simp only at h
      rw [call_event hev.callback hev.batch, if_pos hev.route] at h
      cases hp with
      | mk w r hr =>
        unfold handleWriteEvent at h
        rw [if_neg hr] at h
        obtain rfl := Option.some.inj h
        rfl
    | callbackReturn ctl =>
      obtain ⟨fd, hcb⟩ := huses
      simp only at h
      rw [call_sendComplete hcb] at h
      obtain rfl := Option.some.inj h
      exact (hp.with_world _).free_faulted
    | _ => exact huses.elim

/-- What does not use the request does not send anything either. -/
theorem keeps (hp : Dangling p) (hno : ¬ UsesRequest p a) (h : step K p a = some p') :
    Dangling p' ∧ transfers p'.world.history = transfers p.world.history := by
  have hmap : ∀ (o : Option World), (∀ w, o = some w → transfers w.history = transfers p.world.history) →
      o.map (fun w => { p with world := w }) = some p' →
      Dangling p' ∧ transfers p'.world.history = transfers p.world.history := by
    intro o ho hmapped
    obtain ⟨w, hw, rfl⟩ := Option.map_eq_some_iff.mp hmapped
    exact ⟨hp.with_world w, ho w hw⟩
  unfold Process.step at h
  split_ifs at h with hend
  cases a with
  | init ans =>
    refine hmap _ (fun w hw => ?_) h
    obtain ⟨pre, hpre, hhist⟩ := (init_cases hw).1
    rw [hhist]
    exact transfers_append hpre _
  | cleanup => exact absurd trivial hno
  | call a mallocs =>
    simp only at h
    by_cases hplain : a.Plain
    · rw [call_plain hplain] at h
      refine hmap _ (fun w hw => (step_outcome hw).2.transfers_eq ?_ ?_) h
      · rintro socket data ans rfl
        exact hplain.elim
      · rintro ans ev rest rfl
        exact hplain.elim
    · cases a with
      | send socket data ans =>
        have hnull : p.currentSendRequest ≠ null := by
          cases hp with
          | mk w r hr => exact hr
        simp only [Process.call] at h
        split_ifs at h
        unfold Process.send at h
        rw [if_pos hnull] at h
        obtain rfl := Option.some.inj h
        exact ⟨hp.with_world _, rfl⟩
      | event ans =>
        obtain ⟨ev, rest, hcb, hbatch⟩ := call_ready h
        have hroute : route p.world ev ≠ .write := fun hr => hno ⟨ev, rest, hcb, hbatch, hr⟩
        rw [call_event hcb hbatch, if_neg hroute] at h
        refine hmap _ (fun w hw => (event_outcome hcb hbatch hw).transfers_eq (by simp) ?_) h
        rintro _ ev' rest' - hev
        obtain ⟨rfl, -⟩ := List.cons.inj (hev.batch.symm.trans hbatch)
        exact hroute hev.route
      | callbackReturn ctl =>
        have hother : ∀ fd, p.world.callback ≠ some (.sendComplete fd) := fun fd hcb => hno ⟨fd, hcb⟩
        rw [call_return hother] at h
        refine hmap _ (fun w hw => ?_) h
        exact (step_outcome hw).2.transfers_eq (by simp) (by simp)
      | _ => exact absurd trivial hplain

end Dangling

/-- The process has touched freed memory, or can still do so, and has sent nothing since. -/
def LostRequest (h : List Obs) (p : Process) : Prop :=
  p.faulted = true ∨ Dangling p ∧ transfers p.world.history = transfers h

theorem LostRequest.step {h : List Obs} (hp : LostRequest h p) (hs : step K p a = some p') :
    LostRequest h p' ∧ (p'.faulted = false ↔ p.faulted = false ∧ ¬ UsesRequest p a) := by
  rcases hp with hfault | ⟨hp, hsame⟩
  · unfold Process.step at hs
    rw [hfault, Bool.or_true, if_pos rfl] at hs
    cases hs
  · by_cases huses : UsesRequest p a
    · have hfault := hp.faults huses hs
      exact ⟨Or.inl hfault, by simp [hfault, huses]⟩
    · obtain ⟨hp', hsame'⟩ := hp.keeps huses hs
      exact ⟨Or.inr ⟨hp', hsame'.trans hsame⟩, by simp [hp.not_faulted, hp'.not_faulted, huses]⟩

/-- After a cleanup with a send pending, a process touches freed memory exactly when one of its steps uses
    the request. As long as none does, nothing is accepted, written or completed. -/
theorem cleanup_pending {k : Kernel} {as : List Action} (hrun : (machine K).run (boot k) as = some p)
    (hidle : (machine K).AllSteps CleansUpIdle (boot k) as) (hpending : p.currentSendRequest ≠ null)
    (hafter : (machine K).run p (.cleanup :: bs) = some p') :
    (p'.faulted = false ↔ (machine K).AllSteps (fun q a => ¬ UsesRequest q a) p.cleanup bs) ∧
      (p'.faulted = false → transfers p'.world.history = transfers p.world.history) := by
  obtain ⟨q, hclean, hafter⟩ := Machine.run_cons_some hafter
  obtain rfl : p.cleanup = q := by
    have hstep : step K p .cleanup = some q := hclean
    unfold Process.step at hstep
    split_ifs at hstep
    exact Option.some.inj hstep
  have hwhole := (run_whole hrun hidle).1
  have hdangling : Dangling p.cleanup := by
    rw [hwhole.cleanup_eq hpending]
    exact .mk _ _ hpending
  have hlost : LostRequest p.world.history p.cleanup := by
    refine Or.inr ⟨hdangling, ?_⟩
    rw [hwhole.cleanup_eq hpending]
    exact transfers_cleanup p.world
  have hiff := Machine.run_iff_allSteps (J := LostRequest p.world.history)
    (fun _ _ _ hs h => (hs.step h).1) (fun _ _ _ hs h => (hs.step h).2) hlost hafter
  have hend := Machine.run_preserves (M := machine K) (I := LostRequest p.world.history)
    (fun _ _ _ hs h => (hs.step h).1) hlost hafter
  refine ⟨?_, fun hfault => ?_⟩
  · rw [hiff]
    exact and_iff_right hdangling.not_faulted
  · rcases hend with hfault' | ⟨-, hsame⟩
    · rw [hfault] at hfault'
      cases hfault'
    · exact hsame

/-- A send that nothing has been written of yet. -/
def sendPending : List Action :=
  [.init ⟨3, some (4, 5), true⟩, .call (.connect "127.0.0.1" 502 ⟨6, true, true⟩) (0, 0),
    .call (.send 6 [1, 2, 3] {}) (16, 32)]

/-- The proactor is initialised again, and a send is made on a new connection. -/
def startAgain : List Action :=
  [.init ⟨3, some (4, 5), true⟩, .call (.connect "127.0.0.1" 502 ⟨6, true, true⟩) (0, 0),
    .call (.send 6 [4] {}) (16, 32)]

theorem cleanup_pending_startAgain : ∃ p p', (machine documented).run (boot stdioKernel) sendPending = some p ∧
    (machine documented).run p (.cleanup :: startAgain) = some p' ∧ p'.faulted = false ∧
    ((p'.faulted = false ↔ (machine documented).AllSteps (fun q a => ¬ UsesRequest q a) p.cleanup startAgain) ∧
      (p'.faulted = false → transfers p'.world.history = transfers p.world.history)) := by
  have hsome : ((machine documented).run (boot stdioKernel) sendPending).isSome = true := rfl
  have hrun := (Option.some_get hsome).symm
  have hsome' : ((machine documented).run (((machine documented).run (boot stdioKernel) sendPending).get hsome)
      (.cleanup :: startAgain)).isSome = true := rfl
  have hafter := (Option.some_get hsome').symm
  have hbefore : ∀ a ∈ sendPending, ∀ p, CleansUpIdle p a := by
    rintro a ha p rfl
    simp [sendPending] at ha
  have hne : (16 : Ptr) ≠ null := by decide
  exact ⟨_, _, hrun, hafter, rfl, cleanup_pending hrun (Machine.allSteps_of_forall hbefore _) hne hafter⟩

end Process

end TagSim.Epoll
