import TagSim.Epoll.Proofs.ThreadsProofs
import TagSim.Runs.Proofs.AccountProofs

/-!
# Proofs: every wake-up counts once

A byte in the wake pipe is a wake-up that the event loop has not seen yet. No interleaving of the threads loses
one, makes one up or makes one of two: a pass of the event loop reads at most one byte. The bytes are those that the
history says were written and not read.
-/

namespace TagSim.Epoll.Threads

universe u

variable {ι : Type u} {K : KernelRules} {capacity : Nat} {t t' : Threads ι} {act : ThreadAction ι}

section Steps

/-- The batch and the wake pipe's descriptors that a step leads to, if the process goes on. -/
def Leaves (t t' : Threads ι) (batch : List Event) : Prop :=
  t'.world.exited = false → t'.world.batch = batch ∧ t'.world.wakeupFds = t.world.wakeupFds

/-- What a step of a thread does to the wake pipe and to the batch. -/
inductive PipeOutcome (K : KernelRules) (capacity : Nat) (t : Threads ι) (act : ThreadAction ι) (t' : Threads ι) :
    Prop
  | still (hwrites : t.writesWake act = 0) (hreads : t.readsWake act = 0) (hpipe : t'.pipe = t.pipe)
      (hleaves : Leaves t t' t.world.batch)
  | writes (hwrites : t.writesWake act = 1) (hreads : t.readsWake act = 0) (hroom : t.pipe.length < capacity)
      (hpipe : t'.pipe = t.pipe ++ [1]) (hleaves : Leaves t t' t.world.batch)
  | begins (evs : List Event) (hact : act = .wait (.events evs)) (hwait : K.wait t.world.kernel evs)
      (hpipe : t'.pipe = t.pipe) (hleaves : Leaves t t' evs)
  | reads (b : Byte) (ev : Event) (rest : List Event) (hwrites : t.writesWake act = 0)
      (hreads : t.readsWake act = 1) (hfd : ev.fd = t.world.wakeupFds.1) (hbatch : t.world.batch = ev :: rest)
      (hpipe : t.pipe = b :: t'.pipe) (hleaves : Leaves t t' rest)
  | handles (ev : Event) (rest : List Event) (hwrites : t.writesWake act = 0) (hreads : t.readsWake act = 0)
      (hbatch : t.world.batch = ev :: rest) (hpipe : t'.pipe = t.pipe) (hleaves : Leaves t t' rest)

theorem wait_pipeOutcome {ans : WaitAnswer} {w : World} (hwait : epollWait K ans t.world = some w) :
    PipeOutcome K capacity t (.wait ans) { t with world := w, waiting := false } := by
  cases epollWait_cases hwait with
  | events evs hlegal => exact .begins evs rfl hlegal rfl fun _ => ⟨rfl, rfl⟩
  | interrupted | failed => exact .still rfl rfl rfl fun _ => ⟨rfl, rfl⟩

/-- The batch after an event is its rest. -/
theorem leaves_rest {ans : EventAnswers} {ev : Event} {rest : List Event} {w : World}
    (hbatch : t.world.batch = ev :: rest) (hstep : Epoll.step K t.world (.event ans) = some w) (pipe : List Byte) :
    Leaves t { t with world := w, pipe := pipe } rest := fun hexit =>
  have hout := (step_outcome hstep).2
  ⟨hout.batch_of_event hexit hbatch, hout.wakeupFds_eq hexit⟩

/-- Every step of a thread has one of the outcomes listed. -/
theorem step_pipeOutcome [DecidableEq ι] (h : (machine K capacity).step t act = some t') :
    PipeOutcome K capacity t act t' := by
  cases step_cases h with
  | callWake | callStop | setStop | writeFails | returns | goesOn => exact .still rfl rfl rfl fun _ => ⟨rfl, rfl⟩
  | write i stops hpoint hroom => exact .writes rfl rfl hroom rfl fun _ => ⟨rfl, rfl⟩
  | wait ans w hwaiting hready hwait => exact wait_pipeOutcome hwait
  | readsWake ans ev rest b pipe w hnext hbatch hroute hpipe hstep =>
    exact .reads b ev rest rfl (by simp [readsWake, hnext, hroute]) (fd_of_route_wake hroute) hbatch hpipe
      (leaves_rest hbatch hstep pipe)
  | event ans ev rest w hnext hbatch hroute hstep =>
    exact .handles ev rest rfl (by simp [readsWake, hnext, hroute]) hbatch rfl (leaves_rest hbatch hstep t.pipe)
  | call a w hcall hstep =>
    have hout := (step_outcome hstep).2
    exact .still rfl rfl rfl fun hexit => ⟨hout.batch_of_call hexit hcall, hout.wakeupFds_eq hexit⟩

end Steps

section Promised

/-- How many of the events that are still to be handled are those of the wake pipe. -/
def wakeEvents (t : Threads ι) (batch : List Event) : Nat :=
  batch.countP fun ev => ev.fd = t.world.wakeupFds.1

/-- The reads from the wake pipe that the batch leads to, as long as the process goes on. -/
def promisedReads (t : Threads ι) : Nat := if t.world.exited then 0 else t.wakeEvents t.world.batch

theorem wakeEvents_rest_le {ev : Event} {rest : List Event} (hbatch : t.world.batch = ev :: rest) :
    t.wakeEvents rest ≤ t.wakeEvents t.world.batch := by
  rw [hbatch, wakeEvents, wakeEvents, List.countP_cons]
  exact Nat.le_add_right ..

/-- The wake pipe is reported at most once in a batch. -/
theorem wakeEvents_le_one {k : Kernel} {evs : List Event} (h : k.batchLegal evs) : t.wakeEvents evs ≤ 1 := by
  have hnodup : (evs.map Event.fd).Nodup := by
    simp only [Kernel.batchLegal, Bool.and_eq_true, decide_eq_true_eq] at h
    exact h.1.2
  have hcount : t.wakeEvents evs = (evs.map Event.fd).count t.world.wakeupFds.1 := by
    rw [wakeEvents, List.count, List.countP_map]
    rfl
  rw [hcount]
  exact List.nodup_iff_count_le_one.mp hnodup _

theorem Leaves.promisedReads_le {batch : List Event} (h : Leaves t t' batch) :
    t'.promisedReads ≤ t.wakeEvents batch := by
  unfold promisedReads
  split_ifs with hexit
  · exact Nat.zero_le _
  · obtain ⟨hbatch, hfds⟩ := h (Bool.eq_false_iff.mpr hexit)
    rw [wakeEvents, wakeEvents, hbatch, hfds]

/-- The event loop reads a byte for an event of the wake pipe, and a pass brings at most one such event. -/
theorem PipeOutcome.promised_le (hK : K.Strict) (h : PipeOutcome K capacity t act t')
    (halive : t.world.exited = false) :
    t'.promisedReads + t.readsWake act ≤ t.promisedReads + t.beginsPass act := by
  have hpromised : t.promisedReads = t.wakeEvents t.world.batch := if_neg (by simp [halive])
  cases h with
  | still hwrites hreads hpipe hleaves | writes hwrites hreads hroom hpipe hleaves =>
    have hle := hleaves.promisedReads_le
    omega
  | begins evs hact hwait hpipe hleaves =>
    subst hact
    have hle := hleaves.promisedReads_le
    have hone := wakeEvents_le_one (t := t) (hK.wait _ _ hwait)
    have hreads : t.readsWake (.wait (.events evs)) = 0 := rfl
    have hpass : t.beginsPass (.wait (.events evs)) = 1 := rfl
    omega
  | reads b ev rest hwrites hreads hfd hbatch hpipe hleaves =>
    have hle := hleaves.promisedReads_le
    have hcount : t.wakeEvents t.world.batch = t.wakeEvents rest + 1 := by
      rw [hbatch, wakeEvents, wakeEvents, List.countP_cons_of_pos (by simpa using hfd)]
    omega
  | handles ev rest hwrites hreads hbatch hpipe hleaves =>
    have hle := hleaves.promisedReads_le
    have hrest := wakeEvents_rest_le hbatch
    omega

/-- No batch has more than one event of the wake pipe. -/
theorem PipeOutcome.promisedReads_le_one (hK : K.Strict) (h : PipeOutcome K capacity t act t')
    (halive : t.world.exited = false) (hone : t.promisedReads ≤ 1) : t'.promisedReads ≤ 1 := by
  have hpromised : t.promisedReads = t.wakeEvents t.world.batch := if_neg (by simp [halive])
  cases h with
  | begins evs hact hwait hpipe hleaves =>
    exact Nat.le_trans hleaves.promisedReads_le (wakeEvents_le_one (hK.wait _ _ hwait))
  | still hwrites hreads hpipe hleaves | writes hwrites hreads hroom hpipe hleaves =>
    exact Nat.le_trans hleaves.promisedReads_le (hpromised ▸ hone)
  | reads b ev rest hwrites hreads hfd hbatch hpipe hleaves
  | handles ev rest hwrites hreads hbatch hpipe hleaves =>
    have hle := hleaves.promisedReads_le
    have hrest := wakeEvents_rest_le hbatch
    omega

/-- The pass under way leads to a read only where an event of the wake pipe is left. -/
theorem promisedReads_le_wakeLeft (hone : t.promisedReads ≤ 1) :
    t.promisedReads ≤ if t.wakeLeft then 1 else 0 := by
  by_cases hleft : t.wakeLeft = true
  · rw [if_pos hleft]
    exact hone
  · rw [if_neg hleft, promisedReads]
    split_ifs
    · exact Nat.le_refl 0
    · have hnone : t.wakeEvents t.world.batch = 0 := by
        rw [wakeEvents, List.countP_eq_zero]
        intro ev hev hfd
        exact hleft (List.any_eq_true.mpr ⟨ev, hev, hfd⟩)
      exact Nat.le_of_eq hnone

end Promised

section Pipe

/-- A step takes from the pipe what the event loop reads, and puts into it what a party writes. -/
theorem PipeOutcome.pipe_eq (h : PipeOutcome K capacity t act t') :
    t'.pipe.length + t.readsWake act = t.pipe.length + t.writesWake act := by
  cases h with
  | still hwrites hreads hpipe hleaves | handles ev rest hwrites hreads hbatch hpipe hleaves =>
    rw [hpipe, hreads, hwrites]
  | writes hwrites hreads hroom hpipe hleaves =>
    rw [hpipe, hreads, hwrites, List.length_append]
    rfl
  | begins evs hact hwait hpipe hleaves =>
    subst hact
    rw [hpipe]
    rfl
  | reads b ev rest hwrites hreads hfd hbatch hpipe hleaves =>
    rw [hpipe, hreads, hwrites, List.length_cons]

/-- A party writes only while there is room. -/
theorem PipeOutcome.length_le (h : PipeOutcome K capacity t act t') (hroom : t.pipe.length ≤ capacity) :
    t'.pipe.length ≤ capacity := by
  cases h with
  | still hwrites hreads hpipe hleaves | handles ev rest hwrites hreads hbatch hpipe hleaves
  | begins evs hact hwait hpipe hleaves => rwa [hpipe]
  | writes hwrites hreads hfree hpipe hleaves =>
    rw [hpipe, List.length_append]
    exact hfree
  | reads b ev rest hwrites hreads hfd hbatch hpipe hleaves =>
    rw [hpipe] at hroom
    exact Nat.le_of_succ_le hroom

end Pipe

section Unread

/-- The bytes that were written and not read are those that the history says. -/
theorem unread_of_call {w w' : World} {a : Action} (h : Outcome K w a w') (hexit : w'.exited = false)
    (hcall : a.isCall = true) : unread w'.history = unread w.history := by
  cases h with
  | exit a w' hcan hexit' hsilent =>
    rw [hexit] at hexit'
    cases hexit'
  | startServer | connect | sendRejected | sendAccepted | setReceiveCallback | setSendCompleteCallback
  | setAcceptCallback | run | returnAccept | returnReceive | returnSendComplete => rfl
  | _ => cases hcall

/-- The history says that a byte was read exactly where the event is one of the wake pipe. -/
theorem unread_of_event {w w' : World} {ans : EventAnswers} {ev₀ : Event} {rest₀ : List Event}
    (h : Outcome K w (.event ans) w') (hexit : w'.exited = false) (hbatch : w.batch = ev₀ :: rest₀) :
    unread w'.history = unread w.history - if route w ev₀ = .wake then 1 else 0 := by
  have hsame {ev : Event} {rest : List Event} {r : Route} (hev : Dispatches w ev rest r) : route w ev₀ = r := by
    rw [← (List.cons.inj (hev.batch.symm.trans hbatch)).1]
    exact hev.route
  cases h with
  | exit a w' hcan hexit' hsilent =>
    rw [hexit] at hexit'
    cases hexit'
  | eventWake ans ev rest hev =>
    rw [hsame hev]
    rfl
  | dataEnd ans ev rest pre hev hread hpre =>
    rw [hsame hev]
    rcases hpre with rfl | rfl <;> rfl
  | acceptFailed ans ev rest hev | acceptCallback ans ev rest func hev | acceptRegistered ans ev rest hev
  | dataUnread ans ev rest buf hev | dataCallback ans ev rest buf func hev | writeIdle ans ev rest hev
  | writeFailed ans ev rest req hev | writePartial ans ev rest req k hev | writeFinished ans ev rest req k hev
  | writeCallback ans ev rest req k func hev | ignored ans ev rest hev =>
    rw [hsame hev]
    rfl

/-- The pipe holds the bytes that the history says, as long as the process goes on. -/
def HoldsUnread (t : Threads ι) : Prop := t.world.exited = false → t.pipe.length = unread t.world.history

theorem HoldsUnread.step [DecidableEq ι] (hI : HoldsUnread t) (h : (machine K capacity).step t act = some t') :
    HoldsUnread t' := by
  intro hexit
  have hbefore := hI (step_alive h)
  cases step_cases h with
  | callWake | callStop | setStop | returns | goesOn => exact hbefore
  | write i stops hpoint hroom =>
    rw [List.length_append, hbefore]
    rfl
  | writeFails => cases hexit
  | wait ans w hwaiting hready hwait =>
    cases epollWait_cases hwait with
    | events | interrupted => exact hbefore
    | failed => cases hexit
  | readsWake ans ev rest b pipe w hnext hbatch hroute hpipe hstep =>
    rw [unread_of_event (step_outcome hstep).2 hexit hbatch, if_pos hroute, ← hbefore, hpipe]
    rfl
  | event ans ev rest w hnext hbatch hroute hstep =>
    rw [unread_of_event (step_outcome hstep).2 hexit hbatch, if_neg hroute, ← hbefore]
    rfl
  | call a w hcall hstep =>
    rw [unread_of_call (step_outcome hstep).2 hexit hcall]
    exact hbefore

end Unread

section Run

variable [DecidableEq ι] {w₀ : World} {as bs : List (ThreadAction ι)}

/-- In every interleaving each wake-up is in the wake pipe, as the history says, or has been read by the event loop.
    The loop reads at most one in a pass, so that no run reads more than the passes it begins, and one more where the
    pass under way at its beginning has not come to the event of the wake pipe. -/
theorem wakes_count_once (hK : K.Strict) (hstart : Started K w₀)
    (hrun : (machine K capacity).run ({ world := w₀ } : Threads ι) as = some t)
    (hcont : (machine K capacity).run t bs = some t') :
    t'.pipe.length + (machine K capacity).total readsWake t bs =
        t.pipe.length + (machine K capacity).total writesWake t bs ∧
      (t'.world.exited = false → t'.pipe.length = unread t'.world.history) ∧ t'.pipe.length ≤ capacity ∧
      (machine K capacity).total readsWake t bs ≤
        (machine K capacity).total beginsPass t bs + if t.wakeLeft then 1 else 0 := by
  obtain ⟨k, e, rd, wr, -, rfl⟩ := hstart.eq_started
  have hone : t.promisedReads ≤ 1 := by
    have hstep : ∀ t act t', t.promisedReads ≤ 1 → (machine K capacity).step t act = some t' →
        (t' : Threads ι).promisedReads ≤ 1 :=
      fun _ _ _ hle h => (step_pipeOutcome h).promisedReads_le_one hK (step_alive h) hle
    have hstart : ({ world := started k e rd wr } : Threads ι).promisedReads ≤ 1 := Nat.zero_le 1
    exact Machine.run_preserves hstep hstart hrun
  have hunread : HoldsUnread t' := by
    have hstep : ∀ t act t', HoldsUnread t → (machine K capacity).step t act = some t' →
        HoldsUnread (t' : Threads ι) := fun _ _ _ hI h => hI.step h
    exact Machine.run_preserves hstep (Machine.run_preserves hstep (fun _ => rfl) hrun) hcont
  have hroom : t'.pipe.length ≤ capacity := by
    have hstep : ∀ t act t', t.pipe.length ≤ capacity → (machine K capacity).step t act = some t' →
        (t' : Threads ι).pipe.length ≤ capacity := fun _ _ _ hle h => (step_pipeOutcome h).length_le hle
    exact Machine.run_preserves hstep (Machine.run_preserves hstep (Nat.zero_le _) hrun) hcont
  have hpipe := Machine.account_eq (M := machine K capacity) (I := fun _ => True) (B := fun t => t.pipe.length)
    (fun _ _ _ _ _ => trivial) (fun _ _ _ _ h => (step_pipeOutcome h).pipe_eq) trivial hcont
  have hreads : t'.promisedReads + (machine K capacity).total readsWake t bs ≤
      t.promisedReads + (machine K capacity).total beginsPass t bs :=
    Machine.account_le (M := machine K capacity) (I := fun _ => True) (B := promisedReads)
      (fun _ _ _ _ _ => trivial) (fun _ _ _ _ h => (step_pipeOutcome h).promised_le hK (step_alive h)) trivial
      hcont
  have hleft := promisedReads_le_wakeLeft hone
  exact ⟨hpipe, hunread, hroom, by omega⟩

/-- A burst of two wake-ups, and the two passes that the loop needs for it. -/
def twoWakes : List (ThreadAction Bool) × List (ThreadAction Bool) :=
  ([.callWake true, .callWake false, .write true, .write false],
    [.call .run, .test, .wait (.events [⟨4, EPOLLIN⟩]), .event {}, .test, .wait (.events [⟨4, EPOLLIN⟩]),
      .event {}])

theorem wakes_count_once_twoWakes : ∃ t t',
    (machine documented 65536).run { world := stdioStart } twoWakes.1 = some t ∧
    (machine documented 65536).run t twoWakes.2 = some t' ∧ t.pipe.length = 2 ∧ t'.pipe.length = 0 ∧
    t'.pipe.length + (machine documented 65536).total readsWake t twoWakes.2 =
      t.pipe.length + (machine documented 65536).total writesWake t twoWakes.2 ∧
    (t'.world.exited = false → t'.pipe.length = unread t'.world.history) ∧ t'.pipe.length ≤ 65536 ∧
    (machine documented 65536).total readsWake t twoWakes.2 ≤
      (machine documented 65536).total beginsPass t twoWakes.2 + if t.wakeLeft then 1 else 0 := by
  have hsome : ((machine documented 65536).run { world := stdioStart } twoWakes.1).isSome = true := rfl
  have hrun := (Option.some_get hsome).symm
  have hsome' : ((machine documented 65536).run (Option.get _ hsome) twoWakes.2).isSome = true := rfl
  have hcont := (Option.some_get hsome').symm
  exact ⟨_, _, hrun, hcont, rfl, rfl, wakes_count_once documented_strict stdioStart_documented hrun hcont⟩

end Run

end TagSim.Epoll.Threads
