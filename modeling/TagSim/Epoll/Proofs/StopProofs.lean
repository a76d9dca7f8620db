import TagSim.Epoll.Proofs.ThreadsProofs
import TagSim.Runs.Proofs.EventLoopProofs

/-!
# Stopping the event loop

Among other threads the backend is an event loop, as `loopView` sees it, and `stop` is its flag. Nothing in the
source lowers `stop` again, so that a stop holds for every later call of `proactor_tcp_epoll_run` too.
-/

namespace TagSim.Epoll

universe u

/-- What the return of `epoll_wait` is for the event loop. -/
def WaitAnswer.loopActions : WaitAnswer → List EventLoop.Action
  | .events evs => [.fetch evs.length]
  | .interrupted => [.interrupt]
  | .failed => [.interrupt]

/-- What a step is for the event loop, up to the end of the process. -/
def ThreadAction.loopActions {ι : Type u} : ThreadAction ι → List EventLoop.Action
  | .setStop _ => [.raise]
  | .test => [.test]
  | .wait ans => ans.loopActions
  | .event _ => [.handle]
  | .call .run => [.enter]
  | _ => []

/-- Only `proactor_tcp_epoll_run` enters the loop, and only its test of `stop` leaves it. -/
theorem Outcome.running_eq {K : KernelRules} {w w' : World} {a : Action} (h : Outcome K w a w')
    (hexit : w'.exited = false) (hrun : a ≠ .run) (hwait : ∀ ans, a ≠ .wait ans) : w'.running = w.running := by
  cases h with
  | run => exact absurd rfl hrun
  | loopEnd ans => exact absurd rfl (hwait ans)
  | exit a w' hcan hexit' hsilent =>
    rw [hexit] at hexit'
    cases hexit'
  | _ => rfl

namespace Threads

variable {ι : Type u} {K : KernelRules} {capacity : Nat} {t t' : Threads ι} {act : ThreadAction ι} {w w₀ : World}
  {as bs : List (ThreadAction ι)}

/-- The event loop that the threads share. A process that has exited has stopped. -/
def loopView (t : Threads ι) : EventLoop :=
  if t.world.exited then ⟨true, .returned⟩
  else ⟨t.world.stop,
    if t.waiting then .waiting else if t.world.running then .batch t.world.batch.length else .returned⟩

/-- The event loop handles an event. -/
def handlesEvent (_ : Threads ι) : ThreadAction ι → Nat
  | .event _ => 1
  | _ => 0

/-- The event loop passes the test of `stop`, on its way to `epoll_wait`. -/
def passesTest (t : Threads ι) : ThreadAction ι → Nat
  | .test => if t.world.stop then 0 else 1
  | _ => 0

/-- Events are left only while `proactor_tcp_epoll_run` has not returned, and none are while it waits. -/
structure BatchInLoop (t : Threads ι) : Prop where
  returned : t.world.running = false → t.world.batch = []
  waiting : t.waiting = true → t.world.running = true ∧ t.world.batch = []

section Views

theorem loopView_running (halive : t.world.exited = false) (hrunning : t.world.running = true)
    (hwaiting : t.waiting = false) : loopView t = ⟨t.world.stop, .batch t.world.batch.length⟩ := by
  simp [loopView, halive, hrunning, hwaiting]

theorem loopView_waiting (halive : t.world.exited = false) (hwaiting : t.waiting = true) :
    loopView t = ⟨t.world.stop, .waiting⟩ := by
  simp [loopView, halive, hwaiting]

/-- A step that the event loop does not notice. -/
theorem loopView_same (halive : t.world.exited = false) (hexit : w.exited = false) (hstop : w.stop = t.world.stop)
    (hrunning : w.running = t.world.running) (hbatch : w.batch = t.world.batch) :
    loopView { t with world := w } = loopView t := by
  simp only [loopView, halive, hexit, hstop, hrunning, hbatch]

/-- An event is left, so the loop is not in `epoll_wait`. -/
theorem BatchInLoop.inBatch (hI : BatchInLoop t) {ev : Event} {rest : List Event}
    (hbatch : t.world.batch = ev :: rest) : t.world.running = true ∧ t.waiting = false := by
  constructor
  · by_contra hno
    rw [hI.returned (by simpa using hno)] at hbatch
    cases hbatch
  · by_contra hno
    rw [(hI.waiting (by simpa using hno)).2] at hbatch
    cases hbatch

theorem BatchInLoop.not_waiting (hI : BatchInLoop t) (hreturned : t.world.running = false) : t.waiting = false := by
  by_contra hno
  cases hreturned.symm.trans (hI.waiting (by simpa using hno)).1

/-- The event that is handled is one of the event loop, also where it ends the process. -/
theorem event_view {ans : EventAnswers} {ev : Event} {rest : List Event} {pipe : List Byte} (hI : BatchInLoop t)
    (hbatch : t.world.batch = ev :: rest) (hstep : Epoll.step K t.world (.event ans) = some w) :
    (EventLoop.machine maxEvents).run (loopView t) (.handle :: if w.exited then [.halt] else []) =
      some (loopView { t with world := w, pipe := pipe }) := by
  obtain ⟨halive, hout⟩ := step_outcome hstep
  obtain ⟨hrunning, hwaiting⟩ := hI.inBatch hbatch
  rw [loopView_running halive hrunning hwaiting, hbatch]
  by_cases hexit : w.exited = true
  · rw [if_pos hexit, loopView, if_pos hexit]
    rfl
  · have hgoes : w.exited = false := Bool.eq_false_iff.mpr hexit
    have hrunning' : w.running = true := (hout.running_eq hgoes nofun nofun).trans hrunning
    have hview : loopView { t with world := w, pipe := pipe } = ⟨w.stop, .batch w.batch.length⟩ :=
      loopView_running hgoes hrunning' hwaiting
    rw [if_neg hexit, hview, hout.stop_eq hgoes nofun, hout.batch_of_event hgoes hbatch]
    rfl

/-- A call of the application, or the return of a callback, is none of the event loop, but `proactor_tcp_epoll_run`
    enters it. -/
theorem call_view {a : Action} (hI : BatchInLoop t) (hcall : a.isCall = true)
    (hstep : Epoll.step K t.world a = some w) :
    (EventLoop.machine maxEvents).run (loopView t)
      ((ThreadAction.call a : ThreadAction ι).loopActions ++ if w.exited then [.halt] else []) =
      some (loopView { t with world := w }) := by
  obtain ⟨halive, hout⟩ := step_outcome hstep
  by_cases hrun : a = .run
  · subst hrun
    cases hout with
    | run hreturned =>
      have hwaiting := hI.not_waiting hreturned
      have hview : loopView { t with world := { t.world with running := true } } =
          ⟨t.world.stop, .batch t.world.batch.length⟩ := loopView_running halive rfl hwaiting
      have hbefore : loopView t = ⟨t.world.stop, .returned⟩ := by simp [loopView, halive, hreturned, hwaiting]
      rw [hview, hbefore, hI.returned hreturned]
      simp [ThreadAction.loopActions, halive, EventLoop.machine, EventLoop.step, Machine.run]
    | exit a w' hcan => cases hcan
  · have hnone : (ThreadAction.call a : ThreadAction ι).loopActions = [] := by
      cases a with
      | run => exact absurd rfl hrun
      | _ => rfl
    rw [hnone, List.nil_append]
    by_cases hexit : w.exited = true
    · rw [if_pos hexit]
      show some _ = some _
      rw [loopView, if_pos hexit]
    · have hgoes : w.exited = false := Bool.eq_false_iff.mpr hexit
      have hstop : ∀ ret, a ≠ .stop ret := by
        rintro ret rfl
        cases hcall
      have hwait : ∀ ans, a ≠ .wait ans := by
        rintro ans rfl
        cases hcall
      rw [if_neg hexit, loopView_same halive hgoes (hout.stop_eq hgoes hstop) (hout.running_eq hgoes hrun hwait)
        (hout.batch_of_call hgoes hcall)]
      rfl

/-- The return of `epoll_wait`, with a batch or a signal. -/
theorem wait_view {ans : WaitAnswer} (hK : K.Strict) (hI : BatchInLoop t) (halive : t.world.exited = false)
    (hwaiting : t.waiting = true) (hwait : epollWait K ans t.world = some w) : w.exited = false ∧
    (EventLoop.machine maxEvents).run (loopView t) ans.loopActions =
      some (loopView { t with world := w, waiting := false }) := by
  obtain ⟨hrunning, hbatch⟩ := hI.waiting hwaiting
  rw [loopView_waiting halive hwaiting]
  cases epollWait_cases hwait with
  | events evs hlegal =>
    have hsize : evs.length ≤ maxEvents := Kernel.length_le_of_batchLegal (hK.wait _ _ hlegal)
    have hview : loopView { t with world := { t.world with batch := evs }, waiting := false } =
        ⟨t.world.stop, .batch evs.length⟩ := loopView_running halive hrunning rfl
    refine ⟨halive, ?_⟩
    rw [hview]
    show (if LoopPoint.waiting = .waiting ∧ evs.length ≤ maxEvents then _ else none).bind _ = _
    rw [if_pos ⟨rfl, hsize⟩]
    rfl
  | interrupted =>
    have hview : loopView { t with waiting := false } = ⟨t.world.stop, .batch t.world.batch.length⟩ :=
      loopView_running halive hrunning rfl
    refine ⟨halive, ?_⟩
    rw [hview, hbatch]
    rfl
  | failed hfails =>
    rw [hK.waitFails] at hfails
    cases hfails

end Views

variable [DecidableEq ι]

/-- What a step is for the event loop. -/
def loopActions (K : KernelRules) (capacity : Nat) (t : Threads ι) (act : ThreadAction ι) : List EventLoop.Action :=
  act.loopActions ++ if (step K capacity t act).any fun t' => t'.world.exited then [.halt] else []

section Steps

theorem loopActions_eq (h : (machine K capacity).step t act = some t') :
    loopActions K capacity t act = act.loopActions ++ if t'.world.exited then [.halt] else [] := by
  have hstep : step K capacity t act = some t' := h
  rw [loopActions, hstep, Option.any_some]

theorem BatchInLoop.step (hI : t.world.exited = false → BatchInLoop t)
    (h : (machine K capacity).step t act = some t') (hexit : t'.world.exited = false) : BatchInLoop t' := by
  obtain ⟨hreturned, hwaiting⟩ := hI (step_alive h)
  have hI := hI (step_alive h)
  cases step_cases h with
  | callWake | callStop | setStop | write => exact ⟨hreturned, hwaiting⟩
  | writeFails => cases hexit
  | returns hhead hstop =>
    refine ⟨fun _ => hhead.batch, fun hwaits => ?_⟩
    cases hhead.waiting.symm.trans hwaits
  | goesOn hhead hstop => exact ⟨hreturned, fun _ => ⟨hhead.running, hhead.batch⟩⟩
  | wait ans w hwaits hready hwait =>
    have hrunning : w.running = true := by
      cases epollWait_cases hwait with
      | events | interrupted => exact (hwaiting hwaits).1
      | failed => cases hexit
    refine ⟨fun hno => ?_, nofun⟩
    cases hrunning.symm.trans hno
  | readsWake ans ev rest _ _ w _ hbatch _ _ hstep | event ans ev rest w _ hbatch _ hstep =>
    obtain ⟨hruns, hout⟩ := hI.inBatch hbatch
    have hrunning := ((step_outcome hstep).2.running_eq hexit nofun nofun).trans hruns
    refine ⟨fun hno => ?_, fun hwaits => ?_⟩
    · cases hrunning.symm.trans hno
    · cases hout.symm.trans hwaits
  | call a w hcall hstep =>
    have hout := (step_outcome hstep).2
    have hbatch : w.batch = t.world.batch := hout.batch_of_call hexit hcall
    by_cases hrun : a = .run
    · subst hrun
      cases hout with
      | run hreturns => exact ⟨nofun, fun _ => ⟨rfl, hreturned hreturns⟩⟩
      | exit a w' hcan => cases hcan
    · have hwait : ∀ ans, a ≠ .wait ans := by
        rintro ans rfl
        cases hcall
      have hrunning : w.running = t.world.running := hout.running_eq hexit hrun hwait
      refine ⟨fun hno => ?_, fun hwaits => ?_⟩
      · rw [hbatch]
        exact hreturned (hrunning.symm.trans hno)
      · rw [hbatch, hrunning]
        exact hwaiting hwaits

/-- Every step is what it stands for in the event loop. -/
theorem step_view (hK : K.Strict) (hI : t.world.exited = false → BatchInLoop t)
    (h : (machine K capacity).step t act = some t') :
    (EventLoop.machine maxEvents).run (loopView t) (loopActions K capacity t act) = some (loopView t') := by
  have halive := step_alive h
  have hin := hI halive
  rw [loopActions_eq h]
  cases step_cases h with
  | callWake i hpoint | callStop i hpoint =>
    show (EventLoop.machine maxEvents).run (loopView t) ([] ++ if t.world.exited then _ else []) = some (loopView t)
    rw [halive]
    rfl
  | write i stops hpoint =>
    simp [ThreadAction.loopActions, moveTo, proactorTcpEpollWake, World.log, halive, loopView, Machine.run]
  | setStop i hpoint =>
    simp [ThreadAction.loopActions, moveTo, halive, loopView, Machine.run, EventLoop.machine, EventLoop.step]
  | writeFails i stops hpoint =>
    simp [ThreadAction.loopActions, proactorTcpEpollWake, handleError, loopView, Machine.run, EventLoop.machine,
      EventLoop.step]
  | returns hhead hstop =>
    rw [loopView_running halive hhead.running hhead.waiting, hhead.batch]
    simp [ThreadAction.loopActions, halive, loopView, hstop, hhead.waiting, Machine.run, EventLoop.machine,
      EventLoop.step]
  | goesOn hhead hstop =>
    rw [loopView_running halive hhead.running hhead.waiting, hhead.batch]
    simp [ThreadAction.loopActions, halive, loopView, hstop, Machine.run, EventLoop.machine, EventLoop.step]
  | wait ans w hwaiting hready hwait =>
    obtain ⟨hgoes, hview⟩ := wait_view hK hin halive hwaiting hwait
    rw [if_neg (by simp [hgoes]), List.append_nil]
    exact hview
  | readsWake ans ev rest b pipe w hnext hbatch hroute hpipe hstep => exact event_view hin hbatch hstep
  | event ans ev rest w hnext hbatch hroute hstep => exact event_view hin hbatch hstep
  | call a w hcall hstep => exact call_view hin hcall hstep

/-- What a step does is what it stands for does at least. -/
theorem step_costs (h : (machine K capacity).step t act = some t')
    (hview : (EventLoop.machine maxEvents).run (loopView t) (loopActions K capacity t act) = some (loopView t')) :
    handlesEvent t act ≤
      (EventLoop.machine maxEvents).total EventLoop.handles (loopView t) (loopActions K capacity t act) ∧
    passesTest t act ≤
      (EventLoop.machine maxEvents).total EventLoop.waits (loopView t) (loopActions K capacity t act) := by
  have halive := step_alive h
  cases act with
  | event ans =>
    obtain ⟨l, hl, -⟩ := Machine.run_cons_some hview
    exact ⟨Machine.le_total_cons EventLoop.handles hl, Nat.zero_le _⟩
  | test =>
    obtain ⟨l, hl, -⟩ := Machine.run_cons_some hview
    refine ⟨Nat.zero_le _, Nat.le_trans ?_ (Machine.le_total_cons EventLoop.waits hl)⟩
    have hflag : (loopView t).stop = t.world.stop := by simp [loopView, halive]
    rw [passesTest, EventLoop.waits, hflag]
    cases t.world.stop <;> simp
  | _ => exact ⟨Nat.zero_le _, Nat.zero_le _⟩

theorem implements_eventLoop (hK : K.Strict) :
    EventLoop.Implements (machine K capacity : Machine (Threads ι) (ThreadAction ι)) maxEvents
      (fun t => t.world.exited = false → BatchInLoop t) loopView (loopActions K capacity) handlesEvent
      passesTest where
  keeps _ _ _ hs h := BatchInLoop.step hs h
  simulates _ _ _ hs h := step_view hK hs h
  handled_le _ _ _ hs h := (step_costs h (step_view hK hs h)).1
  waited_le _ _ _ hs h := (step_costs h (step_view hK hs h)).2

end Steps

section Run

omit [DecidableEq ι] in
theorem left_loopView (t : Threads ι) :
    EventLoop.left maxEvents (loopView t) ≤ if t.waiting then maxEvents else t.world.batch.length := by
  unfold loopView
  split_ifs <;> first | exact Nat.zero_le _ | exact Nat.le_refl _

omit [DecidableEq ι] in
theorem stop_loopView (hstop : t.world.stop = true) : (loopView t).stop = true := by
  unfold loopView
  split_ifs <;> first | rfl | exact hstop

/-- Once `stop` is set the loop never passes the test of it again, however often `proactor_tcp_epoll_run` is called.
    It handles no more than the rest of its batch, or where it has passed the test already, those of one more batch:
    `MAX_EVENTS` events at most. -/
theorem stop_is_final (hK : K.Strict) (hstart : Started K w₀)
    (hrun : (machine K capacity).run ({ world := w₀ } : Threads ι) as = some t) (hstop : t.world.stop = true)
    (hcont : (machine K capacity).run t bs = some t') :
    (machine K capacity).total handlesEvent t bs ≤ (if t.waiting then maxEvents else t.world.batch.length) ∧
      (machine K capacity).total handlesEvent t bs ≤ maxEvents ∧
      (machine K capacity).total passesTest t bs = 0 := by
  obtain ⟨k, e, rd, wr, hk, rfl⟩ := hstart.eq_started
  have hI : ({ world := started k e rd wr } : Threads ι).world.exited = false →
      BatchInLoop ({ world := started k e rd wr } : Threads ι) := fun _ => ⟨fun _ => rfl, nofun⟩
  obtain ⟨hhandled, hfits, hnone⟩ :=
    (implements_eventLoop hK).stopped hI (Nat.zero_le _) hrun (stop_loopView hstop) hcont
  exact ⟨Nat.le_trans hhandled (left_loopView t), Nat.le_trans hhandled hfits, hnone⟩

/-- A stop between the test and `epoll_wait`, which returns with two events, and a second call of
    `proactor_tcp_epoll_run`. -/
def stopAfterTest : List (ThreadAction Bool) × List (ThreadAction Bool) :=
  ([.call (.startServer 502 ⟨6, true, true, true⟩), .call .run, .test, .callStop true, .setStop true],
    [.write true, .wait (.events [⟨4, EPOLLIN⟩, ⟨6, EPOLLIN⟩]), .event {}, .event { accept := 7 }, .test,
      .call .run, .test])

theorem stop_is_final_stopAfterTest : ∃ t t',
    (machine documented 65536).run { world := stdioStart } stopAfterTest.1 = some t ∧
    (machine documented 65536).run t stopAfterTest.2 = some t' ∧
    (machine documented 65536).total handlesEvent t stopAfterTest.2 ≤
      (if t.waiting then maxEvents else t.world.batch.length) ∧
    (machine documented 65536).total handlesEvent t stopAfterTest.2 ≤ maxEvents ∧
    (machine documented 65536).total passesTest t stopAfterTest.2 = 0 := by
  have hsome : ((machine documented 65536).run { world := stdioStart } stopAfterTest.1).isSome = true := rfl
  have hrun := (Option.some_get hsome).symm
  have hsome' : ((machine documented 65536).run (Option.get _ hsome) stopAfterTest.2).isSome = true := rfl
  have hcont := (Option.some_get hsome').symm
  exact ⟨_, _, hrun, hcont, stop_is_final documented_strict stdioStart_documented hrun rfl hcont⟩

end Run

end Threads

end TagSim.Epoll
