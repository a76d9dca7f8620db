import TagSim.Kevent.Proofs.WakeProofs
import TagSim.Kevent.Threads
import TagSim.Runs.Proofs.EventLoopProofs

/-!
# Stopping the event loop

Among other threads the backend is an event loop whose batch is a pass: the events that `kevent` reported, and the
tick stage after them. Taken without interruption, the steps of the threads are those of the backend.
-/

namespace TagSim.Kevent

universe u

/-- What is still to be done in the pass: the events that are left, and the tick stage. -/
def passLeft (w : World) : Nat := w.batch.elim 0 fun evs => evs.length + 1

/-- What the return of `kevent` is for the event loop. -/
def WaitAnswer.loopActions : WaitAnswer → List EventLoop.Action
  | .events evs => [.fetch (evs.length + 1)]
  | .interrupted => [.interrupt]
  | .failed => [.fetch 1]

namespace Threads

variable {ι : Type u}

/-- The event loop that the threads share. -/
def loopView (t : Threads ι) : EventLoop where
  stop := t.world.stop
  point := if t.waiting then .waiting else if t.world.running then .batch (passLeft t.world) else .returned

/-- What a step is for the event loop. -/
def loopActions (_ : Threads ι) : ThreadAction ι → List EventLoop.Action
  | .setStop _ => [.raise]
  | .test => [.test]
  | .wait ans => ans.loopActions
  | .undivided .run => [.enter]
  | .undivided (.event ..) => [.handle]
  | .undivided (.tick ..) => [.handle]
  | _ => []

/-- A pass is under way only while `proactor_net_run` has not returned, and none is while it waits. -/
structure PassInLoop (t : Threads ι) : Prop where
  returned : t.world.running = false → t.world.batch = none
  waiting : t.waiting = true → t.world.running = true ∧ t.world.batch = none

end Threads

variable {w w' : World} {act : Action} {as : List Action}

/-- The event loop stands where it stood, and `stop` is as it was. -/
structure SameLoop (w w' : World) : Prop where
  stop : w'.stop = w.stop
  running : w'.running = w.running
  batch : w'.batch = w.batch

theorem AcceptWay.sameLoop {a : Addr} {server : ProactorSocket} {ans : AcceptAnswers} {rc : Status}
    (h : AcceptWay w a server ans rc w') : SameLoop w w' := by
  cases h with
  | noCallback _ _ hw | noMemory _ _ _ _ hw | accepted _ _ _ _ _ _ hw =>
    subst hw
    exact ⟨rfl, rfl, rfl⟩

theorem ReadWay.sameLoop {a : Addr} {sock : ProactorSocket} {ans : ReadAnswers} {rc : Status}
    (h : ReadWay w a sock ans rc w') : SameLoop w w' := by
  cases h with
  | noCallback _ _ hw | failed _ _ _ _ _ _ hw | received _ _ _ _ _ _ _ _ _ _ hw | ended _ _ _ _ _ _ _ _ hw =>
    subst hw
    exact ⟨rfl, rfl, rfl⟩

theorem EventWay.sameLoop {ev : Event} {accept : AcceptAnswers} {read : ReadAnswers}
    (h : EventWay w ev accept read w') : SameLoop w w' := by
  cases h with
  | wake _ hw | other _ _ hw | unknown _ _ _ _ _ _ _ _ hw =>
    subst hw
    exact ⟨rfl, rfl, rfl⟩
  | accepts _ _ _ _ _ _ _ _ hway => exact hway.sameLoop
  | reads _ _ _ _ _ _ _ _ hway => exact hway.sameLoop

/-- `kevent` is called at the head of the loop. -/
theorem wait_ready {ans : WaitAnswer} (h : machine.step w (.wait ans) = some w') :
    w.running = true ∧ w.batch = none ∧ waitEvents ans w = some w' := by
  have hwait : (if w.running && w.batch.isNone then waitEvents ans w else none) = some w' := h
  split_ifs at hwait with hready
  rw [Bool.and_eq_true, Option.isNone_iff_eq_none] at hready
  exact ⟨hready.1, hready.2, hwait⟩

theorem run_ready (h : machine.step w .run = some w') :
    w.running = false ∧ w' = { w with running := true } := by
  have hrun : (if w.running then none else some { w with running := true }) = some w' := h
  split_ifs at hrun with hrunning
  exact ⟨by simpa using hrunning, (Option.some.inj hrun).symm⟩

theorem passLeft_eq_zero (h : w.batch = none) : passLeft w = 0 := by
  rw [passLeft, h, Option.elim_none]

/-- The step does a part of the pass: an event, or the tick stage. -/
structure PassDone (w w' : World) : Prop where
  stop : w'.stop = w.stop
  running : w'.running = w.running
  batch : w.batch ≠ none
  left : passLeft w = passLeft w' + 1

/-- The actions that are a part of a pass. -/
def Action.inPass : Action → Bool
  | .event .. | .tick .. => true
  | _ => false

theorem passDone_of_step (hact : act.inPass = true) (h : machine.step w act = some w') : PassDone w w' := by
  cases step_cases h with
  | call ret stop hcall =>
    rcases hcall with rfl | rfl
    · cases hact
    · cases hact
  | loop running batch hloop =>
    rcases hloop with rfl | ⟨ans, rfl⟩
    · cases hact
    · cases hact
  | event accept read ev rest hevent hbatch hway =>
    obtain ⟨hstop, hrunning, hrest⟩ := hway.sameLoop
    refine ⟨hstop, hrunning, by simp [hbatch], ?_⟩
    rw [passLeft, passLeft, hbatch, hrest]
    rfl
  | tick start fuel l htick hbatch hl hw =>
    subst hw
    refine ⟨rfl, rfl, by simp [hbatch], ?_⟩
    rw [passLeft, passLeft, hbatch]
    rfl

namespace Threads

variable {ι : Type u} {t₀ t t' : Threads ι} {tact : ThreadAction ι} {tas tbs : List (ThreadAction ι)}

/-- A part of the pass is done only in `proactor_net_run`, and outside `kevent`. -/
theorem PassInLoop.inPass (hI : PassInLoop t) (hbatch : t.world.batch ≠ none) :
    t.world.running = true ∧ t.waiting = false := by
  constructor
  · by_contra hno
    exact hbatch (hI.returned (by simpa using hno))
  · by_contra hno
    exact hbatch (hI.waiting (by simpa using hno)).2

/-- Outside `kevent` the event loop is where the backend is. -/
theorem loopView_running (hrunning : t.world.running = true) (hwaiting : t.waiting = false) :
    loopView t = ⟨t.world.stop, .batch (passLeft t.world)⟩ := by
  rw [loopView, hwaiting, if_neg Bool.false_ne_true, if_pos hrunning]

theorem loopView_waiting (hwaiting : t.waiting = true) : loopView t = ⟨t.world.stop, .waiting⟩ := by
  rw [loopView, if_pos hwaiting]

/-- The return of `kevent`, with the events, the tick stage alone, or a signal. -/
theorem wait_view {ans : WaitAnswer} (hrunning : t.world.running = true) (hbatch : t.world.batch = none)
    (hwaiting : t.waiting = true) (hwait : keventWait ans t.world = some w') :
    (EventLoop.machine (numEvents + 1)).run (loopView t) ans.loopActions =
      some (loopView { t with world := w', waiting := false }) := by
  have hrunning' : w'.running = true := by
    rw [keventWait_eq hwait]
    exact hrunning
  have hstop' : w'.stop = t.world.stop := by rw [keventWait_eq hwait]
  rw [loopView_waiting hwaiting, loopView_running hrunning' rfl, hstop']
  cases keventWait_cases hwait with
  | events evs hreports hlen =>
    have hsize : evs.length + 1 ≤ numEvents + 1 := Nat.succ_le_succ hlen
    show (if LoopPoint.waiting = .waiting ∧ evs.length + 1 ≤ numEvents + 1 then _ else none).bind _ = _
    rw [if_pos ⟨rfl, hsize⟩]
    rfl
  | interrupted =>
    have hleft : passLeft t.world = 0 := passLeft_eq_zero hbatch
    show some _ = some _
    rw [hleft]
  | failed => rfl

variable [DecidableEq ι]

section Uninterrupted

variable {i : ι}

/-- What the backend does in one step it does in one step among the threads. -/
theorem step_undivided (hact : act.undivided = true) (h : Kevent.machine.step w act = some w') :
    machine.run ({ world := w } : Threads ι) [.undivided act] = some { world := w' } := by
  have hstep : Kevent.step w act = some w' := h
  simp [Machine.run, machine, step, hact, hstep]

/-- A step of the backend is a run of the threads in which no other thread comes between. -/
theorem step_divided (h : Kevent.machine.step w act = some w') :
    machine.run ({ world := w } : Threads ι) (act.divided i w) = some { world := w' } := by
  cases act with
  | stop ret =>
    obtain rfl := Option.some.inj h
    have hidle : Function.update (Function.update (fun _ : ι => false) i true) i false = fun _ => false := by
      rw [Function.update_idem, Function.update_eq_self_iff]
    simp [Machine.run, machine, step, Action.divided, proactorNetStop, hidle]
  | wait ans =>
    obtain ⟨hrunning, hnone, hwait⟩ := wait_ready h
    unfold waitEvents at hwait
    by_cases hstop : w.stop = true
    · rw [if_pos hstop] at hwait
      obtain rfl := Option.some.inj hwait
      simp [Machine.run, machine, step, Action.divided, hrunning, hnone, hstop]
    · rw [if_neg hstop] at hwait
      simp [Machine.run, machine, step, Action.divided, hrunning, hnone, hstop, hwait]
  | wake | run | event | tick => exact step_undivided rfl h

/-- Every run of the backend is one of the threads. -/
theorem run_divided (h : Kevent.machine.run w as = some w') :
    machine.run ({ world := w } : Threads ι) (Kevent.machine.translate (Action.divided i) w as) =
      some { world := w' } :=
  Machine.run_translate (I := fun _ => True) (fun _ _ _ _ _ => trivial) (fun _ _ _ _ h => step_divided h) trivial h

end Uninterrupted

section Loop

/-- The ways through a step of one thread. -/
inductive ThreadWay (t : Threads ι) : ThreadAction ι → Threads ι → Prop
  | setStop (i : ι) : ThreadWay t (.setStop i)
      { t with world := { t.world with stop := true }, stopping := Function.update t.stopping i true }
  | write (i : ι) (ret : Int) : ThreadWay t (.write i ret)
      { t with world := proactorNetWake ret t.world, stopping := Function.update t.stopping i false }
  | returns (hrunning : t.world.running = true) (hbatch : t.world.batch = none) (hwaiting : t.waiting = false)
      (hstop : t.world.stop = true) : ThreadWay t .test { t with world := { t.world with running := false } }
  | goesOn (hrunning : t.world.running = true) (hbatch : t.world.batch = none) (hwaiting : t.waiting = false)
      (hstop : t.world.stop = false) : ThreadWay t .test { t with waiting := true }
  | wait (ans : WaitAnswer) (w' : World) (hwaiting : t.waiting = true)
      (hwait : keventWait ans t.world = some w') : ThreadWay t (.wait ans) { t with world := w', waiting := false }
  | undivided (act : Action) (w' : World) (hact : act.undivided = true)
      (hstep : Kevent.machine.step t.world act = some w') : ThreadWay t (.undivided act) { t with world := w' }

theorem step_cases (h : machine.step t tact = some t') : ThreadWay t tact t' := by
  change step t tact = some t' at h
  cases tact with
  | setStop i =>
    rw [step] at h
    split_ifs at h
    obtain rfl := Option.some.inj h
    exact .setStop i
  | write i ret =>
    rw [step] at h
    split_ifs at h
    obtain rfl := Option.some.inj h
    exact .write i ret
  | test =>
    rw [step] at h
    split_ifs at h with hhead hstop
    · obtain rfl := Option.some.inj h
      simp only [Bool.and_eq_true, Option.isNone_iff_eq_none, Bool.not_eq_true'] at hhead
      exact .returns hhead.1.1 hhead.1.2 hhead.2 hstop
    · obtain rfl := Option.some.inj h
      simp only [Bool.and_eq_true, Option.isNone_iff_eq_none, Bool.not_eq_true'] at hhead
      exact .goesOn hhead.1.1 hhead.1.2 hhead.2 (by simpa using hstop)
  | wait ans =>
    rw [step] at h
    split_ifs at h with hwaiting
    obtain ⟨w', hwait, rfl⟩ := Option.map_eq_some_iff.mp h
    exact .wait ans w' hwaiting hwait
  | undivided act =>
    rw [step] at h
    split_ifs at h with hact
    obtain ⟨w', hstep, rfl⟩ := Option.map_eq_some_iff.mp h
    exact .undivided act w' hact hstep

theorem PassInLoop.step (hI : PassInLoop t) (h : machine.step t tact = some t') : PassInLoop t' := by
  cases step_cases h with
  | setStop | write => exact ⟨hI.returned, hI.waiting⟩
  | returns hrunning hbatch hwaiting hstop =>
    refine ⟨fun _ => hbatch, fun hwaits => ?_⟩
    cases hwaiting.symm.trans hwaits
  | goesOn hrunning hbatch hwaiting hstop => exact ⟨hI.returned, fun _ => ⟨hrunning, hbatch⟩⟩
  | wait ans w' hwaiting hwait =>
    have hrunning : w'.running = true := by
      rw [keventWait_eq hwait]
      exact (hI.waiting hwaiting).1
    refine ⟨fun hreturned => ?_, nofun⟩
    cases hrunning.symm.trans hreturned
  | undivided act w' hact hstep =>
    cases act with
    | stop | wait => cases hact
    | wake ret =>
      obtain rfl := Option.some.inj hstep
      exact ⟨hI.returned, hI.waiting⟩
    | run =>
      obtain ⟨hreturned, rfl⟩ := run_ready hstep
      exact ⟨nofun, fun _ => ⟨rfl, hI.returned hreturned⟩⟩
    | event | tick =>
      -- the loop is in its pass, and stays in `proactor_net_run`
      have hdone := passDone_of_step rfl hstep
      obtain ⟨hrunning, hwaiting⟩ := hI.inPass hdone.batch
      refine ⟨fun hreturned => ?_, fun hwaits => ?_⟩
      · cases (hdone.running.trans hrunning).symm.trans hreturned
      · cases hwaiting.symm.trans hwaits

/-- Every step is what it stands for in the event loop. -/
theorem step_view (hI : PassInLoop t) (h : machine.step t tact = some t') :
    (EventLoop.machine (numEvents + 1)).run (loopView t) (loopActions t tact) = some (loopView t') := by
  cases step_cases h with
  | setStop | write => rfl
  | returns hrunning hbatch hwaiting hstop =>
    have hleft : passLeft t.world = 0 := passLeft_eq_zero hbatch
    rw [loopView_running hrunning hwaiting, hleft, hstop, loopView, hwaiting]
    simp [EventLoop.machine, EventLoop.step, Machine.run, loopActions, hstop]
  | goesOn hrunning hbatch hwaiting hstop =>
    have hleft : passLeft t.world = 0 := passLeft_eq_zero hbatch
    rw [loopView_running hrunning hwaiting, loopView_waiting rfl, hleft, hstop]
    rfl
  | wait ans w' hwaiting hwait =>
    obtain ⟨hrunning, hbatch⟩ := hI.waiting hwaiting
    exact wait_view hrunning hbatch hwaiting hwait
  | undivided act w' hact hstep =>
    cases act with
    | stop | wait => cases hact
    | wake ret =>
      obtain rfl := Option.some.inj hstep
      rfl
    | run =>
      obtain ⟨hreturned, rfl⟩ := run_ready hstep
      have hbatch := hI.returned hreturned
      have hwaiting : t.waiting = false := by
        by_contra hno
        cases hreturned.symm.trans (hI.waiting (by simpa using hno)).1
      have hleft : passLeft t.world = 0 := passLeft_eq_zero hbatch
      have hreturned' : loopView t = ⟨t.world.stop, .returned⟩ := by
        rw [loopView, hwaiting, hreturned]
        rfl
      have hentered : loopView { t with world := { t.world with running := true } } =
          ⟨t.world.stop, .batch (passLeft t.world)⟩ := loopView_running rfl hwaiting
      rw [hreturned', hentered, hleft]
      rfl
    | event | tick =>
      have hdone := passDone_of_step rfl hstep
      obtain ⟨hrunning, hwaiting⟩ := hI.inPass hdone.batch
      have hgone : loopView { t with world := w' } = ⟨w'.stop, .batch (passLeft w')⟩ :=
        loopView_running (hdone.running.trans hrunning) hwaiting
      rw [loopView_running hrunning hwaiting, hgone, hdone.left, hdone.stop]
      rfl

/-- What a step does is what it stands for does at least. -/
theorem step_costs (h : machine.step t tact = some t') (hview :
    (EventLoop.machine (numEvents + 1)).run (loopView t) (loopActions t tact) = some (loopView t')) :
    passSteps t tact ≤
      (EventLoop.machine (numEvents + 1)).total EventLoop.handles (loopView t) (loopActions t tact) ∧
    passesTest t tact ≤
      (EventLoop.machine (numEvents + 1)).total EventLoop.waits (loopView t) (loopActions t tact) := by
  cases step_cases h with
  | setStop | write | wait => exact ⟨Nat.zero_le _, Nat.zero_le _⟩
  | returns _ _ _ hstop =>
    refine ⟨Nat.zero_le _, ?_⟩
    rw [passesTest, if_pos hstop]
    exact Nat.zero_le _
  | goesOn _ _ _ hstop =>
    obtain ⟨l, hl, -⟩ := Machine.run_cons_some hview
    refine ⟨Nat.zero_le _, Nat.le_trans ?_ (Machine.le_total_cons EventLoop.waits hl)⟩
    simp [passesTest, EventLoop.waits, loopView, hstop]
  | undivided act w' hact hstep =>
    cases act with
    | stop | wait => cases hact
    | wake | run => exact ⟨Nat.zero_le _, Nat.zero_le _⟩
    | event | tick =>
      obtain ⟨l, hl, -⟩ := Machine.run_cons_some hview
      exact ⟨Machine.le_total_cons EventLoop.handles hl, Nat.zero_le _⟩

theorem implements_eventLoop : EventLoop.Implements (machine : Machine (Threads ι) (ThreadAction ι)) (numEvents + 1)
    PassInLoop loopView loopActions passSteps passesTest where
  keeps _ _ _ hs h := hs.step h
  simulates _ _ _ hs h := step_view hs h
  handled_le _ _ _ hs h := (step_costs h (step_view hs h)).1
  waited_le _ _ _ hs h := (step_costs h (step_view hs h)).2

/-- A stop between the test and `kevent`, and a second call of `proactor_net_run`. -/
def stopAfterTest : List (ThreadAction Unit) × List (ThreadAction Unit) :=
  ([.undivided .run, .test, .setStop ()],
    [.write () 1, .wait (.events [⟨4, .read, none⟩]), .undivided (.event {} {}), .undivided (.tick none 0), .test,
      .undivided .run, .test])

end Loop

end Threads

end TagSim.Kevent
