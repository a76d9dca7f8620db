import TagSim.Kevent.Proactor

/-!
# The event loop among other threads

`proactor_net_run` and `proactor_net_stop` in the steps that other threads see: the test of `stop` and `kevent` are
two steps, and so are the assignment of `stop` and the write to the wake pipe. A thread that stops the proactor is
a party; a callback that stops it is a party too.
-/

namespace TagSim.Kevent

universe u

/-- The state that the threads share, and where they stand. -/
structure Threads (ι : Type u) where
  world : World
  /-- The event loop has tested `stop`, and `kevent` has not returned. -/
  waiting : Bool := false
  /-- The party has set `stop` and is about to write to the wake pipe, in a call of `proactor_net_stop`. -/
  stopping : ι → Bool := fun _ => false

/-- The steps that are one step for other threads too. -/
def Action.undivided : Action → Bool
  | .stop _ | .wait _ => false
  | _ => true

/-- One step of one thread. -/
inductive ThreadAction (ι : Type u) where
  | setStop (i : ι)
  | write (i : ι) (ret : Int)
  /-- The event loop tests `stop`. -/
  | test
  /-- `kevent` returns. -/
  | wait (ans : WaitAnswer)
  | undivided (a : Action)

namespace Threads

variable {ι : Type u}

/-- The event loop handles an event, or goes through the tick stage. -/
def passSteps (_ : Threads ι) : ThreadAction ι → Nat
  | .undivided (.event ..) => 1
  | .undivided (.tick ..) => 1
  | _ => 0

/-- The event loop passes the test of `stop`, on its way to `kevent`. -/
def passesTest (t : Threads ι) : ThreadAction ι → Nat
  | .test => if t.world.stop then 0 else 1
  | _ => 0

variable [DecidableEq ι]

/-- One step. -/
def step (t : Threads ι) : ThreadAction ι → Option (Threads ι)
  | .setStop i =>
    if t.stopping i then none
    else some { t with world := { t.world with stop := true }, stopping := Function.update t.stopping i true }
  | .write i ret =>
    if t.stopping i then
      some { t with world := proactorNetWake ret t.world, stopping := Function.update t.stopping i false }
    else none
  | .test =>
    if t.world.running && t.world.batch.isNone && !t.waiting then
      if t.world.stop then some { t with world := { t.world with running := false } }
      else some { t with waiting := true }
    else none
  | .wait ans =>
    if t.waiting then (keventWait ans t.world).map fun w => { t with world := w, waiting := false } else none
  | .undivided a => if a.undivided then (Kevent.step t.world a).map fun w => { t with world := w } else none

/-- The threads as a machine. -/
def machine : Machine (Threads ι) (ThreadAction ι) := ⟨step⟩

end Threads

/-- The steps of the threads that a step of the backend is, where no other thread comes between. -/
def Action.divided {ι : Type u} (i : ι) (w : World) : Action → List (ThreadAction ι)
  | .stop ret => [.setStop i, .write i ret]
  | .wait ans => .test :: if w.stop then [] else [.wait ans]
  | a => [.undivided a]

end TagSim.Kevent
