import TagSim.Kevent.Proactor
import TagSim.Timing.Spaced

/-!
# The kevent backend with a clock

The steps of the kevent backend with the times, in nanoseconds, at which they begin and end. The clock
never goes backwards, and `kevent` returns no earlier than its timeout unless events are ready, or it
fails. A callback takes as long as it likes, and so does the time between two steps. A call of
`proactor_net_stop` or `proactor_net_wake` from elsewhere stands between two steps of the loop.
-/

namespace TagSim.Kevent

/-- The length of a `struct timespec`, in nanoseconds. -/
def TimeSpec.nanoseconds (ts : TimeSpec) : Nat := ts.tvSec * 1000000000 + ts.tvNsec

/-- The proactor with a clock. -/
structure Timed where
  world : World
  /-- The end of the last step. -/
  now : Nat
  /-- When the calls of `event_cb` with `PROACTOR_EVENT_TICK` began, newest first. -/
  ticks : List Nat := []
  /-- In this pass `kevent` has waited for its timeout. -/
  waited : Bool := false

/-- An action that begins and ends at the given times. -/
structure TimedAction where
  act : Action
  start : Nat
  finish : Nat

/-- `kevent` is called, and it returns because of its timeout. -/
def timesOut (w : World) : Action → Bool
  | .wait (.events []) => !w.stop
  | _ => false

/-- Whether `kevent` has waited for its timeout in the pass that an action belongs to. -/
def Timed.nextWaited (s : Timed) (act : Action) : Bool :=
  match act with
  | .wait _ => timesOut s.world act
  | .tick .. => false
  | _ => s.waited

/-- The times of the ticks after an action, which begins at `start`. The tick stage begins with the call of
    `event_cb`. -/
def Timed.nextTicks (s : Timed) (act : Action) (start : Nat) : List Nat :=
  match act, s.world.eventCb with
  | .tick .., some _ => start :: s.ticks
  | _, _ => s.ticks

/-- One step, at a time that the clock and `kevent` allow. -/
def Timed.step (s : Timed) (a : TimedAction) : Option Timed :=
  let earliest := if timesOut s.world a.act then a.start + s.world.tickTimeSpec.nanoseconds else a.start
  if s.now ≤ a.start ∧ earliest ≤ a.finish then
    (Kevent.step s.world a.act).map fun w =>
      { world := w, now := a.finish, ticks := s.nextTicks a.act a.start, waited := s.nextWaited a.act }
  else none

/-- The kevent backend with a clock as a machine. -/
def timedMachine : Machine Timed TimedAction := ⟨Timed.step⟩

/-- The ticks come at the rate of the period: consecutive ones are at least the period apart, and a window
    contains one more than it has periods at most. -/
structure TickRate (period : Nat) (ticks : List Nat) : Prop where
  apart : Timing.Spaced period ticks
  window : ∀ t T, (Timing.window t T ticks).length ≤ T / period + 1

/-- A pass whose `kevent` has not waited for its timeout is about to call `event_cb` with
    `PROACTOR_EVENT_TICK`. -/
def EarlyTick (s : Timed) (act : Action) : Prop :=
  s.waited = false ∧ s.world.eventCb.isSome ∧ ∃ start fuel, act = .tick start fuel

end TagSim.Kevent
