import TagSim.Kevent.History
import TagSim.Kevent.Timed
import TagSim.Kevent.Proofs.CreateProofs
import TagSim.Kevent.Proofs.HistoryProofs
import TagSim.Kevent.Proofs.StepProofs
import TagSim.Timing.Proofs.SpacedProofs

/-!
# The rate of the ticks

The period is only the timeout of `kevent`. A pass that waits for it ticks in time, since the previous tick
came before the call. A pass that handles events ticks at once: the ticks come at their rate exactly when
each such tick happens to come late enough.
-/

namespace TagSim.Kevent

open TagSim.Timing

/-- No tick is after the present, and where `kevent` has waited for the period the last tick is as long ago. -/
structure Timely (period : Nat) (s : Timed) : Prop where
  period_eq : s.world.tickTimeSpec.nanoseconds = period
  past : ∀ t ∈ s.ticks, t ≤ s.now
  waited : s.waited = true → ∀ t ∈ s.ticks, t + period ≤ s.now

variable {s₀ s s' : Timed} {a : TimedAction} {as : List TimedAction} {w₀ w v : World} {act : Action}
  {period t₀ : Nat} {eventCb : Option FuncPtr} {appData : Ptr} {tickPeriodMs : UInt64} {ans : CreateAnswers}

theorem nanoseconds_tickTimeSpec (tickPeriodMs : UInt64) :
    (tickTimeSpec tickPeriodMs).nanoseconds = tickPeriodMs.toNat * 1000000 := by
  unfold tickTimeSpec TimeSpec.nanoseconds
  have hdiv := Nat.div_add_mod tickPeriodMs.toNat 1000
  simp only
  omega

/-- The times of a step, and the step that it is without them. -/
theorem timed_step (h : timedMachine.step s a = some s') :
    s.now ≤ a.start ∧ a.start ≤ a.finish ∧
      (timesOut s.world a.act = true → a.start + s.world.tickTimeSpec.nanoseconds ≤ a.finish) ∧
      machine.step s.world a.act = some s'.world ∧ s'.now = a.finish ∧
      s'.ticks = s.nextTicks a.act a.start ∧ s'.waited = s.nextWaited a.act := by
  have hstep : (if s.now ≤ a.start ∧ (if timesOut s.world a.act then
      a.start + s.world.tickTimeSpec.nanoseconds else a.start) ≤ a.finish then
    (step s.world a.act).map fun w =>
      { world := w, now := a.finish, ticks := s.nextTicks a.act a.start, waited := s.nextWaited a.act }
    else none) = some s' := h
  obtain ⟨⟨hstart, hfinish⟩, hstep⟩ := Option.ite_none_right_eq_some.mp hstep
  obtain ⟨w, hw, rfl⟩ := Option.map_eq_some_iff.mp hstep
  refine ⟨hstart, ?_, fun htimeout => ?_, hw, rfl, rfl, rfl⟩
  · split at hfinish <;> omega
  · rw [if_pos htimeout] at hfinish
    exact hfinish

/-- Without its times, a run is a run of the kevent backend. -/
theorem run_world (hrun : timedMachine.run s as = some s') :
    machine.run s.world (as.map TimedAction.act) = some s'.world := by
  induction as generalizing s with
  | nil =>
    obtain rfl := Option.some.inj hrun
    rfl
  | cons a as ih =>
    obtain ⟨t, ht, hrun⟩ := Machine.run_cons_some hrun
    obtain ⟨-, -, -, hstep, -⟩ := timed_step ht
    show (machine.step s.world a.act).bind _ = _
    rw [hstep]
    exact ih hrun

/-- The times of the ticks are changed by the tick stage only. -/
theorem nextTicks_of_ne (hact : ∀ start fuel, act ≠ .tick start fuel) (t : Nat) : s.nextTicks act t = s.ticks := by
  unfold Timed.nextTicks
  split
  · exact absurd rfl (hact _ _)
  · rfl

theorem nextTicks_tick (start : Option Addr) (fuel t : Nat) :
    s.nextTicks (.tick start fuel) t = if s.world.eventCb.isSome then t :: s.ticks else s.ticks := by
  unfold Timed.nextTicks
  cases s.world.eventCb <;> rfl

theorem mem_nextTicks {t u : Nat} (h : u ∈ s.nextTicks act t) : u = t ∨ u ∈ s.ticks := by
  unfold Timed.nextTicks at h
  split at h
  · exact List.mem_cons.mp h
  · exact Or.inr h

theorem tickCalls_append {pre h : List Obs} (hpre : ∀ o ∈ pre, o.OfSocket) :
    tickCalls (pre ++ h) = tickCalls h := by
  have hnone : pre.countP Obs.isTick = 0 := by
    refine List.countP_eq_zero.mpr fun o ho => ?_
    have hsocket := hpre o ho
    cases o with
    | eventCb => exact hsocket.elim
    | _ => exact Bool.false_ne_true
  unfold tickCalls
  rw [List.countP_append, hnone, Nat.zero_add]

/-- A step logs the time of a call of `event_cb` with `PROACTOR_EVENT_TICK` exactly where it makes one. -/
theorem nextTicks_timed (hstep : machine.step s.world act = some w) (t : Nat) :
    (s.nextTicks act t).length + tickCalls s.world.history = s.ticks.length + tickCalls w.history := by
  cases step_adds hstep with
  | wakeRead hhandles hhist =>
    obtain ⟨accept, read, ev, rest, hact, -⟩ := hhandles
    have hne : ∀ start fuel, act ≠ .tick start fuel := by rintro start fuel rfl; cases hact
    rw [nextTicks_of_ne hne, hhist]
    rfl
  | wakeWrite ret hact hhist =>
    have hne : ∀ start fuel, act ≠ .tick start fuel := by rcases hact with rfl | rfl <;> exact nofun
    rw [nextTicks_of_ne hne, hhist]
    rfl
  | nothing hact hhist =>
    have hne : ∀ start fuel, act ≠ .tick start fuel := by rcases hact with rfl | ⟨ans, rfl⟩ <;> exact nofun
    rw [nextTicks_of_ne hne, hhist]
  | event accept read hact _ hlogs =>
    have hne : ∀ start fuel, act ≠ .tick start fuel := by rintro start fuel rfl; cases hact
    obtain ⟨pre, hpre, hhist⟩ := hlogs
    rw [nextTicks_of_ne hne, hhist, tickCalls_append hpre]
  | tick start fuel hact hhist =>
    subst hact
    obtain ⟨pre, hpre, hhist⟩ := hhist
    rw [nextTicks_tick, hhist, tickCalls_append hpre, eventTickObs]
    cases s.world.eventCb with
    | none => rfl
    | some func =>
      have hcall : tickCalls (.eventCb func .tick .ok s.world.appData :: s.world.history) =
          tickCalls s.world.history + 1 := List.countP_cons_of_pos rfl
      show (s.ticks.length + 1) + _ = _ + tickCalls (.eventCb func .tick .ok s.world.appData :: s.world.history)
      omega

/-- A run logs the time of every call of `event_cb` with `PROACTOR_EVENT_TICK`. -/
theorem ticks_timed (hrun : timedMachine.run s as = some s') :
    s'.ticks.length + tickCalls s.world.history = s.ticks.length + tickCalls s'.world.history := by
  have hinv : ∀ u a u', u.ticks.length + tickCalls s.world.history =
      s.ticks.length + tickCalls u.world.history → timedMachine.step u a = some u' →
      u'.ticks.length + tickCalls s.world.history = s.ticks.length + tickCalls u'.world.history := by
    intro u a u' hu hstep
    obtain ⟨-, -, -, hworld, -, hticks, -⟩ := timed_step hstep
    have htimed := nextTicks_timed hworld a.start
    rw [hticks]
    omega
  exact Machine.run_preserves hinv rfl hrun

/-- `waited` is set by the timeout of `kevent` and kept until the tick stage. -/
theorem nextWaited_cases (h : s.nextWaited act = true) :
    timesOut s.world act = true ∨ s.waited = true ∧ ∀ start fuel, act ≠ .tick start fuel := by
  cases act with
  | wait ans => exact Or.inl h
  | tick start fuel => cases h
  | _ => exact Or.inr ⟨h, nofun⟩

theorem timesOut_not_tick (h : timesOut w act = true) : ∀ start fuel, act ≠ .tick start fuel := by
  rintro start fuel rfl
  cases h

theorem timely_step (hs : Timely period s) (h : timedMachine.step s a = some s') : Timely period s' := by
  obtain ⟨hstart, hfinish, htimeout, hstep, hnow, hticks, hwaited⟩ := timed_step h
  refine ⟨?_, ?_, ?_⟩
  · rw [(step_keeps hstep).proactor.tickTimeSpec]
    exact hs.period_eq
  · intro t ht
    rw [hticks] at ht
    rw [hnow]
    rcases mem_nextTicks ht with rfl | ht
    · exact hfinish
    · have hpast := hs.past t ht
      omega
  · intro hw t ht
    rw [hwaited] at hw
    rw [hticks] at ht
    rw [hnow]
    rcases nextWaited_cases hw with hout | ⟨hw, hact⟩
    · -- `kevent` was called after the tick, and has returned a period later
      rw [nextTicks_of_ne (timesOut_not_tick hout)] at ht
      have hpast := hs.past t ht
      have hlate := htimeout hout
      rw [hs.period_eq] at hlate
      omega
    · rw [nextTicks_of_ne hact] at ht
      have hago := hs.waited hw t ht
      omega

/-- A step keeps the ticks spaced exactly when a tick that did not wait for the timeout comes late enough. -/
theorem spaced_step (hs : Timely period s) (h : timedMachine.step s a = some s') :
    Spaced period s'.ticks ↔
      Spaced period s.ticks ∧ (EarlyTick s a.act → ∀ t ∈ s.ticks.head?, t + period ≤ a.start) := by
  obtain ⟨hstart, -, -, -, -, hticks, -⟩ := timed_step h
  rw [hticks]
  by_cases htick : s.world.eventCb.isSome ∧ ∃ start fuel, a.act = .tick start fuel
  · obtain ⟨hcb, start, fuel, hact⟩ := htick
    rw [hact, nextTicks_tick, if_pos hcb, spaced_cons, and_comm]
    refine and_congr_right fun _ => ⟨fun hlate _ => hlate, fun hlate t ht => ?_⟩
    by_cases hwaited : s.waited = true
    · have hago := hs.waited hwaited t (List.mem_of_head? ht)
      omega
    · exact hlate ⟨by simpa using hwaited, hcb, start, fuel, rfl⟩ t ht
  · have hnot : ¬ EarlyTick s a.act := fun hearly => htick hearly.2
    have heq : s.nextTicks a.act a.start = s.ticks := by
      unfold Timed.nextTicks
      split
      · next start fuel func hact hcb =>
        exact absurd ⟨by rw [hcb]; rfl, start, fuel, hact⟩ htick
      · rfl
    rw [heq]
    exact ⟨fun hspaced => ⟨hspaced, fun hearly => absurd hearly hnot⟩, fun hspaced => hspaced.1⟩

theorem tickRate_iff (hpos : 0 < period) {ticks : List Nat} : TickRate period ticks ↔ Spaced period ticks :=
  ⟨fun h => h.apart, fun h => ⟨h, fun _ _ => h.window_le hpos⟩⟩

section Run

/-- From `proactor_net_create` with a period on, whatever sockets are on the list, the ticks of a run come
    at their rate exactly when each tick of a pass that did not wait for the timeout comes a period after
    the tick before it. -/
theorem tick_rate_iff (hcreate : proactorNetCreate eventCb appData tickPeriodMs ans = some v)
    (hpos : 0 < tickPeriodMs)
    (hproactor : w₀.toProactorT = { v.toProactorT with stop := w₀.stop, sockets := w₀.sockets })
    (hrun : timedMachine.run { world := w₀, now := t₀ } as = some s) :
    TickRate (tickPeriodMs.toNat * 1000000) s.ticks ↔
      timedMachine.AllSteps (fun u a => EarlyTick u a.act →
        ∀ t ∈ u.ticks.head?, t + tickPeriodMs.toNat * 1000000 ≤ a.start) { world := w₀, now := t₀ } as := by
  have hperiod : w₀.tickTimeSpec.nanoseconds = tickPeriodMs.toNat * 1000000 := by
    rw [hproactor, ← nanoseconds_tickTimeSpec, create_proactor hcreate]
  have hnonzero : 0 < tickPeriodMs.toNat * 1000000 := by
    have hlt : 0 < tickPeriodMs.toNat := hpos
    omega
  have hinit : Timely (tickPeriodMs.toNat * 1000000) { world := w₀, now := t₀ } := ⟨hperiod, nofun, nofun⟩
  rw [tickRate_iff hnonzero,
    Machine.run_iff_allSteps (fun _ _ _ => timely_step) (fun _ _ _ => spaced_step) hinit hrun]
  exact and_iff_right spaced_nil

/-- A proactor that ticks every second, without sockets. -/
def secondWorld : World :=
  { kq := 3
    wakeupFds := (4, 5)
    tickTimeSpec := { tvSec := 1 }
    eventCb := some 1
    heap := fun _ => none
    registered := fun fd filter => if fd = 4 ∧ filter = .read then some none else none }

/-- The proactor is woken twice, the second time at the time `t`. -/
def twoWakes (t : Nat) : List TimedAction :=
  [⟨.run, 0, 0⟩, ⟨.wake 1, 0, 0⟩, ⟨.wait (.events [⟨4, .read, none⟩]), 0, 0⟩, ⟨.event {} {}, 0, 0⟩,
    ⟨.tick none 0, 0, 0⟩, ⟨.wake 1, t, t⟩, ⟨.wait (.events [⟨4, .read, none⟩]), t, t⟩, ⟨.event {} {}, t, t⟩,
    ⟨.tick none 0, t, t⟩]

theorem secondWorld_created : proactorNetCreate (some 1) 0 1000 { kqueue := 3, pipe := some (4, 5) } =
    some secondWorld := rfl

theorem twoWakes_rate : ∃ s, timedMachine.run { world := secondWorld, now := 0 } (twoWakes 1000000000) = some s ∧
    TickRate ((1000 : UInt64).toNat * 1000000) s.ticks := by
  have hsome : (timedMachine.run { world := secondWorld, now := 0 } (twoWakes 1000000000)).isSome = true := rfl
  have hrun := (Option.some_get hsome).symm
  refine ⟨_, hrun, ?_⟩
  refine (tick_rate_iff secondWorld_created (by decide) rfl hrun).mpr ?_
  have hnot : ∀ {u act}, (∀ start fuel, act ≠ .tick start fuel) → ¬ EarlyTick u act := by
    rintro u act hact ⟨-, -, start, fuel, rfl⟩
    exact hact start fuel rfl
  -- `run`, `wake`, `kevent` and its event
  refine (Machine.allSteps_cons rfl).mpr ⟨fun h => absurd h (hnot nofun), ?_⟩
  refine (Machine.allSteps_cons rfl).mpr ⟨fun h => absurd h (hnot nofun), ?_⟩
  refine (Machine.allSteps_cons rfl).mpr ⟨fun h => absurd h (hnot nofun), ?_⟩
  refine (Machine.allSteps_cons rfl).mpr ⟨fun h => absurd h (hnot nofun), ?_⟩
  -- the first tick
  refine (Machine.allSteps_cons rfl).mpr ⟨(fun _ t ht => by cases ht), ?_⟩
  refine (Machine.allSteps_cons rfl).mpr ⟨fun h => absurd h (hnot nofun), ?_⟩
  refine (Machine.allSteps_cons rfl).mpr ⟨fun h => absurd h (hnot nofun), ?_⟩
  refine (Machine.allSteps_cons rfl).mpr ⟨fun h => absurd h (hnot nofun), ?_⟩
  -- the second tick
  refine (Machine.allSteps_cons rfl).mpr ⟨fun _ t ht => ?_, trivial⟩
  obtain rfl : 0 = t := Option.some.inj ht
  decide

/-- The proactor is woken again at once, and ticks again at once. -/
theorem twoWakes_tooFast : ¬ ∀ eventCb appData tickPeriodMs ans v w₀ t₀ as s,
    proactorNetCreate eventCb appData tickPeriodMs ans = some v → 0 < tickPeriodMs →
    w₀.toProactorT = { v.toProactorT with stop := w₀.stop, sockets := w₀.sockets } →
    timedMachine.run { world := w₀, now := t₀ } as = some s →
    TickRate (tickPeriodMs.toNat * 1000000) s.ticks := by
  intro h
  have hsome : (timedMachine.run { world := secondWorld, now := 0 } (twoWakes 1)).isSome = true := rfl
  have hrun := (Option.some_get hsome).symm
  have hrate := h _ _ _ _ _ _ _ _ _ secondWorld_created (by decide) rfl hrun
  have hspaced : Spaced 1000000000 [1, 0] := hrate.apart
  have hlate : 0 + 1000000000 ≤ 1 := (spaced_cons.mp hspaced).1 0 rfl
  exact absurd hlate (by decide)

end Run

end TagSim.Kevent
