import TagSim.Kevent.Proofs.StepProofs

/-!
# The tick of the sockets

The loop that ticks the sockets goes from its start to null, in order, whatever the start is. The source
does not initialise it: the listed sockets are ticked exactly when the pointer that the memory holds leads
through the same sockets with a tick callback.
-/

namespace TagSim.Kevent

open TagSim.Memory

/-- There is a socket at an address, with a tick callback. -/
def ticks (w : World) (a : Addr) : Bool := ((w.heap a).bind ProactorSocket.tickCb).isSome

/-- A pass of `proactor_net_run` has reached the tick stage, with this value of the pointer `sock`. -/
def TickStage (w : World) (act : Action) (start : Option Addr) : Prop :=
  w.batch = some [] ∧ ∃ fuel, act = .tick start fuel

/-- The tick stage ends. It calls the tick callback of the proactor, then those of the sockets on the list
    `l`, in order, and nothing else. -/
def TicksListed (w : World) (start : Option Addr) (l : List Addr) : Prop :=
  ∃ n, ∀ fuel, n ≤ fuel → ∃ w', machine.step w (.tick start fuel) = some w' ∧
    w'.history = l.reverse.flatMap (tickObs w) ++ (eventTickObs w ++ w.history)

/-- The pointer `start` leads to null through the sockets of the proactor, but for those without a tick
    callback. -/
def StartsAlike (w : World) (start : Option Addr) : Prop :=
  ∃ l l', Linked w.next w.sockets l ∧ Linked w.next start l' ∧ l'.filter (ticks w) = l.filter (ticks w)

variable {w₀ w w' : World} {act : Action} {as : List Action} {start p : Option Addr} {l l' : List Addr}
  {fuel : Nat} {a : Addr}

/-- The socket that a tick callback is called for. -/
def tickedSocket : Obs → Option Addr
  | .tickCb _ a .. => some a
  | _ => none

theorem filterMap_tickObs (w : World) (l : List Addr) :
    (l.flatMap (tickObs w)).filterMap tickedSocket = l.filter (ticks w) := by
  induction l with
  | nil => rfl
  | cons a l ih =>
    rw [List.flatMap_cons, List.filterMap_append, ih, List.filter_cons]
    unfold tickObs ticks
    cases hheap : w.heap a with
    | none => simp
    | some sock => cases hfunc : sock.tickCb <;> simp [hfunc, tickedSocket]

theorem flatMap_filter_ticks (w : World) (l : List Addr) :
    (l.filter (ticks w)).flatMap (tickObs w) = l.flatMap (tickObs w) := by
  induction l with
  | nil => rfl
  | cons a l ih =>
    by_cases hticks : ticks w a = true
    · rw [List.filter_cons_of_pos hticks, List.flatMap_cons, List.flatMap_cons, ih]
    · have hobs : tickObs w a = [] := by
        unfold tickObs
        unfold ticks at hticks
        cases hheap : w.heap a with
        | none => rfl
        | some sock => simpa [hheap] using hticks
      rw [List.filter_cons_of_neg hticks, List.flatMap_cons, hobs, ih, List.nil_append]

/-- Two lists are ticked alike exactly when they have the same sockets with a tick callback, in order. -/
theorem ticked_alike (w : World) (l l' : List Addr) :
    l'.reverse.flatMap (tickObs w) = l.reverse.flatMap (tickObs w) ↔
      l'.filter (ticks w) = l.filter (ticks w) := by
  constructor
  · intro h
    have hfilter := congrArg (List.filterMap tickedSocket) h
    rw [filterMap_tickObs, filterMap_tickObs, List.filter_reverse, List.filter_reverse] at hfilter
    exact List.reverse_injective hfilter
  · intro h
    rw [← flatMap_filter_ticks w l'.reverse, ← flatMap_filter_ticks w l.reverse, List.filter_reverse,
      List.filter_reverse, h]

/-- At the tick stage the loop ticks what its pointer leads through. -/
theorem ticksListed_iff (hbatch : w.batch = some []) (hl : Linked w.next w.sockets l) :
    TicksListed w start l ↔ StartsAlike w start := by
  have hstep : ∀ fuel, machine.step w (.tick start fuel) = tick start fuel { w with batch := none } := by
    intro fuel
    show step w (.tick start fuel) = _
    rw [step, hbatch]
  constructor
  · rintro ⟨n, hn⟩
    obtain ⟨w', hw', hlisted⟩ := hn n (Nat.le_refl n)
    rw [hstep] at hw'
    obtain ⟨l', hl', -, rfl⟩ := tick_cases hw'
    have hticked := List.append_cancel_right hlisted
    exact ⟨l, l', hl, hl', (ticked_alike w l l').mp hticked⟩
  · rintro ⟨l₁, l', hl₁, hl', halike⟩
    obtain rfl := hl.unique hl₁
    refine ⟨l'.length, fun fuel hfuel => ?_⟩
    refine ⟨_, (hstep fuel).trans (tick_of_linked (w := { w with batch := none }) hl' hfuel), ?_⟩
    exact congrArg (· ++ _) ((ticked_alike w l l').mpr halike)

section Run

/-- In every pass of a run that reaches the tick stage the listed sockets are ticked exactly when the
    uninitialised pointer leads through the same sockets with a tick callback. -/
theorem sockets_ticked_iff (hl : Linked w₀.next w₀.sockets l) :
    machine.AllSteps (fun v act => ∀ start, TickStage v act start → TicksListed v start l) w₀ as ↔
      machine.AllSteps (fun v act => ∀ start, TickStage v act start → StartsAlike v start) w₀ as := by
  have hkeeps : ∀ s act s', Linked s.next s.sockets l → machine.step s act = some s' →
      Linked s'.next s'.sockets l := by
    intro s act s' hs hact
    rw [(step_keeps hact).proactor.sockets]
    exact (step_keeps hact).linked hs
  refine Machine.allSteps_iff hkeeps (fun v act hv => ?_) hl
  exact forall_congr' fun start => forall_congr' fun hstage => ticksListed_iff hstage.1 hv

/-- A proactor with three sockets, of which the first has no tick callback. -/
def tickWorld : World :=
  { kq := 3
    wakeupFds := (4, 5)
    sockets := some 1
    heap := fun a =>
      if a = 1 then some { next := some 2, sock := 6, socketType := .udp }
      else if a = 2 then some { next := some 3, sock := 7, socketType := .udp, tickCb := some 1 }
      else if a = 3 then some { sock := 8, socketType := .udp, tickCb := some 1 }
      else none
    registered := fun fd filter => if fd = 4 ∧ filter = .read then some none else none }

/-- A pass without events. -/
def tickRun (start : Option Addr) : List Action := [.run, .wait (.events []), .tick start 3]

theorem tickWorld_linked : Linked tickWorld.next tickWorld.sockets [1, 2, 3] :=
  ⟨rfl, some 2, rfl, rfl, some 3, rfl, rfl, none, rfl, rfl⟩

/-- The pointer happens to lead past the socket that has no tick callback. -/
theorem tickRun_ticked : machine.AllSteps
    (fun v act => ∀ start, TickStage v act start → TicksListed v start [1, 2, 3]) tickWorld (tickRun (some 2)) := by
  refine (sockets_ticked_iff tickWorld_linked).mpr ?_
  refine (Machine.allSteps_cons rfl).mpr ⟨by simp [TickStage], ?_⟩
  refine (Machine.allSteps_cons rfl).mpr ⟨by simp [TickStage], ?_⟩
  refine (Machine.allSteps_cons rfl).mpr ⟨?_, trivial⟩
  rintro start ⟨-, fuel, hact⟩
  obtain ⟨rfl, -⟩ := Action.tick.inj hact
  exact ⟨[1, 2, 3], [2, 3], tickWorld_linked, ⟨rfl, some 3, rfl, rfl, none, rfl, rfl⟩, rfl⟩

/-- The pointer happens to be null, and no socket is ticked. -/
theorem tickRun_not_ticked : ¬ ∀ w₀ l as, Linked w₀.next w₀.sockets l →
    machine.AllSteps (fun v act => ∀ start, TickStage v act start → TicksListed v start l) w₀ as := by
  intro h
  obtain ⟨-, hall⟩ := h tickWorld [1, 2, 3] (tickRun none) tickWorld_linked
  obtain ⟨-, hall⟩ := hall _ rfl
  obtain ⟨hticks, -⟩ := hall _ rfl
  obtain ⟨n, hn⟩ := hticks none ⟨rfl, 3, rfl⟩
  obtain ⟨w', hw', hhist⟩ := hn (n + 1) (Nat.le_succ n)
  obtain rfl := Option.some.inj hw'
  cases hhist

end Run

end TagSim.Kevent
