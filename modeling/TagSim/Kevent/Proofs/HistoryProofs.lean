import TagSim.Kevent.Proofs.PassProofs

/-!
# What a step adds to the history

A step makes a call of the application, handles the event of the wake pipe or that of a socket, or ticks.
What it adds to the history is stated here for each of these, in particular where the wake pipe is read and
written and where the event callback is called.
-/

namespace TagSim.Kevent

/-- Observations about a socket. -/
def Obs.OfSocket : Obs → Prop
  | .closed _ | .wakeRead _ | .wakeWrite .. | .eventCb .. => False
  | _ => True

/-- The history goes on with observations about sockets. -/
def Logs (w w' : World) : Prop := ∃ pre, (∀ o ∈ pre, o.OfSocket) ∧ w'.history = pre ++ w.history

/-- The event loop is about to handle the read event of the wake pipe. -/
def HandlesWake (w : World) (act : Action) : Prop :=
  ∃ accept read ev rest, act = .event accept read ∧ w.batch = some (ev :: rest) ∧ ev.ident = w.wakeupFds.1

/-- What a step adds to the history. -/
inductive Adds (w : World) (act : Action) (w' : World) : Prop
  | wakeRead (hhandles : HandlesWake w act) (hhist : w'.history = .wakeRead w.wakeupFds.1 :: w.history)
  | wakeWrite (ret : Int) (hact : act = .stop ret ∨ act = .wake ret)
      (hhist : w'.history = .wakeWrite w.wakeupFds.2 ret :: w.history)
  | nothing (hact : act = .run ∨ ∃ ans, act = .wait ans) (hhist : w'.history = w.history)
  | event (accept read) (hact : act = .event accept read) (hnot : ¬ HandlesWake w act) (hlogs : Logs w w')
  | tick (start fuel) (hact : act = .tick start fuel)
      (hhist : ∃ pre, (∀ o ∈ pre, o.OfSocket) ∧ w'.history = pre ++ (eventTickObs w ++ w.history))

variable {w w' : World} {act : Action} {a : Addr} {rc : Status}

theorem Logs.of_eq (hhist : w'.history = w.history) : Logs w w' := ⟨[], by simp, hhist⟩

theorem Logs.cons {w₁ : World} {o : Obs} (h : Logs w₁ w') (hhist : w₁.history = o :: w.history)
    (ho : o.OfSocket) : Logs w w' := by
  obtain ⟨pre, hpre, heq⟩ := h
  refine ⟨pre ++ [o], fun o' ho' => ?_, ?_⟩
  · rcases List.mem_append.mp ho' with ho' | ho'
    · exact hpre o' ho'
    · rw [List.mem_singleton.mp ho']
      exact ho
  · rw [heq, hhist, List.append_assoc]
    rfl

theorem AcceptWay.logs {server : ProactorSocket} {ans : AcceptAnswers} (hway : AcceptWay w a server ans rc w') :
    Logs w w' := by
  cases hway with
  | noCallback _ _ hw | noMemory _ _ _ _ hw =>
    subst hw
    exact .of_eq rfl
  | accepted func c _ _ _ _ hw =>
    subst hw
    exact ⟨[_, _], by simp [Obs.OfSocket], rfl⟩

theorem ReadWay.logs {sock : ProactorSocket} {ans : ReadAnswers} (hway : ReadWay w a sock ans rc w') :
    Logs w w' := by
  cases hway with
  | noCallback _ _ hw =>
    subst hw
    exact .of_eq rfl
  | failed func buf _ _ _ _ hw =>
    subst hw
    exact ⟨[_], by simp [Obs.OfSocket], rfl⟩
  | received func buf message got _ _ _ _ _ _ hw =>
    subst hw
    exact ⟨[_, _], by simp [Obs.OfSocket], rfl⟩
  | ended func buf message _ _ _ _ _ hw =>
    subst hw
    refine ⟨closeObs sock a .ok ++ [.recvfrom a message], ?_, by simp⟩
    unfold closeObs
    cases sock.closeCb <;> simp [Obs.OfSocket]

/-- Either the wake pipe is read, or the event is about a socket. -/
theorem EventWay.adds {ev : Event} {accept : AcceptAnswers} {read : ReadAnswers}
    (hway : EventWay w ev accept read w') :
    if ev.ident = w.wakeupFds.1 then w'.history = .wakeRead w.wakeupFds.1 :: w.history else Logs w w' := by
  cases hway with
  | wake hwake hw =>
    rw [if_pos hwake, hw]
    rfl
  | other hother _ hw | unknown _ _ _ hother _ _ _ _ hw =>
    rw [if_neg hother, hw]
    exact .of_eq rfl
  | accepts a server rc hother _ _ _ _ hway =>
    rw [if_neg hother]
    exact hway.logs
  | reads a sock rc hother _ _ _ _ hway =>
    rw [if_neg hother]
    exact hway.logs

theorem step_adds (hstep : machine.step w act = some w') : Adds w act w' := by
  cases step_cases hstep with
  | call ret stop hact hw => exact .wakeWrite ret hact (by rw [hw])
  | loop running batch hact hw => exact .nothing hact (by rw [hw])
  | event accept read ev rest hact hbatch hway =>
    have hadds := hway.adds
    by_cases hwake : ev.ident = w.wakeupFds.1
    · rw [if_pos hwake] at hadds
      exact .wakeRead ⟨accept, read, ev, rest, hact, hbatch, hwake⟩ hadds
    · rw [if_neg hwake] at hadds
      refine .event accept read hact ?_ hadds
      rintro ⟨accept', read', ev', rest', -, hbatch', hwake'⟩
      obtain ⟨rfl, -⟩ := List.cons.inj (Option.some.inj (hbatch.symm.trans hbatch'))
      exact hwake hwake'
  | tick start fuel l hact _ _ hw =>
    refine .tick start fuel hact ⟨l.reverse.flatMap (tickObs w), fun o ho => ?_, by rw [hw]; rfl⟩
    obtain ⟨func, a, sock, rfl⟩ := eq_of_mem_tickObs ho
    trivial

end TagSim.Kevent
