import TagSim.Epoll.Proofs.RegistryProofs
import TagSim.Epoll.Threads
import TagSim.Signal.Proofs.SignalProofs

/-!
# No stop is lost

The threads simulate a flag and a channel of tokens: `stop` is the flag, a byte in the wake pipe is a token,
and the wake pipe's event in the batch is the promise of one. Taken without interruption, the steps of a
thread are the functions of the sequential model.
-/

namespace TagSim.Epoll

universe u

section Steps

variable {K : KernelRules} {w w' : World} {a : Action}

/-- `proactor_tcp_epoll_run` tests `stop` and calls `epoll_wait`. -/
theorem waitEvents_eq (ans : WaitAnswer) (w : World) :
    waitEvents K ans w = if w.stop then some { w with running := false } else epollWait K ans w := by
  unfold waitEvents epollWait
  cases ans <;> rfl

/-- The ways through the return of `epoll_wait`. -/
inductive WaitWay (K : KernelRules) (w : World) : WaitAnswer → World → Prop
  | events (evs) (hlegal : K.wait w.kernel evs) : WaitWay K w (.events evs) { w with batch := evs }
  | interrupted : WaitWay K w .interrupted w
  | failed (hfails : K.waitFails) : WaitWay K w .failed (handleError "epoll_wait" w)

theorem epollWait_cases {ans : WaitAnswer} (h : epollWait K ans w = some w') : WaitWay K w ans w' := by
  unfold epollWait at h
  cases ans with
  | events evs =>
    simp only at h
    split_ifs at h with hlegal
    obtain rfl := Option.some.inj h
    exact .events evs hlegal
  | interrupted =>
    obtain rfl := Option.some.inj h
    exact .interrupted
  | failed =>
    simp only at h
    split_ifs at h with hfails
    obtain rfl := Option.some.inj h
    exact .failed hfails

/-- Only `proactor_tcp_epoll_stop` sets `stop`. -/
theorem Outcome.stop_eq (h : Outcome K w a w') (hexit : w'.exited = false) (ha : ∀ ret, a ≠ .stop ret) :
    w'.stop = w.stop := by
  cases h with
  | stop ret => exact absurd rfl (ha ret)
  | exit a w' hcan hexit' hsilent =>
    rw [hexit] at hexit'
    cases hexit'
  | _ => rfl

theorem Outcome.wakeupFds_eq (h : Outcome K w a w') (hexit : w'.exited = false) :
    w'.wakeupFds = w.wakeupFds := by
  cases h with
  | exit a w' hcan hexit' hsilent =>
    rw [hexit] at hexit'
    cases hexit'
  | _ => rfl

/-- A call of the application leaves the batch alone. -/
theorem Outcome.batch_of_call (h : Outcome K w a w') (hexit : w'.exited = false) (ha : a.isCall = true) :
    w'.batch = w.batch := by
  cases h with
  | exit a w' hcan hexit' hsilent =>
    rw [hexit] at hexit'
    cases hexit'
  | startServer | connect | sendRejected | sendAccepted | setReceiveCallback | setSendCompleteCallback
  | setAcceptCallback | run | returnAccept | returnReceive | returnSendComplete => rfl
  | _ => cases ha

/-- The event loop takes the event that it handles from the batch. -/
theorem Outcome.batch_of_event {ans : EventAnswers} {ev₀ : Event} {rest₀ : List Event}
    (h : Outcome K w (.event ans) w') (hexit : w'.exited = false) (hbatch : w.batch = ev₀ :: rest₀) :
    w'.batch = rest₀ := by
  cases h with
  | exit a w' hcan hexit' hsilent =>
    rw [hexit] at hexit'
    cases hexit'
  | eventWake ans ev rest hev | acceptFailed ans ev rest hev | acceptCallback ans ev rest func hev
  | acceptRegistered ans ev rest hev | dataEnd ans ev rest pre hev | dataUnread ans ev rest buf hev
  | dataCallback ans ev rest buf func hev | writeIdle ans ev rest hev | writeFailed ans ev rest req hev
  | writePartial ans ev rest req k hev | writeFinished ans ev rest req k hev
  | writeCallback ans ev rest req k func hev | ignored ans ev rest hev =>
    exact (List.cons.inj (hev.batch.symm.trans hbatch)).2

end Steps

namespace Threads

variable {ι : Type u} [DecidableEq ι] {K : KernelRules} {capacity : Nat} {t t' : Threads ι}
  {act : ThreadAction ι}

omit [DecidableEq ι] in
/-- The event loop is at its head, and has not tested `stop`. -/
structure AtHead (t : Threads ι) : Prop where
  running : t.world.running = true
  callback : t.world.callback = none
  batch : t.world.batch = []
  waiting : t.waiting = false

section Uninterrupted

variable {i : ι}

/-- A call of `proactor_tcp_epoll_stop` that no other thread interrupts. -/
theorem callStop_uninterrupted (halive : t.world.exited = false) (hidle : t.callers i = .idle)
    (hroom : t.pipe.length < capacity) :
    (machine K capacity).run t [.callStop i, .setStop i, .write i] =
      some { t with world := proactorTcpEpollStop 1 t.world, pipe := t.pipe ++ [1] } := by
  have hcallers : Function.update t.callers i .idle = t.callers := by
    rw [← hidle, Function.update_eq_self]
  simp [Machine.run, machine, step, moveTo, halive, hidle, hroom, hcallers, proactorTcpEpollStop]

/-- The test and the wait of the event loop, when no other thread interrupts them. -/
theorem wait_uninterrupted {ans : WaitAnswer} (halive : t.world.exited = false)
    (hhead : t.AtHead) (hgoes : t.world.stop = false) (hready : t.reportable ans = true) :
    (machine K capacity).run t [.test, .wait ans] =
      (waitEvents K ans t.world).map fun w => { t with world := w } := by
  have hready' : ({ t with waiting := true } : Threads ι).reportable ans = true := hready
  rw [waitEvents_eq, if_neg (by simp [hgoes])]
  simp [Machine.run, machine, step, halive, hhead.running, hhead.callback, hhead.batch, hhead.waiting, hgoes,
    hready']

end Uninterrupted

section Ways

/-- The ways through a step of one thread. -/
inductive ThreadWay (K : KernelRules) (capacity : Nat) (t : Threads ι) : ThreadAction ι → Threads ι → Prop
  | callWake (i : ι) (hpoint : t.callers i = .idle) :
      ThreadWay K capacity t (.callWake i) (t.moveTo i (.write false))
  | callStop (i : ι) (hpoint : t.callers i = .idle) : ThreadWay K capacity t (.callStop i) (t.moveTo i .setStop)
  | setStop (i : ι) (hpoint : t.callers i = .setStop) : ThreadWay K capacity t (.setStop i)
      { t.moveTo i (.write true) with world := { t.world with stop := true } }
  | write (i : ι) (stops : Bool) (hpoint : t.callers i = .write stops) (hroom : t.pipe.length < capacity) :
      ThreadWay K capacity t (.write i)
        { t.moveTo i .idle with world := proactorTcpEpollWake 1 t.world, pipe := t.pipe ++ [1] }
  | writeFails (i : ι) (stops : Bool) (hpoint : t.callers i = .write stops) :
      ThreadWay K capacity t (.writeFails i) { t with world := proactorTcpEpollWake (-1) t.world }
  | returns (hhead : t.AtHead) (hstop : t.world.stop = true) :
      ThreadWay K capacity t .test { t with world := { t.world with running := false } }
  | goesOn (hhead : t.AtHead) (hstop : t.world.stop = false) : ThreadWay K capacity t .test { t with waiting := true }
  | wait (ans : WaitAnswer) (w : World) (hwaiting : t.waiting = true) (hready : t.reportable ans = true)
      (hwait : epollWait K ans t.world = some w) :
      ThreadWay K capacity t (.wait ans) { t with world := w, waiting := false }
  | readsWake (ans : EventAnswers) (ev : Event) (rest : List Event) (b : Byte) (pipe : List Byte) (w : World)
      (hnext : t.next = some ev) (hbatch : t.world.batch = ev :: rest) (hroute : route t.world ev = .wake)
      (hpipe : t.pipe = b :: pipe) (hstep : Epoll.step K t.world (.event ans) = some w) :
      ThreadWay K capacity t (.event ans) { t with world := w, pipe := pipe }
  | event (ans : EventAnswers) (ev : Event) (rest : List Event) (w : World) (hnext : t.next = some ev)
      (hbatch : t.world.batch = ev :: rest) (hroute : route t.world ev ≠ .wake)
      (hstep : Epoll.step K t.world (.event ans) = some w) :
      ThreadWay K capacity t (.event ans) { t with world := w }
  | call (a : Action) (w : World) (hcall : a.isCall = true) (hstep : Epoll.step K t.world a = some w) :
      ThreadWay K capacity t (.call a) { t with world := w }

omit [DecidableEq ι] in
theorem next_eq_some {ev : Event} (h : t.next = some ev) :
    t.world.callback = none ∧ ∃ rest, t.world.batch = ev :: rest := by
  unfold next at h
  split at h
  · next ev' rest hcb hbatch =>
    obtain rfl := Option.some.inj h
    exact ⟨hcb, rest, hbatch⟩
  · cases h

theorem step_alive (h : (machine K capacity).step t act = some t') : t.world.exited = false := by
  have hstep : step K capacity t act = some t' := h
  unfold step at hstep
  by_contra hex
  rw [if_pos (Bool.eq_true_of_not_eq_false hex)] at hstep
  cases hstep

theorem event_cases {ans : EventAnswers} (halive : t.world.exited = false)
    (h : step K capacity t (.event ans) = some t') : ThreadWay K capacity t (.event ans) t' := by
  rw [step, if_neg (by simp [halive])] at h
  cases hnext : t.next with
  | none => simp [hnext] at h
  | some ev =>
    obtain ⟨-, rest, hbatch⟩ := next_eq_some hnext
    simp only [hnext] at h
    by_cases hroute : route t.world ev = .wake
    · rw [if_pos hroute] at h
      cases hpipe : t.pipe with
      | nil => simp [hpipe] at h
      | cons b pipe =>
        simp only [hpipe] at h
        obtain ⟨w, hstep, rfl⟩ := Option.map_eq_some_iff.mp h
        exact .readsWake ans ev rest b pipe w hnext hbatch hroute hpipe hstep
    · rw [if_neg hroute] at h
      obtain ⟨w, hstep, rfl⟩ := Option.map_eq_some_iff.mp h
      exact .event ans ev rest w hnext hbatch hroute hstep

theorem test_cases (halive : t.world.exited = false) (h : step K capacity t .test = some t') :
    ThreadWay K capacity t .test t' := by
  rw [step, if_neg (by simp [halive])] at h
  simp only at h
  split_ifs at h with hhead hstop
  all_goals
    obtain rfl := Option.some.inj h
    simp only [Bool.and_eq_true, List.isEmpty_iff, Option.isNone_iff_eq_none, Bool.not_eq_true'] at hhead
    obtain ⟨⟨⟨hrunning, hcb⟩, hbatch⟩, hwaiting⟩ := hhead
  · exact .returns ⟨hrunning, hcb, hbatch, hwaiting⟩ hstop
  · exact .goesOn ⟨hrunning, hcb, hbatch, hwaiting⟩ (Bool.eq_false_iff.mpr hstop)

/-- Every step of a thread goes one of these ways. -/
theorem step_cases (h : (machine K capacity).step t act = some t') : ThreadWay K capacity t act t' := by
  have hstep : step K capacity t act = some t' := h
  have halive := step_alive h
  cases act with
  | callWake i =>
    rw [step, if_neg (by simp [halive])] at hstep
    split_ifs at hstep with hpoint
    obtain rfl := Option.some.inj hstep
    exact .callWake i hpoint
  | callStop i =>
    rw [step, if_neg (by simp [halive])] at hstep
    split_ifs at hstep with hpoint
    obtain rfl := Option.some.inj hstep
    exact .callStop i hpoint
  | setStop i =>
    rw [step, if_neg (by simp [halive])] at hstep
    simp only at hstep
    split_ifs at hstep with hpoint
    obtain rfl := Option.some.inj hstep
    exact .setStop i hpoint
  | write i =>
    rw [step, if_neg (by simp [halive])] at hstep
    cases hpoint : t.callers i with
    | idle | setStop => simp [hpoint] at hstep
    | write stops =>
      simp only [hpoint] at hstep
      split_ifs at hstep with hroom
      obtain rfl := Option.some.inj hstep
      exact .write i stops hpoint hroom
  | writeFails i =>
    rw [step, if_neg (by simp [halive])] at hstep
    cases hpoint : t.callers i with
    | idle | setStop => simp [hpoint] at hstep
    | write stops =>
      simp only [hpoint] at hstep
      obtain rfl := Option.some.inj hstep
      exact .writeFails i stops hpoint
  | test => exact test_cases halive hstep
  | wait ans =>
    rw [step, if_neg (by simp [halive])] at hstep
    split_ifs at hstep with hready
    rw [Bool.and_eq_true] at hready
    obtain ⟨w, hwait, rfl⟩ := Option.map_eq_some_iff.mp hstep
    exact .wait ans w hready.1 hready.2 hwait
  | event ans => exact event_cases halive hstep
  | call a =>
    rw [step, if_neg (by simp [halive])] at hstep
    split_ifs at hstep with hcall
    obtain ⟨w, hact, rfl⟩ := Option.map_eq_some_iff.mp hstep
    exact .call a w hcall hact

end Ways

/-- The flag and the channel that the threads share. -/
def signal (t : Threads ι) : Signal ι where
  raised := t.world.stop
  tokens := t.pipe.length
  waiting := t.waiting
  promised := t.world.batch.any fun ev => ev.fd = t.world.wakeupFds.1
  owing := {i | t.callers i = .write true}

/-- A step of the threads is at most one step of the flag and the channel, and it keeps the registry. -/
structure Follows (t t' : Threads ι) : Prop where
  registry : Registry t'.world
  follows : t'.signal = t.signal ∨ Signal.Step t.signal t'.signal

omit [DecidableEq ι] in
theorem promised_of_mem {ev : Event} (hev : ev ∈ t.world.batch) (hfd : ev.fd = t.world.wakeupFds.1) :
    t.signal.promised = true :=
  List.any_eq_true.mpr ⟨ev, hev, decide_eq_true hfd⟩

theorem fd_of_route_wake {w : World} {ev : Event} (h : route w ev = .wake) : ev.fd = w.wakeupFds.1 := by
  unfold route at h
  split_ifs at h with hfd
  exact hfd

theorem fd_of_route_ne_wake {w : World} {ev : Event} (h : route w ev ≠ .wake) :
    ev.fd ≠ w.wakeupFds.1 := by
  intro hfd
  exact h (if_pos hfd)

/-- A party that owes no byte, before and after, is of no account. -/
theorem signal_moveTo {i : ι} {p : CallPoint} (hbefore : t.callers i ≠ .write true) (hafter : p ≠ .write true) :
    (t.moveTo i p).signal = t.signal := by
  have howing : {j | (t.moveTo i p).callers j = .write true} = {j | t.callers j = .write true} := by
    ext j
    show Function.update t.callers i p j = _ ↔ _
    by_cases heq : j = i
    · subst heq
      rw [Function.update_self]
      exact ⟨fun h => absurd h hafter, fun h => absurd h hbefore⟩
    · rw [Function.update_of_ne heq]
      rfl
  simp only [signal, howing]
  rfl

omit [DecidableEq ι] in
/-- A step of the sequential model that neither sets `stop` nor touches the batch. -/
theorem Follows.of_call (hK : K.Strict) (hreg : Registry t.world) {a : Action} {w : World}
    (hstep : Epoll.step K t.world a = some w) (hexit : w.exited = false)
    (hcall : a.isCall = true) : Follows t { t with world := w } := by
  have hout := (step_outcome hstep).2
  have hstop : ∀ ret, a ≠ .stop ret := by
    rintro ret rfl
    cases hcall
  refine ⟨step_registry hK (fun _ => hreg) hstep hexit, Or.inl ?_⟩
  simp only [signal, hout.stop_eq hexit hstop, hout.wakeupFds_eq hexit, hout.batch_of_call hexit hcall]

omit [DecidableEq ι] in
/-- The event loop reads a byte from the wake pipe. -/
theorem Follows.of_readsWake (hK : K.Strict) (hreg : Registry t.world) {ans : EventAnswers} {ev : Event}
    {rest : List Event} {b : Byte} {pipe : List Byte} {w : World} (hbatch : t.world.batch = ev :: rest)
    (hroute : route t.world ev = .wake) (hpipe : t.pipe = b :: pipe)
    (hstep : Epoll.step K t.world (.event ans) = some w) (hexit : w.exited = false) :
    Follows t { t with world := w, pipe := pipe } := by
  have hact : (Epoll.machine K).step t.world (.event ans) = some w := hstep
  have hout := (step_outcome hstep).2
  have hrest := hout.batch_of_event hexit hbatch
  have hfd := fd_of_route_wake hroute
  have hpromised : t.signal.promised = true := promised_of_mem (by rw [hbatch]; simp) hfd
  -- no other event of the batch is one of the wake pipe
  have hnodup := hreg.nodup
  rw [hbatch, List.map_cons, List.nodup_cons] at hnodup
  have hnone : (rest.any fun ev' => ev'.fd = t.world.wakeupFds.1) = false := by
    rw [List.any_eq_false]
    intro ev' hev' heq
    refine hnodup.1 ?_
    rw [hfd, ← of_decide_eq_true heq]
    exact List.mem_map_of_mem hev'
  have hsignal : ({ t with world := w, pipe := pipe } : Threads ι).signal =
      { t.signal with tokens := t.signal.tokens - 1, promised := false } := by
    simp only [signal, hout.stop_eq hexit nofun, hout.wakeupFds_eq hexit, hrest, hnone, hpipe,
      List.length_cons, Nat.add_sub_cancel]
  refine ⟨step_registry hK (fun _ => hreg) hact hexit, Or.inr ?_⟩
  rw [hsignal]
  exact .take t.signal hpromised (by simp [signal, hpipe])

omit [DecidableEq ι] in
/-- The event loop handles another event. -/
theorem Follows.of_event (hK : K.Strict) (hreg : Registry t.world) {ans : EventAnswers} {ev : Event}
    {rest : List Event} {w : World} (hbatch : t.world.batch = ev :: rest) (hroute : route t.world ev ≠ .wake)
    (hstep : Epoll.step K t.world (.event ans) = some w) (hexit : w.exited = false) :
    Follows t { t with world := w } := by
  have hact : (Epoll.machine K).step t.world (.event ans) = some w := hstep
  have hout := (step_outcome hstep).2
  have hrest := hout.batch_of_event hexit hbatch
  have hfd : decide (ev.fd = t.world.wakeupFds.1) = false := decide_eq_false (fd_of_route_ne_wake hroute)
  refine ⟨step_registry hK (fun _ => hreg) hact hexit, Or.inl ?_⟩
  simp only [signal, hout.stop_eq hexit nofun, hout.wakeupFds_eq hexit, hrest, hbatch, List.any_cons, hfd,
    Bool.false_or]

/-- A party writes its byte. -/
theorem Follows.of_write (hK : K.Strict) (hreg : Registry t.world) {i : ι} (halive : t.world.exited = false) :
    Follows t { t.moveTo i .idle with world := proactorTcpEpollWake 1 t.world, pipe := t.pipe ++ [1] } := by
  have hact : (Epoll.machine K).step t.world (.wake 1) = some (proactorTcpEpollWake 1 t.world) := by
    simp [Epoll.machine, Epoll.step, halive]
  have hlog : proactorTcpEpollWake 1 t.world = t.world.log (.wakeWrite t.world.wakeupFds.2 1) := rfl
  have howing : {j | Function.update t.callers i CallPoint.idle j = .write true} =
      {j | t.callers j = .write true} \ {i} := by
    ext j
    by_cases heq : j = i
    · subst heq
      simp
    · simp [heq]
  refine ⟨step_registry hK (fun _ => hreg) hact (by rw [hlog]; exact halive), Or.inr ?_⟩
  have hput := Signal.Step.put t.signal i
  simp only [signal, moveTo, hlog, howing, List.length_append, List.length_singleton]
  exact hput

/-- A variable of the event loop or of a party changes that the registry does not mention. -/
theorem registry_of_variables (hK : K.Strict) {w w' : World} (h : Registry w) (hkeeps : Keeps w w')
    (hserver : w'.serverSocket = w.serverSocket) (hkernel : w'.kernel = w.kernel)
    (hcb : w'.callback = w.callback) (hhist : w'.history = w.history) (hexit : w'.exited = false) :
    Registry w' := by
  have hcall : KernelOutcome K w .run w' :=
    .of_call hkeeps hserver hkernel hcb ⟨[], by simp, by rw [hhist, List.nil_append]⟩
  exact h.step hK hcall hexit

/-- A party sets `stop`. -/
theorem Follows.of_setStop (hK : K.Strict) (hreg : Registry t.world) {i : ι}
    (halive : t.world.exited = false) :
    Follows t { t.moveTo i (.write true) with world := { t.world with stop := true } } := by
  have howing : {j | Function.update t.callers i (CallPoint.write true) j = .write true} =
      insert i {j | t.callers j = .write true} := by
    ext j
    by_cases heq : j = i
    · subst heq
      simp
    · simp [heq]
  have hraise := Signal.Step.raise t.signal i
  refine ⟨registry_of_variables hK hreg (.refl_of_eq rfl rfl rfl) rfl rfl rfl rfl halive, Or.inr ?_⟩
  simp only [signal, moveTo, howing]
  exact hraise

omit [DecidableEq ι] in
/-- `epoll_wait` returns. -/
theorem Follows.of_wait (hK : K.Strict) (hreg : Registry t.world) {ans : WaitAnswer} {w : World}
    (hready : t.reportable ans = true) (hwait : epollWait K ans t.world = some w) (hexit : w.exited = false) :
    Follows t { t with world := w, waiting := false } := by
  cases epollWait_cases hwait with
  | events evs hlegal =>
    have hwaits : KernelOutcome K t.world .run { t.world with batch := evs } := .waits evs hlegal rfl
    refine ⟨hreg.step hK hwaits hexit, Or.inr ?_⟩
    refine .wake t.signal (evs.any fun ev => ev.fd = t.world.wakeupFds.1) fun htold => ?_
    -- the wake pipe is reported, so there is a byte in it
    obtain ⟨ev, hev, hfd⟩ := List.any_eq_true.mp htold
    have hreported := List.all_eq_true.mp hready ev hev
    have hbyte : t.pipe ≠ [] := by
      intro hnil
      rw [of_decide_eq_true hfd, hnil] at hreported
      simp at hreported
    exact List.length_pos_iff.mpr hbyte
  | interrupted => exact ⟨hreg, Or.inr (.interrupt t.signal)⟩
  | failed => cases hexit

/-- A step that does not end in `handle_error` is at most one step of the flag and the channel. -/
theorem step_follows (hK : K.Strict) (h : (machine K capacity).step t act = some t')
    (hreg : Registry t.world) (hexit : t'.world.exited = false) : Follows t t' := by
  have halive := step_alive h
  cases step_cases h with
  | callWake i hpoint | callStop i hpoint => exact ⟨hreg, Or.inl (signal_moveTo (by simp [hpoint]) nofun)⟩
  | setStop i hpoint => exact .of_setStop hK hreg halive
  | write i stops hpoint hroom => exact .of_write hK hreg halive
  | writeFails i stops hpoint => cases hexit
  | returns hhead hstop =>
    exact ⟨registry_of_variables hK hreg (.refl_of_eq rfl rfl rfl) rfl rfl rfl rfl halive, Or.inl rfl⟩
  | goesOn hhead hstop =>
    have hdone : t.signal.promised = false := by
      show t.world.batch.any _ = false
      rw [hhead.batch]
      rfl
    exact ⟨hreg, Or.inr (.wait t.signal hstop hdone)⟩
  | wait ans w hwaiting hready hwait => exact .of_wait hK hreg hready hwait hexit
  | readsWake ans ev rest b pipe w hnext hbatch hroute hpipe hstep =>
    exact .of_readsWake hK hreg hbatch hroute hpipe hstep hexit
  | event ans ev rest w hnext hbatch hroute hstep => exact .of_event hK hreg hbatch hroute hstep hexit
  | call a w hcall hstep => exact .of_call hK hreg hstep hexit hcall

section Run

variable {w₀ : World} {as : List (ThreadAction ι)}

/-- Until the process exits, the threads are where the flag and the channel are. -/
def Simulates (t : Threads ι) (s : Signal ι) : Prop :=
  t.world.exited = false → Registry t.world ∧ t.signal = s

theorem run_sound (hK : K.Strict) (hstart : Started K w₀)
    (hrun : (machine K capacity).run { world := w₀ } as = some t) (halive : t.world.exited = false) :
    t.signal.Sound := by
  have hstep : ∀ (t : Threads ι) act t' s, Simulates t s → (machine K capacity).step t act = some t' →
      ∃ s', Relation.ReflTransGen Signal.Step s s' ∧ Simulates t' s' := by
    intro t act t' s hsim hact
    cases hexit : t'.world.exited with
    | true =>
      refine ⟨s, .refl, fun hnot => ?_⟩
      rw [hexit] at hnot
      cases hnot
    | false =>
      have hrunning : t.world.exited = false := step_alive hact
      obtain ⟨hreg, rfl⟩ := hsim hrunning
      obtain ⟨hreg', hfollows⟩ := step_follows hK hact hreg hexit
      refine ⟨t'.signal, ?_, fun _ => ⟨hreg', rfl⟩⟩
      rcases hfollows with hsame | hmoves
      · rw [hsame]
      · exact .single hmoves
  have hfirst : Simulates ({ world := w₀ } : Threads ι) Signal.start := by
    obtain ⟨k, e, rd, wr, hk, rfl⟩ := hstart.eq_started
    have hnone : {i : ι | CallPoint.idle = .write true} = ∅ := by simp
    refine fun _ => ⟨hk.registry, ?_⟩
    simp only [signal, hnone]
    rfl
  obtain ⟨s, hsteps, hsim⟩ := Machine.run_simulates hstep hfirst hrun
  obtain ⟨-, rfl⟩ := hsim halive
  exact Signal.sound_start.steps hsteps

/-- In no state of a run is a stop lost, and a read from the wake pipe always finds a byte. -/
theorem no_lost_stop (hK : K.Strict) (hstart : Started K w₀)
    (hrun : (machine K capacity).run ({ world := w₀ } : Threads ι) as = some t) :
    ¬ t.LostStop ∧ (t.ReadsWake → t.pipe ≠ []) := by
  constructor
  · rintro ⟨halive, hwaiting, hstop, hcallers, hpipe⟩
    have howing : t.signal.owing = ∅ := by
      refine Set.eq_empty_iff_forall_notMem.mpr fun i hi => ?_
      have hnot := hcallers i
      rw [show t.callers i = .write true from hi] at hnot
      cases hnot
    have hpos := (run_sound hK hstart hrun halive).tokens_pos hwaiting hstop howing
    rw [signal, hpipe] at hpos
    exact absurd hpos (Nat.lt_irrefl 0)
  · rintro ⟨halive, ev, hnext, hroute⟩
    obtain ⟨-, rest, hbatch⟩ := next_eq_some hnext
    have hpromised : t.signal.promised = true :=
      promised_of_mem (by rw [hbatch]; simp) (fd_of_route_wake hroute)
    exact List.length_pos_iff.mp ((run_sound hK hstart hrun halive).kept hpromised)

/-- The loop waits when one party sets `stop`; the byte that wakes it is the one of another party. -/
def stopRace : List (ThreadAction Bool) :=
  [.call .run, .test, .callStop true, .setStop true, .callWake false, .write false,
    .wait (.events [⟨4, EPOLLIN⟩])]

theorem stopRace_wakes : ∃ t, (machine documented 65536).run { world := stdioStart } stopRace = some t ∧
    ¬ t.LostStop ∧ (t.ReadsWake → t.pipe ≠ []) := by
  have hsome : ((machine documented 65536).run { world := stdioStart } stopRace).isSome = true := rfl
  have hrun := (Option.some_get hsome).symm
  exact ⟨_, hrun, no_lost_stop documented_strict stdioStart_documented hrun⟩

end Run

end Threads

end TagSim.Epoll
