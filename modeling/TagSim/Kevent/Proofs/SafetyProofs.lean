import TagSim.Kevent.Proofs.LoopProofs
import TagSim.Kevent.Proofs.StepProofs

/-!
# Which events can be handled

The event loop follows the `udata` of an event, and `process_read_ready` the buffer of the socket, without a
test. `Safe` is what makes this sound: it is kept by every step, and without it the kernel can report an event
that leads to memory that is not there.
-/

namespace TagSim.Kevent

variable {w₀ w w' : World} {act : Action} {as : List Action} {ev : Event}

/-- A socket that is received on has a buffer. -/
def ProactorSocket.Usable (sock : ProactorSocket) : Prop :=
  sock.socketType = .tcpClient ∨ sock.socketType = .udp → sock.receiveCb ≠ none → sock.buffer ≠ none

/-- What an event leads to is there. -/
def Event.Leads (w : World) (ev : Event) : Prop :=
  ev.ident ≠ w.wakeupFds.1 → ev.filter = .read →
    ∀ a, ev.udata = some a → ∃ sock, w.heap a = some sock ∧ sock.Usable

/-- Whatever is registered for reading leads to a socket that can be used. -/
def Safe (w : World) : Prop := ∀ ev, reports w ev = true → ev.Leads w

/-- The event is handled, whatever the calls made for it answer, if only `calloc` returns memory that is not
    in use. -/
def Handled (w : World) (ev : Event) : Prop :=
  ∀ accept read, (∀ c ∈ accept.calloc, w.heap c = none) → handleEvent ev accept read w ≠ none

section Handlers

variable {a : Addr} {sock : ProactorSocket}

theorem acceptReady_ne_none (hheap : w.heap a = some sock) {ans : AcceptAnswers}
    (hcalloc : ∀ c ∈ ans.calloc, w.heap c = none) : processAcceptReady a ans w ≠ none := by
  unfold processAcceptReady
  rw [hheap]
  cases hfunc : sock.acceptCb with
  | none => simp [hfunc]
  | some func =>
    cases hc : ans.calloc with
    | none => simp [hfunc]
    | some c => simp [hfunc, hcalloc c (by rw [hc]; rfl)]

/-- `process_read_ready` is defined exactly when there is no receive callback or there is a buffer. -/
theorem readReady_ne_none_iff (hheap : w.heap a = some sock) (ans : ReadAnswers) :
    processReadReady a ans w ≠ none ↔ (sock.receiveCb ≠ none → sock.buffer ≠ none) := by
  unfold processReadReady
  rw [hheap]
  cases hfunc : sock.receiveCb with
  | none => simp [hfunc]
  | some func =>
    cases hbuf : sock.buffer with
    | none => simp [hfunc, hbuf]
    | some buf =>
      refine iff_of_true ?_ (by simp)
      cases hmessage : ans.message with
      | none => simp [hfunc, hbuf]
      | some message =>
        simp only [hfunc, hbuf]
        split_ifs
        · simp
        · cases sock.closeCb <;> simp

/-- A read event of a socket can be handled exactly when the socket can be used. -/
theorem readEvent_handled_iff (hwake : ev.ident ≠ w.wakeupFds.1) (hfilter : ev.filter = .read)
    (hudata : ev.udata = some a) (hheap : w.heap a = some sock) : Handled w ev ↔ sock.Usable := by
  have hreads : sock.socketType = .tcpClient ∨ sock.socketType = .udp →
      ∀ accept read, handleEvent ev accept read w = (processReadReady a read w).map Prod.snd := by
    intro htype accept read
    unfold handleEvent
    rw [if_neg hwake]
    rcases htype with htype | htype <;> simp only [hfilter, hudata, hheap, htype]
  have hothers : ¬ (sock.socketType = .tcpClient ∨ sock.socketType = .udp) → Handled w ev := by
    intro htype accept read hcalloc
    unfold handleEvent
    rw [if_neg hwake]
    cases hkind : sock.socketType with
    | tcpListener =>
      simp only [hfilter, hudata, hheap, hkind]
      rw [Ne, Option.map_eq_none_iff]
      exact acceptReady_ne_none hheap hcalloc
    | tcpClient | udp => simp [hkind] at htype
    | unknown n => simp [hfilter, hudata, hheap, hkind]
  by_cases htype : sock.socketType = .tcpClient ∨ sock.socketType = .udp
  · rw [ProactorSocket.Usable, forall_prop_of_true htype, ← readReady_ne_none_iff hheap {}]
    constructor
    · intro hhandled
      have hdefined := hhandled {} {} nofun
      rw [hreads htype, Ne, Option.map_eq_none_iff] at hdefined
      exact hdefined
    · intro hdefined accept read _
      rw [hreads htype, Ne, Option.map_eq_none_iff, ← Ne, readReady_ne_none_iff hheap,
        ← readReady_ne_none_iff hheap {}]
      exact hdefined
  · exact iff_of_true (hothers htype) fun hreceives => absurd hreceives htype

/-- An event can be handled exactly when what it leads to is there. -/
theorem handled_iff : Handled w ev ↔ ev.Leads w := by
  by_cases hwake : ev.ident = w.wakeupFds.1
  · refine iff_of_true (fun accept read _ => ?_) fun hne => absurd hwake hne
    unfold handleEvent
    rw [if_pos hwake]
    exact Option.some_ne_none _
  by_cases hread : ev.filter = .read ∧ ∃ a, ev.udata = some a
  · obtain ⟨hfilter, a, hudata⟩ := hread
    have hleads : ev.Leads w ↔ ∃ sock, w.heap a = some sock ∧ sock.Usable := by
      refine ⟨fun h => h hwake hfilter a hudata, fun h _ _ a' hudata' => ?_⟩
      obtain rfl := Option.some.inj (hudata.symm.trans hudata')
      exact h
    rw [hleads]
    cases hheap : w.heap a with
    | none =>
      refine iff_of_false (fun hhandled => hhandled {} {} nofun ?_) (by simp)
      unfold handleEvent
      rw [if_neg hwake]
      simp only [hfilter, hudata, hheap]
    | some sock => simpa using readEvent_handled_iff hwake hfilter hudata hheap
  · refine iff_of_true (fun accept read _ => ?_) fun _ hfilter a hudata => absurd ⟨hfilter, a, hudata⟩ hread
    unfold handleEvent
    rw [if_neg hwake]
    split
    · next a hfilter hudata => exact absurd ⟨hfilter, a, hudata⟩ hread
    · exact Option.some_ne_none _

end Handlers

section Runs

/-- The events of the batch have been reported. -/
def BatchReported (w : World) : Prop := ∀ evs, w.batch = some evs → ∀ ev ∈ evs, reports w ev = true

/-- What `kevent` returns has been reported. -/
theorem reported_of_keventWait {ans : WaitAnswer} (hnone : w.batch = none) (h : keventWait ans w = some w')
    {evs : List Event} (hevs : w'.batch = some evs) (hev : ev ∈ evs) : reports w ev = true := by
  cases keventWait_cases h with
  | events evs' hreports hsize =>
    obtain rfl := Option.some.inj hevs
    exact hreports ev hev
  | interrupted => cases hnone.symm.trans hevs
  | failed =>
    obtain rfl := Option.some.inj hevs
    cases hev

theorem reported_of_waitEvents {ans : WaitAnswer} (hnone : w.batch = none) (h : waitEvents ans w = some w')
    {evs : List Event} (hevs : w'.batch = some evs) (hev : ev ∈ evs) : reports w ev = true := by
  unfold waitEvents at h
  split_ifs at h
  · obtain rfl := Option.some.inj h
    cases hnone.symm.trans hevs
  · exact reported_of_keventWait hnone h hevs hev

/-- What events lead to stays there: sockets keep their buffers, and stay allocated. -/
theorem usable_step (h : machine.step w act = some w') {a : Addr} {sock : ProactorSocket}
    (hheap : w.heap a = some sock) (husable : sock.Usable) : ∃ sock', w'.heap a = some sock' ∧ sock'.Usable := by
  cases step_outcome h with
  | quiet hsame hheap' => exact ⟨sock, hheap' ▸ hheap, husable⟩
  | accepted a' c server func ans haccepts hsame hfresh hheap' =>
    have hne : a ≠ c := by
      rintro rfl
      rw [hfresh] at hheap
      cases hheap
    exact ⟨sock, by rw [hheap', Function.update_of_ne hne, hheap], husable⟩
  | received a' sock' func buf message addr got hreceives hgot hholds hsame hheap' =>
    by_cases heq : a = a'
    · subst heq
      exact ⟨_, by rw [hheap', Function.update_self], fun _ _ => by simp⟩
    · exact ⟨sock, by rw [hheap', Function.update_of_ne heq, hheap], husable⟩
  | ended a' sock' func buf message addr hreceives hgot hsame hheap' =>
    by_cases heq : a = a'
    · subst heq
      refine ⟨_, by rw [hheap', Function.update_self], fun _ _ => ?_⟩
      simp [hreceives.buffer]
    · exact ⟨sock, by rw [hheap', Function.update_of_ne heq, hheap], husable⟩
  | ticked start fuel hact hsame hheap' => exact ⟨sock, hheap' ▸ hheap, husable⟩

/-- No step changes what may be reported, or makes an event lead to what is not there. -/
theorem Event.Leads.step (hleads : ev.Leads w) (h : machine.step w act = some w') : ev.Leads w' := by
  intro hwake hfilter a hudata
  rw [(step_keeps h).proactor.wakeupFds] at hwake
  obtain ⟨sock, hheap, husable⟩ := hleads hwake hfilter a hudata
  exact usable_step h hheap husable

theorem reports_step (h : machine.step w act = some w') : reports w' ev = reports w ev := by
  rw [reports, reports, (step_keeps h).proactor.registered]

theorem Safe.step (hsafe : Safe w) (h : machine.step w act = some w') : Safe w' := by
  intro ev hev
  rw [reports_step h] at hev
  exact (hsafe ev hev).step h

theorem BatchReported.step (hbatch : BatchReported w) (h : machine.step w act = some w') : BatchReported w' := by
  intro evs hevs ev hev
  rw [reports_step h]
  cases step_cases h with
  | call ret stop hact hw =>
    subst hw
    exact hbatch evs hevs ev hev
  | loop running batch hact hw =>
    rcases hact with rfl | ⟨ans, rfl⟩
    · obtain ⟨-, rfl⟩ := run_ready h
      exact hbatch evs hevs ev hev
    · obtain ⟨-, hnone, hwait⟩ := wait_ready h
      exact reported_of_waitEvents hnone hwait hevs hev
  | event accept read ev' rest hact hbatch' hway =>
    have hrest : w'.batch = some rest := hway.sameLoop.batch
    obtain rfl := Option.some.inj (hrest.symm.trans hevs)
    exact hbatch _ hbatch' ev (List.mem_cons_of_mem _ hev)
  | tick start fuel l hact hbatch' hl hw =>
    subst hw
    cases hevs

/-- The event loop is about to call `kevent`. -/
structure AtHead (w : World) : Prop where
  running : w.running = true
  goesOn : w.stop = false
  batch : w.batch = none

/-- The event loop handles its next event, whatever the calls made for it answer, if only `calloc` returns
    memory that is not in use. -/
def NextEventDefined (w : World) : Prop :=
  ∀ accept read, (∀ c ∈ accept.calloc, w.heap c = none) → machine.step w (.event accept read) ≠ none

theorem nextEventDefined_iff {rest : List Event} (hbatch : w.batch = some (ev :: rest)) :
    NextEventDefined w ↔ ev.Leads w := by
  have hnext : ∀ accept read,
      machine.step w (.event accept read) = handleEvent ev accept read { w with batch := some rest } := by
    intro accept read
    show step w (.event accept read) = _
    unfold step
    simp only [hbatch]
  have hhandled : Handled { w with batch := some rest } ev ↔ ev.Leads w := handled_iff
  rw [← hhandled]
  unfold NextEventDefined Handled
  simp only [hnext]

/-- In no run does the event loop come to an event that it cannot handle, exactly when the proactor is safe at
    the start. -/
theorem events_defined_iff_safe (hhead : AtHead w₀) :
    (∀ as w ev rest, machine.run w₀ as = some w → w.batch = some (ev :: rest) → NextEventDefined w) ↔
      Safe w₀ := by
  constructor
  · intro hall ev hev
    let waited : World := { w₀ with batch := some [ev] }
    have hwait : machine.step w₀ (.wait (.events [ev])) = some waited := by
      show step w₀ (.wait (.events [ev])) = some waited
      unfold step waitEvents keventWait
      simp [hhead.running, hhead.goesOn, hhead.batch, hev, numEvents, waited]
    have hrun : machine.run w₀ [.wait (.events [ev])] = some waited := by
      rw [Machine.run, hwait, Option.bind_some, Machine.run]
    have hbatch : waited.batch = some [ev] := rfl
    have hleads : ev.Leads waited := (nextEventDefined_iff hbatch).mp (hall _ waited ev [] hrun hbatch)
    exact hleads
  · intro hsafe as w ev rest hrun hbatch
    have hinv : Safe w ∧ BatchReported w := by
      refine Machine.run_preserves (M := machine) (I := fun v => Safe v ∧ BatchReported v)
        (fun v act v' hv hact => ⟨hv.1.step hact, hv.2.step hact⟩) ⟨hsafe, fun evs hevs => ?_⟩ hrun
      rw [hhead.batch] at hevs
      cases hevs
    exact (nextEventDefined_iff hbatch).mpr (hinv.1 ev (hinv.2 _ hbatch ev (List.mem_cons_self ..)))

/-- A connection that was given a receive callback, but no buffer: the structure that `process_accept_ready`
    makes has none. -/
def bufferless : World :=
  { kq := 3
    wakeupFds := (4, 5)
    heap := Function.update (fun _ => none) 1
      (some { clientSocket { accept := 6 } with receiveCb := some 1 })
    registered := fun fd filter => if fd = 6 ∧ filter = .read then some (some 1) else none
    running := true }

theorem events_defined_iff_safe_bufferless : ¬ Safe bufferless ∧
    ((∀ as w ev rest, machine.run bufferless as = some w → w.batch = some (ev :: rest) → NextEventDefined w) ↔
      Safe bufferless) := by
  refine ⟨fun hsafe => ?_, events_defined_iff_safe ⟨rfl, rfl, rfl⟩⟩
  have hreports : reports bufferless ⟨6, .read, some 1⟩ = true := rfl
  obtain ⟨sock, hheap, husable⟩ := hsafe _ hreports (by decide) rfl 1 rfl
  obtain rfl := Option.some.inj hheap
  exact husable (Or.inl rfl) nofun rfl

end Runs

end TagSim.Kevent
