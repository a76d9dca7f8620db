import TagSim.Epoll.Heap
import TagSim.Epoll.History
import TagSim.Epoll.Proofs.FrameProofs

/-!
# The heap of the epoll backend

`Whole` is the invariant of the heap: it holds the pending request and nothing else. A process that keeps it
never touches memory that is not allocated, and takes the steps of the process without a heap.
-/

namespace TagSim.Epoll

variable {K : KernelRules}

namespace Heap

variable (p : Ptr) (block : RequestBlock) (buf : List Byte)

/-- A heap that holds one request and its bytes. -/
def holding : Heap := (empty.setBuffer block.data (some buf)).setRequest p (some block)

@[simp] theorem load_empty : empty.load p = none := rfl

@[simp] theorem load_holding : (holding p block buf).load p = some (block, buf) := by
  simp [load, holding, setRequest, setBuffer]

theorem free_holding : ((holding p block buf).setBuffer block.data none).setRequest p none = empty := by
  simp [holding, setRequest, setBuffer, empty]

theorem setRequest_holding (offset : Nat) :
    (holding p block buf).setRequest p (some { block with offset := offset }) =
      holding p { block with offset := offset } buf := by
  simp [holding, setRequest, setBuffer]

end Heap

namespace Process

/-- The heap is empty, or holds the request that the pointer refers to and nothing else. It is not empty
    while the send-complete callback is being executed. -/
inductive Whole : Process → Prop
  | idle (w) (hcb : w.exited = false → ∀ fd, w.callback ≠ some (.sendComplete fd)) : Whole { world := w }
  | sending (w r block buf) (hr : r ≠ null) :
      Whole { world := w, currentSendRequest := r, heap := .holding r block buf }

variable {p p' : Process} {a : Action}

theorem Whole.with_world {w : World} (h : Whole p) (hexit : p.world.exited = false)
    (hends : EndsOnly p.world w) : Whole { p with world := w } := by
  cases h with
  | idle v hcb => exact .idle w fun hexit' fd hfd => hcb hexit fd (hends hexit' fd hfd)
  | sending _ r block buf hr => exact .sending w r block buf hr

theorem view_idle (w : World) : view { world := w } = w.withRequest none := rfl

theorem view_sending (w : World) (r : Ptr) (block : RequestBlock) (buf : List Byte) :
    view { world := w, currentSendRequest := r, heap := .holding r block buf } =
      w.withRequest (some { data := buf, length := block.length, offset := block.offset }) := by
  rw [view, request, Heap.load_holding]
  rfl

/-- A function that does not use the request does the same with and without a heap. -/
theorem Whole.of_framed {f : World → Option World} (hp : Whole p) (hf : Framed f)
    (hexit : p.world.exited = false) (hends : ∀ w, f p.world = some w → EndsOnly p.world w)
    (h : (f p.world).map (fun w => { p with world := w }) = some p') : Whole p' ∧ f p.view = some p'.view := by
  obtain ⟨w, hw, rfl⟩ := Option.map_eq_some_iff.mp h
  have hview := hf p.request p.world
  rw [hw] at hview
  exact ⟨hp.with_world hexit (hends w hw), hview⟩

theorem freeSendRequest_sending (w : World) (r : Ptr) (block : RequestBlock) (buf : List Byte) :
    freeSendRequest { world := w, currentSendRequest := r, heap := .holding r block buf } = { world := w } := by
  simp only [freeSendRequest, free, Heap.load_holding, Heap.free_holding]

theorem Whole.view_writeEvent (hp : Whole p) (fd : Fd) (bytesSent : Int) :
    Epoll.handleWriteEvent fd bytesSent p.view = (handleWriteEvent fd bytesSent p).map view := by
  cases hp with
  | idle w => rfl
  | sending w r block buf hr =>
    unfold handleWriteEvent
    rw [if_neg hr, view_sending]
    simp only [Heap.load_holding, Heap.setRequest_holding, freeSendRequest_sending]
    refine map_ite (map_ite ?_ (map_ite ?_ ?_)) rfl
    · rw [Option.map_some, view_sending]
      rfl
    · obtain ⟨⟨_, _, _, _, _, _, sendComplete, _, _, _, _, _⟩, _, _, _, _, _, _⟩ := w
      cases sendComplete with
      | none => rfl
      | some func =>
        simp only [World.log]
        rw [Option.map_some, view_sending]
        rfl
    · rw [Option.map_some, view_sending]
      rfl

theorem Whole.writeEvent {fd : Fd} {bytesSent : Int} (hp : Whole p) (hcb : p.world.callback = none)
    (h : handleWriteEvent fd bytesSent p = some p') : Whole p' := by
  have hnone : ∀ fd', p.world.callback ≠ some (.sendComplete fd') := by
    rw [hcb]
    nofun
  cases hp with
  | idle w hidle =>
    obtain rfl := Option.some.inj h
    exact .idle w hidle
  | sending w r block buf hr =>
    unfold handleWriteEvent at h
    rw [if_neg hr] at h
    simp only [Heap.load_holding, Heap.setRequest_holding, freeSendRequest_sending] at h
    split_ifs at h
    · obtain rfl := Option.some.inj h
      exact .sending _ r block buf hr
    · split at h
      · obtain rfl := Option.some.inj h
        exact .idle _ fun _ => hnone
      · obtain rfl := Option.some.inj h
        exact .sending _ r _ buf hr
    · obtain rfl := Option.some.inj h
      exact .sending _ r _ buf hr

theorem Whole.send {socket : Fd} {data : List Byte} {ans : SendAnswers} {mallocs : Ptr × Ptr} (hp : Whole p)
    (h : p.send K socket data ans mallocs = some p') :
    Whole p' ∧ proactorTcpEpollSend K socket data ans p.view = some p'.view := by
  cases hp with
  | sending w r block buf hr =>
    unfold Process.send at h
    rw [if_pos hr] at h
    obtain rfl := Option.some.inj h
    rw [view_sending, view_sending]
    exact ⟨.sending _ r block buf hr, rfl⟩
  | idle w hcb =>
    unfold Process.send at h
    rw [if_neg (fun hne => hne rfl)] at h
    have hidle : ¬ (w.withRequest none).currentSendRequest.isSome = true := nofun
    rw [view_idle, proactorTcpEpollSend, if_neg hidle]
    split_ifs at h with hrequest hfresh hdata hfresh'
    · rw [if_pos hrequest]
      obtain rfl := Option.some.inj h
      exact ⟨.idle _ nofun, rfl⟩
    · rw [if_neg hrequest, if_pos hdata]
      obtain rfl := Option.some.inj h
      exact ⟨.idle _ nofun, rfl⟩
    · rw [if_neg hrequest, if_neg hdata]
      obtain ⟨v, hv, rfl⟩ := Option.map_eq_some_iff.mp h
      have hne : mallocs.1 ≠ null := by
        simp only [Heap.fresh, Bool.and_eq_true, bne_iff_ne] at hfresh
        exact hfresh.1.1
      refine ⟨.sending v mallocs.1 ⟨mallocs.2, data.length, 0⟩ data hne, ?_⟩
      have hframed : epollCtl K .mod socket EPOLLOUT ans.ctl (fun w => w.log (.sendReturned socket data 0))
          (w.withRequest (some ⟨data, data.length, 0⟩)) = _ := epollCtl_framed (fun _ => rfl) rfl
      have hview := view_sending v mallocs.1 ⟨mallocs.2, data.length, 0⟩ data
      rw [hv] at hframed
      exact hframed.trans (congrArg some hview.symm)

theorem call_plain {a : Epoll.Action} (ha : a.Plain) (mallocs : Ptr × Ptr) :
    p.call K a mallocs = (Epoll.step K p.world a).map fun w => { p with world := w } := by
  cases a with
  | send | event | callbackReturn => exact ha.elim
  | _ => rfl

/-- How an event is handled with a heap. -/
theorem call_event {ans : EventAnswers} {ev : Event} {rest : List Event} {mallocs : Ptr × Ptr}
    (hcb : p.world.callback = none) (hbatch : p.world.batch = ev :: rest) :
    p.call K (.event ans) mallocs =
      if route p.world ev = .write then
        handleWriteEvent ev.fd ans.write { p with world := { p.world with batch := rest } }
      else (handleEvent K ev ans { p.world with batch := rest }).map fun w => { p with world := w } := by
  obtain ⟨⟨g, kernel, running, batch, callback, exited, history⟩, r, heap, faulted⟩ := p
  obtain rfl : callback = none := hcb
  obtain rfl : batch = ev :: rest := hbatch
  have hsame : route { (⟨g, kernel, running, ev :: rest, none, exited, history⟩ : World) with batch := rest } ev =
    route ⟨g, kernel, running, ev :: rest, none, exited, history⟩ ev := rfl
  simp only [Process.call]
  rw [hsame]
  cases route ⟨g, kernel, running, ev :: rest, none, exited, history⟩ ev with
  | write => rfl
  | _ => rfl

theorem call_ready {ans : EventAnswers} {mallocs : Ptr × Ptr} (h : p.call K (.event ans) mallocs = some p') :
    ∃ ev rest, p.world.callback = none ∧ p.world.batch = ev :: rest := by
  simp only [Process.call] at h
  split at h
  · next ev rest hcb hbatch => exact ⟨ev, rest, hcb, hbatch⟩
  · cases h

/-- An event is handled with a heap as it is without one. -/
theorem Whole.event {ans : EventAnswers} {ev : Event} {rest : List Event} {mallocs : Ptr × Ptr} (hp : Whole p)
    (hexit : p.world.exited = false) (hcb : p.world.callback = none) (hbatch : p.world.batch = ev :: rest)
    (h : p.call K (.event ans) mallocs = some p') :
    Whole p' ∧ handleEvent K ev ans { p.view with batch := rest } = some p'.view := by
  have hroute : route { p.view with batch := rest } ev = route p.world ev := rfl
  rw [call_event hcb hbatch] at h
  by_cases hwrite : route p.world ev = .write
  · rw [if_pos hwrite] at h
    have hp' : Whole { p with world := { p.world with batch := rest } } :=
      hp.with_world hexit fun _ _ hfd => hfd
    have hview := hp'.view_writeEvent ev.fd ans.write
    rw [h] at hview
    unfold handleEvent
    rw [hroute, hwrite]
    exact ⟨hp'.writeEvent hcb h, hview⟩
  · rw [if_neg hwrite] at h
    obtain ⟨w, hw, rfl⟩ := Option.map_eq_some_iff.mp h
    have hview : handleEvent K ev ans { p.view with batch := rest } = _ :=
      handleEvent_framed (r := p.request) (w := { p.world with batch := rest }) hwrite
    rw [hw] at hview
    refine ⟨hp.with_world hexit ((event_outcome hcb hbatch hw).endsOnly fun _ ev' rest' _ hev => ?_), hview⟩
    obtain ⟨rfl, -⟩ := List.cons.inj (hev.batch.symm.trans hbatch)
    exact hwrite hev.route

/-- The return of the send-complete callback frees the request. -/
theorem call_sendComplete {fd : Fd} {ctl : Bool} {mallocs : Ptr × Ptr}
    (hcb : p.world.callback = some (.sendComplete fd)) :
    p.call K (.callbackReturn ctl) mallocs =
      some (freeSendRequest { p with world := { p.world with callback := none } }) := by
  unfold Process.call
  simp only [hcb]

theorem call_return {ctl : Bool} {mallocs : Ptr × Ptr}
    (hother : ∀ fd, p.world.callback ≠ some (.sendComplete fd)) :
    p.call K (.callbackReturn ctl) mallocs =
      (Epoll.step K p.world (.callbackReturn ctl)).map fun w => { p with world := w } := by
  unfold Process.call
  cases hcb : p.world.callback with
  | none => rfl
  | some cb =>
    cases cb with
    | sendComplete fd => exact absurd hcb (hother fd)
    | _ => rfl

/-- A callback returns with a heap as it does without one. -/
theorem Whole.callbackReturn {ctl : Bool} {mallocs : Ptr × Ptr} (hp : Whole p)
    (hexit : p.world.exited = false) (h : p.call K (.callbackReturn ctl) mallocs = some p') :
    Whole p' ∧ Epoll.step K p.view (.callbackReturn ctl) = some p'.view := by
  by_cases hend : ∃ fd, p.world.callback = some (.sendComplete fd)
  · obtain ⟨fd, hcb⟩ := hend
    rw [call_sendComplete hcb] at h
    obtain rfl := Option.some.inj h
    have hstep : Epoll.step K p.view (.callbackReturn ctl) =
        some (Epoll.freeSendRequest { p.view with callback := none }) := by
      have hview : p.view.callback = some (.sendComplete fd) := hcb
      have halive : p.view.exited = false := hexit
      unfold Epoll.step
      rw [if_neg (by simp [halive])]
      simp only [hview]
      rfl
    rw [hstep]
    cases hp with
    | idle w hidle => exact absurd hcb (hidle hexit fd)
    | sending w r block buf hr =>
      rw [freeSendRequest_sending]
      exact ⟨.idle _ fun _ => nofun, rfl⟩
  · have hother : ∀ fd, p.world.callback ≠ some (.sendComplete fd) := fun fd hcb => hend ⟨fd, hcb⟩
    rw [call_return hother] at h
    obtain ⟨w, hw, rfl⟩ := Option.map_eq_some_iff.mp h
    have hview : Epoll.step K p.view (.callbackReturn ctl) = _ := return_framed (r := p.request) hother
    rw [hw] at hview
    exact ⟨hp.with_world hexit ((step_outcome hw).2.endsOnly nofun), hview⟩

/-- The calls of a process whose heap is whole are those of the process without a heap. -/
theorem Whole.call {a : Epoll.Action} {mallocs : Ptr × Ptr} (hp : Whole p) (hexit : p.world.exited = false)
    (h : p.call K a mallocs = some p') : Whole p' ∧ Epoll.step K p.view a = some p'.view := by
  by_cases hplain : a.Plain
  · rw [call_plain hplain] at h
    refine hp.of_framed (step_framed hplain) hexit (fun w hw => ?_) h
    refine (step_outcome hw).2.endsOnly ?_
    rintro ans ev rest rfl
    exact hplain.elim
  · have hview : p.view.exited = false := hexit
    cases a with
    | send socket data ans =>
      unfold Epoll.step
      rw [if_neg (by simp [hview])]
      simp only [Process.call] at h ⊢
      split_ifs at h with hlen
      rw [if_pos hlen]
      exact hp.send h
    | event ans =>
      obtain ⟨ev, rest, hcb, hbatch⟩ := call_ready h
      have hev : Dispatches p.view ev rest (route p.view ev) := ⟨hcb, hbatch, rfl⟩
      rw [step_event hview hev]
      exact hp.event hexit hcb hbatch h
    | callbackReturn ctl => exact hp.callbackReturn hexit h
    | _ => exact absurd trivial hplain

/-- `proactor_tcp_epoll_cleanup` is called only when nothing is being sent. -/
def CleansUpIdle (p : Process) (a : Action) : Prop := a = .cleanup → p.currentSendRequest = null

/-- A step of a process whose heap is whole is one of the process without a heap. -/
theorem Whole.step (hp : Whole p) (hidle : CleansUpIdle p a) (h : step K p a = some p') :
    Whole p' ∧ lifecycleStep K p.view a.view = some p'.view := by
  unfold Process.step at h
  split_ifs at h with hend
  simp only [Bool.or_eq_true, not_or, Bool.not_eq_true] at hend
  have hexit : ¬ p.view.exited = true := by
    have hworld : p.view.exited = p.world.exited := rfl
    simp [hworld, hend.1]
  unfold lifecycleStep
  rw [if_neg hexit]
  cases a with
  | init ans => exact hp.of_framed (init_framed ans) hend.1 (fun w hw => init_endsOnly hw) h
  | cleanup =>
    have hnull := hidle rfl
    cases hp with
    | idle w hcb =>
      obtain rfl := Option.some.inj h
      refine ⟨.idle _ ?_, ?_⟩
      · exact fun halive fd hfd => hcb hend.1 fd (cleanup_endsOnly w halive fd hfd)
      · exact congrArg some (cleanup_framed none w)
    | sending w r block buf hr => exact absurd hnull hr
  | call a mallocs => exact hp.call hend.1 h

/-- Every block that is allocated can be reached from the pointer. -/
structure NoLeak (p : Process) : Prop where
  requests : ∀ r, (p.heap.requests r).isSome → r = p.currentSendRequest ∧ r ≠ null
  buffers : ∀ d, (p.heap.buffers d).isSome →
    ∃ block, p.heap.requests p.currentSendRequest = some block ∧ block.data = d

theorem Whole.noLeak (hp : Whole p) : NoLeak p := by
  cases hp with
  | idle w => exact ⟨nofun, nofun⟩
  | sending w r block buf hr =>
    have hrequest : (Heap.holding r block buf).requests r = some block := by simp [Heap.holding, Heap.setRequest]
    refine ⟨fun r' hr' => ?_, fun d hd => ?_⟩
    · have heq : r' = r := by
        by_contra hne
        simp [Heap.holding, Heap.setRequest, Heap.setBuffer, Heap.empty, hne] at hr'
      exact ⟨heq, heq ▸ hr⟩
    · refine ⟨block, hrequest, ?_⟩
      by_contra hne
      simp [Heap.holding, Heap.setRequest, Heap.setBuffer, Heap.empty, Ne.symm hne] at hd

theorem Whole.not_faulted (hp : Whole p) : p.faulted = false := by
  cases hp with
  | idle | sending => rfl

theorem boot_whole (k : Kernel) : Whole (boot k) := .idle (Epoll.boot k) fun _ => nofun

/-- A run that cleans up only when nothing is being sent keeps the heap whole, and is one without a heap. -/
theorem run_whole {k : Kernel} {as : List Action} (hrun : (machine K).run (boot k) as = some p)
    (hidle : (machine K).AllSteps CleansUpIdle (boot k) as) :
    Whole p ∧ (lifecycle K).run (Epoll.boot k) (as.map Action.view) = some p.view := by
  have hstep : ∀ s a s', Whole s → CleansUpIdle s a → (machine K).step s a = some s' →
      Whole s' ∧ (lifecycle K).step s.view a.view = some s'.view :=
    fun _ _ _ hs hidle h => hs.step hidle h
  exact Machine.run_refines hstep (boot_whole k) hidle hrun

/-- A process that cleans up only when nothing is being sent never touches memory that is not allocated,
    reaches every block that it has allocated, and takes the steps of the process without a heap. -/
theorem heap_refines {k : Kernel} {as : List Action} (hrun : (machine K).run (boot k) as = some p)
    (hidle : (machine K).AllSteps CleansUpIdle (boot k) as) :
    p.faulted = false ∧ NoLeak p ∧
      (lifecycle K).run (Epoll.boot k) (as.map Action.view) = some p.view := by
  obtain ⟨hwhole, hview⟩ := run_whole hrun hidle
  exact ⟨hwhole.not_faulted, hwhole.noLeak, hview⟩

/-- A send is written in two parts. -/
def sendInParts : List Action :=
  [.init ⟨3, some (4, 5), true⟩, .call (.connect "127.0.0.1" 502 ⟨6, true, true⟩) (0, 0),
    .call (.send 6 [1, 2, 3] {}) (16, 32), .call .run (0, 0),
    .call (.wait (.events [⟨6, EPOLLOUT⟩])) (0, 0), .call (.event { write := 1 }) (0, 0),
    .call (.wait (.events [⟨6, EPOLLOUT⟩])) (0, 0), .call (.event { write := 2 }) (0, 0)]

/-- The proactor is cleaned up and initialised again. -/
def restart : List Action := [.cleanup, .init ⟨3, some (4, 5), true⟩]

theorem heap_refines_restart : ∃ p,
    (machine documented).run (boot stdioKernel) (sendInParts ++ restart) = some p ∧
    written p.world.history = [1, 2, 3] ∧
    (p.faulted = false ∧ NoLeak p ∧ (lifecycle documented).run (Epoll.boot stdioKernel)
      ((sendInParts ++ restart).map Action.view) = some p.view) := by
  have hsent : ((machine documented).run (boot stdioKernel) sendInParts).isSome = true := rfl
  have hsome : ((machine documented).run (boot stdioKernel) (sendInParts ++ restart)).isSome = true := rfl
  have hrun := (Option.some_get hsome).symm
  have hbefore : ∀ a ∈ sendInParts, ∀ p, CleansUpIdle p a := by
    rintro a ha p rfl
    simp [sendInParts] at ha
  refine ⟨_, hrun, rfl, heap_refines hrun ?_⟩
  refine (Machine.allSteps_append (Option.some_get hsent).symm).mpr
    ⟨Machine.allSteps_of_forall hbefore _, fun _ => rfl, fun p _ => ?_⟩
  exact ⟨nofun, fun _ _ => trivial⟩

end Process

end TagSim.Epoll
