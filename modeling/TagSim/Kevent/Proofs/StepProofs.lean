import TagSim.Kevent.Proofs.PassProofs
import TagSim.Runs.Proofs.MachineProofs

/-!
# What one step of the kevent backend can do

`Outcome w a w'` lists the outcomes of a step: nothing of interest, an accepted connection, a message
received, the end of a stream, a tick.
-/

namespace TagSim.Kevent

/-- Observations that concern no socket. -/
def Obs.Neutral : Obs → Prop
  | .wakeRead _ | .wakeWrite .. | .recvfromFailed _ | .eventCb .. => True
  | _ => False

/-- Observations of the tick stage. -/
def Obs.OfTick : Obs → Prop
  | .tickCb .. | .eventCb .. => True
  | _ => False

/-- What is never changed in a socket that stays allocated. -/
def ProactorSocket.shape (sock : ProactorSocket) : ProactorSocket :=
  { sock with remoteAddr := [], buffer := none }

/-- What `proactor_net_run` does not change in the proactor and in the kernel queue. -/
structure SameProactor (w w' : World) : Prop where
  kq : w'.kq = w.kq
  wakeupFds : w'.wakeupFds = w.wakeupFds
  tickTimeSpec : w'.tickTimeSpec = w.tickTimeSpec
  status : w'.status = w.status
  eventCb : w'.eventCb = w.eventCb
  appData : w'.appData = w.appData
  sockets : w'.sockets = w.sockets
  registered : w'.registered = w.registered

/-- The event loop is about to handle a read event of the socket at `a`. -/
structure ReadEvent (w : World) (accept : AcceptAnswers) (read : ReadAnswers) (act : Action) (a : Addr)
    (sock : ProactorSocket) : Prop where
  action : act = .event accept read
  batch : ∃ ev rest, w.batch = some (ev :: rest) ∧ ev.ident ≠ w.wakeupFds.1 ∧ ev.filter = .read ∧
    ev.udata = some a
  heap : w.heap a = some sock

/-- The event loop is about to call `process_accept_ready`, which calls `accept`. -/
structure Accepts (w : World) (act : Action) (a c : Addr) (server : ProactorSocket) (func : FuncPtr)
    (ans : AcceptAnswers) : Prop where
  event : ∃ read, ReadEvent w ans read act a server
  type : server.socketType = .tcpListener
  acceptCb : server.acceptCb = some func
  calloc : ans.calloc = some c

/-- The event loop is about to call `process_read_ready`, whose `recvfrom` takes a message off the socket. -/
structure Receives (w : World) (act : Action) (a : Addr) (sock : ProactorSocket) (func : FuncPtr)
    (buf : ProactorBuf) (message : List Byte) : Prop where
  event : ∃ accept read, ReadEvent w accept read act a sock ∧ read.message = some message
  type : sock.socketType = .tcpClient ∨ sock.socketType = .udp
  receiveCb : sock.receiveCb = some func
  buffer : sock.buffer = some buf

/-- What a step, and so a run, leaves as it is. Sockets stay allocated. -/
structure Keeps (w w' : World) : Prop where
  proactor : SameProactor w w'
  heap : ∀ a sock, w.heap a = some sock → ∃ sock', w'.heap a = some sock' ∧ sock'.shape = sock.shape

/-- The outcomes of a step. -/
inductive Outcome (w : World) (act : Action) (w' : World) : Prop
  | quiet (hsame : SameProactor w w') (hheap : w'.heap = w.heap)
      (hhist : ∃ pre, (∀ o ∈ pre, o.Neutral) ∧ w'.history = pre ++ w.history)
      (hacc : ∀ a c server func ans, ¬ Accepts w act a c server func ans)
      (hrec : ∀ a sock func buf message, ¬ Receives w act a sock func buf message)
  | accepted (a c server func ans) (h : Accepts w act a c server func ans) (hsame : SameProactor w w')
      (hfresh : w.heap c = none) (hheap : w'.heap = Function.update w.heap c (some (clientSocket ans)))
      (hhist : w'.history =
        .acceptCb func a c (if ans.accept > 0 then .ok else .internalFailure) server.sockData w.appData ::
          .accept a c ans.accept :: w.history)
  | received (a sock func buf message) (addr : SockAddr) (got) (h : Receives w act a sock func buf message)
      (hgot : message.take buf.dataLength ≠ []) (hholds : got.Holds (message.take buf.dataLength))
      (hsame : SameProactor w w')
      (hheap : w'.heap = Function.update w.heap a (some { sock with buffer := some got, remoteAddr := addr }))
      (hhist : w'.history = .receiveCb func a addr ⟨got, sock.acceptCb⟩ .ok sock.sockData w.appData ::
        .recvfrom a message :: w.history)
  | ended (a sock func buf message) (addr : SockAddr) (h : Receives w act a sock func buf message)
      (hgot : message.take buf.dataLength = []) (hsame : SameProactor w w')
      (hheap : w'.heap = Function.update w.heap a (some { sock with remoteAddr := addr }))
      (hhist : w'.history = closeObs sock a .ok ++ .recvfrom a message :: w.history)
  | ticked (start fuel) (hact : act = .tick start fuel) (hsame : SameProactor w w')
      (hheap : w'.heap = w.heap)
      (hhist : ∃ pre, (∀ o ∈ pre, o.OfTick) ∧ w'.history = pre ++ w.history)

variable {w w' : World} {act : Action}

theorem SameProactor.refl (w : World) : SameProactor w w := ⟨rfl, rfl, rfl, rfl, rfl, rfl, rfl, rfl⟩

theorem SameProactor.trans {w'' : World} (h : SameProactor w w') (h' : SameProactor w' w'') :
    SameProactor w w'' :=
  ⟨h'.kq.trans h.kq, h'.wakeupFds.trans h.wakeupFds, h'.tickTimeSpec.trans h.tickTimeSpec,
    h'.status.trans h.status, h'.eventCb.trans h.eventCb, h'.appData.trans h.appData,
    h'.sockets.trans h.sockets, h'.registered.trans h.registered⟩

/-- At most `stop` is changed in the proactor. -/
theorem SameProactor.of_eq (hproactor : w'.toProactorT = { w.toProactorT with stop := w'.stop })
    (hregistered : w'.registered = w.registered) : SameProactor w w' := by
  obtain ⟨hkq, hfds, htick, -, hstatus, hcb, happ, hsockets⟩ := ProactorT.mk.inj hproactor
  exact ⟨hkq, hfds, htick, hstatus, hcb, happ, hsockets, hregistered⟩

/-- Nothing is changed before. -/
theorem SameProactor.after {w₁ : World} (h : SameProactor w₁ w') (hproactor : w₁.toProactorT = w.toProactorT)
    (hregistered : w₁.registered = w.registered) : SameProactor w w' := by
  refine SameProactor.trans (.of_eq ?_ hregistered) h
  rw [hproactor]

/-- There is one event to look at. -/
theorem ReadEvent.unique {accept accept' : AcceptAnswers} {read read' : ReadAnswers} {a a' : Addr}
    {sock sock' : ProactorSocket} (h : ReadEvent w accept read act a sock)
    (h' : ReadEvent w accept' read' act a' sock') :
    accept = accept' ∧ read = read' ∧ a = a' ∧ sock = sock' := by
  obtain ⟨hact, ⟨ev, rest, hbatch, -, -, hudata⟩, hheap⟩ := h
  obtain ⟨hact', ⟨ev', rest', hbatch', -, -, hudata'⟩, hheap'⟩ := h'
  obtain ⟨rfl, rfl⟩ := Action.event.inj (hact.symm.trans hact')
  obtain ⟨rfl, rfl⟩ := List.cons.inj (Option.some.inj (hbatch.symm.trans hbatch'))
  obtain rfl := Option.some.inj (hudata.symm.trans hudata')
  exact ⟨rfl, rfl, rfl, Option.some.inj (hheap.symm.trans hheap')⟩

/-- There is one read to look at. -/
theorem Receives.unique {a a' : Addr} {sock sock' : ProactorSocket} {func func' : FuncPtr}
    {buf buf' : ProactorBuf} {message message' : List Byte} (h : Receives w act a sock func buf message)
    (h' : Receives w act a' sock' func' buf' message') :
    a = a' ∧ sock = sock' ∧ func = func' ∧ buf = buf' ∧ message = message' := by
  obtain ⟨⟨accept, read, hev, hmsg⟩, -, hfunc, hbuf⟩ := h
  obtain ⟨⟨accept', read', hev', hmsg'⟩, -, hfunc', hbuf'⟩ := h'
  obtain ⟨rfl, rfl, rfl, rfl⟩ := hev.unique hev'
  exact ⟨rfl, rfl, Option.some.inj (hfunc.symm.trans hfunc'), Option.some.inj (hbuf.symm.trans hbuf'),
    Option.some.inj (hmsg.symm.trans hmsg')⟩

/-- A step that handles no event. -/
theorem Outcome.of_call (hsame : SameProactor w w') (hheap : w'.heap = w.heap) (pre : List Obs)
    (hpre : ∀ o ∈ pre, o.Neutral) (hhist : w'.history = pre ++ w.history)
    (hact : ∀ accept read, act ≠ .event accept read) : Outcome w act w' := by
  refine .quiet hsame hheap ⟨pre, hpre, hhist⟩ ?_ ?_
  · rintro a c server func ans ⟨⟨read, hev⟩, -⟩
    exact hact _ _ hev.action
  · rintro a sock func buf message ⟨⟨accept, read, hev, -⟩, -⟩
    exact hact _ _ hev.action

theorem ticked_outcome (start : Option Addr) (fuel : Nat) (l : List Addr) :
    Outcome w (.tick start fuel) (ticked { w with batch := none } l) := by
  refine .ticked start fuel rfl (.of_eq rfl rfl) rfl
    ⟨l.reverse.flatMap (tickObs w) ++ eventTickObs w, fun o ho => ?_, (List.append_assoc ..).symm⟩
  rcases List.mem_append.mp ho with ho | ho
  · obtain ⟨func, a, sock, rfl⟩ := eq_of_mem_tickObs ho
    trivial
  · obtain ⟨func, -, rfl⟩ := Option.map_eq_some_iff.mp (Option.mem_toList.mp ho)
    trivial

section Event

variable {accept : AcceptAnswers} {read : ReadAnswers} {a : Addr} {sock : ProactorSocket}
  {rest : List Event}

/-- An event of a socket that calls neither `accept` nor, with success, `recvfrom`. -/
theorem Outcome.of_event (hev : ReadEvent w accept read act a sock)
    (hacc : sock.socketType = .tcpListener → sock.acceptCb = none ∨ accept.calloc = none)
    (hrec : sock.socketType = .tcpClient ∨ sock.socketType = .udp →
      sock.receiveCb = none ∨ read.message = none)
    (hsame : SameProactor w w') (hheap : w'.heap = w.heap) (pre : List Obs) (hpre : ∀ o ∈ pre, o.Neutral)
    (hhist : w'.history = pre ++ w.history) : Outcome w act w' := by
  refine .quiet hsame hheap ⟨pre, hpre, hhist⟩ ?_ ?_
  · rintro a' c server func ans ⟨⟨read', hev'⟩, htype, hfunc, hcalloc⟩
    obtain ⟨rfl, rfl, rfl, rfl⟩ := hev.unique hev'
    rcases hacc htype with hno | hno
    · rw [hno] at hfunc
      cases hfunc
    · rw [hno] at hcalloc
      cases hcalloc
  · rintro a' sock' func buf message ⟨⟨accept', read', hev', hmsg⟩, htype, hfunc, -⟩
    obtain ⟨rfl, rfl, rfl, rfl⟩ := hev.unique hev'
    rcases hrec htype with hno | hno
    · rw [hno] at hfunc
      cases hfunc
    · rw [hno] at hmsg
      cases hmsg

theorem AcceptWay.outcome {rc : Status} (hev : ReadEvent w accept read act a sock)
    (htype : sock.socketType = .tcpListener)
    (hway : AcceptWay { w with batch := some rest } a sock accept rc w') : Outcome w act w' := by
  have hnot : ¬ (sock.socketType = .tcpClient ∨ sock.socketType = .udp) := by simp [htype]
  cases hway with
  | noCallback hfunc hrc hw =>
    subst hw
    exact .of_event hev (fun _ => Or.inl hfunc) (fun ht => absurd ht hnot) (.of_eq rfl rfl) rfl [] (by simp)
      rfl
  | noMemory func hfunc hcalloc hrc hw =>
    subst hw
    exact .of_event hev (fun _ => Or.inr hcalloc) (fun ht => absurd ht hnot) (.of_eq rfl rfl) rfl [] (by simp)
      rfl
  | accepted func c hfunc hcalloc hfresh hrc hw =>
    subst hw
    subst hrc
    exact .accepted a c sock func accept ⟨⟨read, hev⟩, htype, hfunc, hcalloc⟩ (.of_eq rfl rfl) hfresh rfl rfl

theorem ReadWay.outcome {rc : Status} (hev : ReadEvent w accept read act a sock)
    (htype : sock.socketType = .tcpClient ∨ sock.socketType = .udp)
    (hway : ReadWay { w with batch := some rest } a sock read rc w') : Outcome w act w' := by
  have hnot : sock.socketType ≠ .tcpListener := by
    rcases htype with ht | ht <;> simp [ht]
  cases hway with
  | noCallback hfunc hrc hw =>
    subst hw
    exact .of_event hev (fun ht => absurd ht hnot) (fun _ => Or.inl hfunc) (.of_eq rfl rfl) rfl [] (by simp)
      rfl
  | failed func buf hfunc hbuf hmessage hrc hw =>
    subst hw
    exact .of_event hev (fun ht => absurd ht hnot) (fun _ => Or.inr hmessage) (.of_eq rfl rfl) rfl
      [.recvfromFailed a] (by simp [Obs.Neutral]) rfl
  | received func buf message got hfunc hbuf hmessage hgot hholds hrc hw =>
    subst hw
    exact .received a sock func buf message read.addr got
      ⟨⟨accept, read, hev, hmessage⟩, htype, hfunc, hbuf⟩ hgot hholds (.of_eq rfl rfl) rfl rfl
  | ended func buf message hfunc hbuf hmessage hgot hrc hw =>
    subst hw
    exact .ended a sock func buf message read.addr ⟨⟨accept, read, hev, hmessage⟩, htype, hfunc, hbuf⟩ hgot
      (.of_eq rfl rfl) rfl rfl

/-- An event that is not handled as a read event of a socket. -/
theorem Outcome.of_other {ev : Event} (hbatch : w.batch = some (ev :: rest))
    (hother : ev.ident = w.wakeupFds.1 ∨ ev.filter ≠ .read ∨ ev.udata = none)
    (hsame : SameProactor w w') (hheap : w'.heap = w.heap) (pre : List Obs)
    (hpre : ∀ o ∈ pre, o.Neutral) (hhist : w'.history = pre ++ w.history) : Outcome w act w' := by
  have hno : ∀ accept' read' a sock, ¬ ReadEvent w accept' read' act a sock := by
    rintro accept' read' a sock ⟨-, ⟨ev', rest', hbatch', hne, hfilter, hudata⟩, -⟩
    obtain ⟨rfl, rfl⟩ := List.cons.inj (Option.some.inj (hbatch.symm.trans hbatch'))
    rcases hother with h | h | h
    · exact hne h
    · exact h hfilter
    · rw [h] at hudata
      cases hudata
  refine .quiet hsame hheap ⟨pre, hpre, hhist⟩ ?_ ?_
  · rintro a c server func ans ⟨⟨read, hev⟩, -⟩
    exact hno _ _ _ _ hev
  · rintro a sock func buf message ⟨⟨accept, read, hev, -⟩, -⟩
    exact hno _ _ _ _ hev

theorem EventWay.outcome {ev : Event} (hbatch : w.batch = some (ev :: rest))
    (hway : EventWay { w with batch := some rest } ev accept read w') : Outcome w (.event accept read) w' := by
  cases hway with
  | wake hwake hw =>
    subst hw
    exact .of_other hbatch (Or.inl hwake) (.of_eq rfl rfl) rfl [.wakeRead w.wakeupFds.1]
      (by simp [Obs.Neutral]) rfl
  | other hother hnot hw =>
    subst hw
    exact .of_other hbatch (Or.inr hnot) (.of_eq rfl rfl) rfl [] (by simp) rfl
  | accepts a server rc hother hfilter hudata hheap htype hway =>
    exact hway.outcome ⟨rfl, ⟨ev, rest, hbatch, hother, hfilter, hudata⟩, hheap⟩ htype
  | reads a sock rc hother hfilter hudata hheap htype hway =>
    exact hway.outcome ⟨rfl, ⟨ev, rest, hbatch, hother, hfilter, hudata⟩, hheap⟩ htype
  | unknown a sock n hother hfilter hudata hheap htype hw =>
    subst hw
    have hev : ReadEvent w accept read (.event accept read) a sock :=
      ⟨rfl, ⟨ev, rest, hbatch, hother, hfilter, hudata⟩, hheap⟩
    exact .of_event hev (by simp [htype]) (by simp [htype]) (.of_eq rfl rfl) rfl [] (by simp) rfl

end Event

/-- Every step has one of the outcomes listed. -/
theorem step_outcome (h : machine.step w act = some w') : Outcome w act w' := by
  cases step_cases h with
  | call ret stop hact hw =>
    have hne : ∀ accept read, act ≠ .event accept read := by rcases hact with rfl | rfl <;> simp
    subst hw
    exact .of_call (.of_eq rfl rfl) rfl [.wakeWrite w.wakeupFds.2 ret] (by simp [Obs.Neutral]) rfl hne
  | loop running batch hact hw =>
    have hne : ∀ accept read, act ≠ .event accept read := by rcases hact with rfl | ⟨ans, rfl⟩ <;> simp
    subst hw
    exact .of_call (.of_eq rfl rfl) rfl [] (by simp) rfl hne
  | event accept read ev rest hact hbatch hway =>
    subst hact
    exact hway.outcome hbatch
  | tick start fuel l hact hbatch hl hw =>
    subst hact hw
    exact ticked_outcome start fuel l

theorem Keeps.refl (w : World) : Keeps w w := ⟨.refl w, fun _ sock h => ⟨sock, h, rfl⟩⟩

theorem Keeps.trans {w'' : World} (h : Keeps w w') (h' : Keeps w' w'') : Keeps w w'' := by
  refine ⟨h.proactor.trans h'.proactor, fun a sock ha => ?_⟩
  obtain ⟨sock', ha', hshape⟩ := h.heap a sock ha
  obtain ⟨sock'', ha'', hshape'⟩ := h'.heap a sock' ha'
  exact ⟨sock'', ha'', hshape'.trans hshape⟩

/-- The list of sockets is kept. -/
theorem Keeps.linked (h : Keeps w w') {p : Option Addr} {l : List Addr} (hl : Memory.Linked w.next p l) :
    Memory.Linked w'.next p l := by
  refine hl.congr fun a ha => ?_
  have hsome := hl.allocated ha
  unfold World.next at hsome ⊢
  cases hheap : w.heap a with
  | none => simp [hheap] at hsome
  | some sock =>
    obtain ⟨sock', hheap', hshape⟩ := h.heap a sock hheap
    have hnext : sock'.next = sock.next := by
      show sock'.shape.next = sock.shape.next
      rw [hshape]
    simp [hheap', hnext]

/-- A socket is changed outside of its shape. -/
theorem Keeps.of_update {a : Addr} {sock sock' : ProactorSocket} (hsame : SameProactor w w')
    (ha : w.heap a = some sock) (hheap : w'.heap = Function.update w.heap a (some sock'))
    (hshape : sock'.shape = sock.shape) : Keeps w w' := by
  refine ⟨hsame, fun b sockb hb => ?_⟩
  rw [hheap]
  by_cases heq : b = a
  · subst heq
    obtain rfl := Option.some.inj (ha.symm.trans hb)
    exact ⟨sock', Function.update_self .., hshape⟩
  · exact ⟨sockb, (Function.update_of_ne heq ..).trans hb, rfl⟩

theorem Outcome.keeps (h : Outcome w act w') : Keeps w w' := by
  cases h with
  | quiet hsame hheap | ticked _ _ _ hsame hheap =>
    refine ⟨hsame, fun a sock ha => ⟨sock, ?_, rfl⟩⟩
    rw [hheap]
    exact ha
  | accepted a c server func ans h hsame hfresh hheap =>
    refine ⟨hsame, fun a' sock ha => ⟨sock, ?_, rfl⟩⟩
    have hne : a' ≠ c := by
      rintro rfl
      cases hfresh.symm.trans ha
    rw [hheap, Function.update_of_ne hne]
    exact ha
  | received a sock func buf message addr got h hgot hholds hsame hheap =>
    obtain ⟨⟨accept, read, hev, -⟩, -⟩ := h
    exact .of_update hsame hev.heap hheap rfl
  | ended a sock func buf message addr h hgot hsame hheap =>
    obtain ⟨⟨accept, read, hev, -⟩, -⟩ := h
    exact .of_update hsame hev.heap hheap rfl

theorem step_keeps (h : machine.step w act = some w') : Keeps w w' := (step_outcome h).keeps

end TagSim.Kevent
