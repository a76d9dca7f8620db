import TagSim.Kevent.Proactor
import TagSim.Memory.Proofs.LinkedProofs

/-!
# The ways through a pass

The ways through `process_accept_ready`, `process_read_ready` and the body of the loop over the events,
each with its guards and the state it leads to, then the head of the loop, the tick stage and a step as a
whole. The functions are unfolded here and nowhere else.
-/

namespace TagSim.Kevent

open TagSim.Memory

/-- The observation of the close callback, if there is one. -/
def closeObs (sock : ProactorSocket) (a : Addr) (status : Status) : List Obs :=
  (sock.closeCb.map fun func => .closeCb func a status sock.sockData).toList

/-- The tick callback of a socket, if there is one. -/
def tickObs (w : World) (a : Addr) : List Obs :=
  match w.heap a with
  | none => []
  | some sock => (sock.tickCb.map fun func => .tickCb func a .ok sock.sockData w.appData).toList

/-- The tick callback of the proactor, if there is one. -/
def eventTickObs (w : World) : List Obs := (w.eventCb.map fun func => .eventCb func .tick .ok w.appData).toList

/-- The ways through `process_accept_ready` on the listener `server` at `a`. -/
inductive AcceptWay (w : World) (a : Addr) (server : ProactorSocket) (ans : AcceptAnswers) (rc : Status)
    (w' : World) : Prop
  | noCallback (hfunc : server.acceptCb = none) (hrc : rc = .nullPtr) (hw : w' = w)
  | noMemory (func) (hfunc : server.acceptCb = some func) (hcalloc : ans.calloc = none)
      (hrc : rc = .noResource) (hw : w' = w)
  | accepted (func c) (hfunc : server.acceptCb = some func) (hcalloc : ans.calloc = some c)
      (hfresh : w.heap c = none) (hrc : rc = if ans.accept > 0 then .ok else .internalFailure)
      (hw : w' = { w with
        heap := Function.update w.heap c (some (clientSocket ans))
        history := .acceptCb func a c rc server.sockData w.appData :: .accept a c ans.accept :: w.history })

/-- What `recvfrom` leaves in a buffer: the bytes that were received, and their number. -/
structure ProactorBuf.Holds (buf : ProactorBuf) (got : List Byte) : Prop where
  contents : buf.contents = got
  dataLength : buf.dataLength = got.length

/-- The ways through `process_read_ready` on the socket `sock` at `a`. -/
inductive ReadWay (w : World) (a : Addr) (sock : ProactorSocket) (ans : ReadAnswers) (rc : Status)
    (w' : World) : Prop
  | noCallback (hfunc : sock.receiveCb = none) (hrc : rc = .nullPtr) (hw : w' = w)
  | failed (func buf) (hfunc : sock.receiveCb = some func) (hbuf : sock.buffer = some buf)
      (hmessage : ans.message = none) (hrc : rc = .ok) (hw : w' = w.log (.recvfromFailed a))
  | received (func buf message got) (hfunc : sock.receiveCb = some func) (hbuf : sock.buffer = some buf)
      (hmessage : ans.message = some message) (hgot : message.take buf.dataLength ≠ [])
      (hholds : got.Holds (message.take buf.dataLength)) (hrc : rc = .ok)
      (hw : w' = { w with
        heap := Function.update w.heap a (some { sock with buffer := some got, remoteAddr := ans.addr })
        history := .receiveCb func a ans.addr ⟨got, sock.acceptCb⟩ .ok sock.sockData w.appData ::
          .recvfrom a message :: w.history })
  | ended (func buf message) (hfunc : sock.receiveCb = some func) (hbuf : sock.buffer = some buf)
      (hmessage : ans.message = some message) (hgot : message.take buf.dataLength = []) (hrc : rc = .ok)
      (hw : w' = { w with
        heap := Function.update w.heap a (some { sock with remoteAddr := ans.addr })
        history := closeObs sock a .ok ++ .recvfrom a message :: w.history })

/-- The ways through the body of the loop over the events. -/
inductive EventWay (w : World) (ev : Event) (accept : AcceptAnswers) (read : ReadAnswers) (w' : World) : Prop
  | wake (hwake : ev.ident = w.wakeupFds.1) (hw : w' = w.log (.wakeRead w.wakeupFds.1))
  | other (hother : ev.ident ≠ w.wakeupFds.1) (hnot : ev.filter ≠ .read ∨ ev.udata = none) (hw : w' = w)
  | accepts (a server rc) (hother : ev.ident ≠ w.wakeupFds.1) (hfilter : ev.filter = .read)
      (hudata : ev.udata = some a) (hheap : w.heap a = some server) (htype : server.socketType = .tcpListener)
      (hway : AcceptWay w a server accept rc w')
  | reads (a sock rc) (hother : ev.ident ≠ w.wakeupFds.1) (hfilter : ev.filter = .read)
      (hudata : ev.udata = some a) (hheap : w.heap a = some sock)
      (htype : sock.socketType = .tcpClient ∨ sock.socketType = .udp) (hway : ReadWay w a sock read rc w')
  | unknown (a sock n) (hother : ev.ident ≠ w.wakeupFds.1) (hfilter : ev.filter = .read)
      (hudata : ev.udata = some a) (hheap : w.heap a = some sock) (htype : sock.socketType = .unknown n)
      (hw : w' = w)

variable {w w' : World} {a : Addr} {sock : ProactorSocket} {rc : Status} {accept : AcceptAnswers}
  {read : ReadAnswers} {ev : Event}

theorem acceptReady_cases (h : processAcceptReady a accept w = some (rc, w')) :
    ∃ server, w.heap a = some server ∧ AcceptWay w a server accept rc w' := by
  unfold processAcceptReady at h
  cases hheap : w.heap a with
  | none => simp [hheap] at h
  | some server =>
  refine ⟨server, rfl, ?_⟩
  cases hfunc : server.acceptCb with
  | none =>
    simp only [hheap, hfunc] at h
    obtain ⟨rfl, rfl⟩ := Prod.mk.inj (Option.some.inj h)
    exact .noCallback hfunc rfl rfl
  | some func =>
    cases hcalloc : accept.calloc with
    | none =>
      simp only [hheap, hfunc, hcalloc] at h
      obtain ⟨rfl, rfl⟩ := Prod.mk.inj (Option.some.inj h)
      exact .noMemory func hfunc hcalloc rfl rfl
    | some c =>
      simp only [hheap, hfunc, hcalloc] at h
      split at h
      · cases h
      · next hfresh =>
        obtain ⟨rfl, rfl⟩ := Prod.mk.inj (Option.some.inj h)
        exact .accepted func c hfunc hcalloc (by simpa using hfresh) rfl rfl

theorem readReady_cases (h : processReadReady a read w = some (rc, w')) :
    ∃ sock, w.heap a = some sock ∧ ReadWay w a sock read rc w' := by
  unfold processReadReady at h
  cases hheap : w.heap a with
  | none => simp [hheap] at h
  | some sock =>
  refine ⟨sock, rfl, ?_⟩
  cases hfunc : sock.receiveCb with
  | none =>
    simp only [hheap, hfunc] at h
    obtain ⟨rfl, rfl⟩ := Prod.mk.inj (Option.some.inj h)
    exact .noCallback hfunc rfl rfl
  | some func =>
    cases hbuf : sock.buffer with
    | none => simp [hheap, hfunc, hbuf] at h
    | some buf =>
      cases hmessage : read.message with
      | none =>
        simp only [hheap, hfunc, hbuf, hmessage] at h
        obtain ⟨rfl, rfl⟩ := Prod.mk.inj (Option.some.inj h)
        exact .failed func buf hfunc hbuf hmessage rfl rfl
      | some message =>
        simp only [hheap, hfunc, hbuf, hmessage, recvfrom] at h
        by_cases hgot : message.take buf.dataLength = []
        · rw [if_neg (by simp [hgot])] at h
          cases hclose : sock.closeCb with
          | none =>
            simp only [hclose] at h
            obtain ⟨rfl, rfl⟩ := Prod.mk.inj (Option.some.inj h)
            refine .ended func buf message hfunc hbuf hmessage hgot rfl ?_
            simp [World.log, World.store, closeObs, hfunc, hbuf, hclose]
          | some func' =>
            simp only [hclose] at h
            obtain ⟨rfl, rfl⟩ := Prod.mk.inj (Option.some.inj h)
            refine .ended func buf message hfunc hbuf hmessage hgot rfl ?_
            simp [World.log, World.store, closeObs, hfunc, hbuf, hclose]
        · rw [if_pos hgot] at h
          obtain ⟨rfl, rfl⟩ := Prod.mk.inj (Option.some.inj h)
          refine .received func buf message
            { data := message.take buf.dataLength ++ buf.data.drop (message.take buf.dataLength).length
              dataLength := (message.take buf.dataLength).length }
            hfunc hbuf hmessage hgot ⟨?_, rfl⟩ rfl ?_
          · exact List.take_left
          · simp [World.log, World.store, hfunc]

theorem handleEvent_cases (h : handleEvent ev accept read w = some w') : EventWay w ev accept read w' := by
  unfold handleEvent at h
  by_cases hwake : ev.ident = w.wakeupFds.1
  · rw [if_pos hwake] at h
    obtain rfl := Option.some.inj h
    exact .wake hwake rfl
  · rw [if_neg hwake] at h
    cases hfilter : ev.filter with
    | write | other =>
      simp only [hfilter] at h
      obtain rfl := Option.some.inj h
      exact .other hwake (Or.inl (by simp [hfilter])) rfl
    | read =>
      cases hudata : ev.udata with
      | none =>
        simp only [hfilter, hudata] at h
        obtain rfl := Option.some.inj h
        exact .other hwake (Or.inr hudata) rfl
      | some a =>
        simp only [hfilter, hudata] at h
        cases hheap : w.heap a with
        | none => simp [hheap] at h
        | some sock =>
          -- what is called looks at the same socket
          have hsame : ∀ {sock'}, w.heap a = some sock' → sock' = sock :=
            fun hheap' => Option.some.inj (hheap'.symm.trans hheap)
          simp only [hheap] at h
          cases htype : sock.socketType with
          | tcpListener =>
            simp only [htype] at h
            obtain ⟨⟨rc, v⟩, hready, rfl⟩ := Option.map_eq_some_iff.mp h
            obtain ⟨server, hheap', hway⟩ := acceptReady_cases hready
            exact .accepts a sock rc hwake hfilter hudata hheap htype (hsame hheap' ▸ hway)
          | tcpClient =>
            simp only [htype] at h
            obtain ⟨⟨rc, v⟩, hready, rfl⟩ := Option.map_eq_some_iff.mp h
            obtain ⟨sock', hheap', hway⟩ := readReady_cases hready
            exact .reads a sock rc hwake hfilter hudata hheap (Or.inl htype) (hsame hheap' ▸ hway)
          | udp =>
            simp only [htype] at h
            obtain ⟨⟨rc, v⟩, hready, rfl⟩ := Option.map_eq_some_iff.mp h
            obtain ⟨sock', hheap', hway⟩ := readReady_cases hready
            exact .reads a sock rc hwake hfilter hudata hheap (Or.inr htype) (hsame hheap' ▸ hway)
          | unknown n =>
            simp only [htype] at h
            obtain rfl := Option.some.inj h
            exact .unknown a sock n hwake hfilter hudata hheap htype rfl

/-- The ways through the return of `kevent`. -/
inductive WaitWay (w : World) : WaitAnswer → World → Prop
  | events (evs) (hreports : ∀ ev ∈ evs, reports w ev = true) (hsize : evs.length ≤ numEvents) :
      WaitWay w (.events evs) { w with batch := some evs }
  | interrupted : WaitWay w .interrupted w
  | failed : WaitWay w .failed { w with batch := some [] }

theorem keventWait_cases {ans : WaitAnswer} (h : keventWait ans w = some w') : WaitWay w ans w' := by
  cases ans with
  | events evs =>
    simp only [keventWait] at h
    split_ifs at h with hlegal
    obtain rfl := Option.some.inj h
    rw [Bool.and_eq_true, List.all_eq_true, decide_eq_true_eq] at hlegal
    exact .events evs hlegal.1 hlegal.2
  | interrupted =>
    obtain rfl := Option.some.inj h
    exact .interrupted
  | failed =>
    obtain rfl := Option.some.inj h
    exact .failed

/-- The return of `kevent` changes what is left of the pass. -/
theorem keventWait_eq {ans : WaitAnswer} (h : keventWait ans w = some w') : w' = { w with batch := w'.batch } := by
  cases keventWait_cases h <;> rfl

/-- The head of the loop changes where the loop stands. -/
theorem waitEvents_eq {ans : WaitAnswer} (h : waitEvents ans w = some w') :
    w' = { w with running := w'.running, batch := w'.batch } := by
  unfold waitEvents at h
  split_ifs at h
  · obtain rfl := Option.some.inj h
    rfl
  · rw [keventWait_eq h]

section Tick

variable {p start : Option Addr} {l : List Addr} {fuel : Nat}

/-- The loop that ticks the sockets goes through a list to its end. -/
theorem tickSockets_of_linked (hl : Linked w.next p l) (hfuel : l.length ≤ fuel) :
    tickSockets fuel p w = some { w with history := l.reverse.flatMap (tickObs w) ++ w.history } := by
  induction l generalizing fuel p w with
  | nil =>
    obtain rfl : p = none := hl
    cases fuel <;> rfl
  | cons a l ih =>
    obtain ⟨rfl, n, hn, hl⟩ := hl
    obtain ⟨fuel, rfl⟩ : ∃ m, fuel = m + 1 := Nat.exists_eq_succ_of_ne_zero (by simp at hfuel; omega)
    have hle : l.length ≤ fuel := Nat.le_of_succ_le_succ hfuel
    have hrev : (a :: l).reverse.flatMap (tickObs w) = l.reverse.flatMap (tickObs w) ++ tickObs w a := by
      rw [List.reverse_cons, List.flatMap_append, List.flatMap_singleton]
    unfold tickSockets
    rw [hrev]
    cases hheap : w.heap a with
    | none => simp [World.next, hheap] at hn
    | some sock =>
      obtain rfl : sock.next = n := by simpa [World.next, hheap] using hn
      cases hfunc : sock.tickCb with
      | none =>
        have hobs : tickObs w a = [] := by simp [tickObs, hheap, hfunc]
        simp only [hfunc, hobs, List.append_nil]
        exact ih hl hle
      | some func =>
        have hobs : tickObs w a = [.tickCb func a .ok sock.sockData w.appData] := by
          simp [tickObs, hheap, hfunc]
        simp only [hfunc, hobs, List.append_assoc]
        exact ih (w := w.log (.tickCb func a .ok sock.sockData w.appData)) hl hle

/-- Where that loop ends it has gone through a list. -/
theorem linked_of_tickSockets (h : tickSockets fuel p w = some w') : ∃ l, Linked w.next p l ∧ l.length ≤ fuel := by
  induction fuel generalizing p w with
  | zero =>
    cases p with
    | none => exact ⟨[], rfl, Nat.le_refl 0⟩
    | some a => cases h
  | succ fuel ih =>
    cases p with
    | none => exact ⟨[], rfl, Nat.zero_le _⟩
    | some a =>
      unfold tickSockets at h
      cases hheap : w.heap a with
      | none => simp [hheap] at h
      | some sock =>
        have hnext : w.next a = some sock.next := by simp [World.next, hheap]
        obtain ⟨l, hl, hle⟩ : ∃ l, Linked w.next sock.next l ∧ l.length ≤ fuel := by
          cases hfunc : sock.tickCb with
          | none =>
            simp only [hheap, hfunc] at h
            exact ih h
          | some func =>
            simp only [hheap, hfunc] at h
            have hl := ih h
            exact hl
        exact ⟨a :: l, ⟨rfl, sock.next, hnext, hl⟩, Nat.succ_le_succ hle⟩

theorem eq_of_mem_tickObs {o : Obs} (ho : o ∈ l.flatMap (tickObs w)) :
    ∃ func a sock, o = .tickCb func a .ok (ProactorSocket.sockData sock) w.appData := by
  obtain ⟨a, -, ho⟩ := List.mem_flatMap.mp ho
  unfold tickObs at ho
  cases hheap : w.heap a with
  | none => simp [hheap] at ho
  | some sock =>
    simp only [hheap] at ho
    obtain ⟨func, -, rfl⟩ := Option.map_eq_some_iff.mp (Option.mem_toList.mp ho)
    exact ⟨func, a, sock, rfl⟩

/-- The state after a tick stage that goes through the list `l`. -/
def ticked (w : World) (l : List Addr) : World :=
  { w with history := l.reverse.flatMap (tickObs w) ++ (eventTickObs w ++ w.history) }

theorem tick_of_linked (hl : Linked w.next start l) (hfuel : l.length ≤ fuel) :
    tick start fuel w = some (ticked w l) := by
  unfold tick ticked eventTickObs
  cases hfunc : w.eventCb with
  | none => exact tickSockets_of_linked hl hfuel
  | some func => exact tickSockets_of_linked (w := w.log (.eventCb func .tick .ok w.appData)) hl hfuel

/-- The tick stage goes through the list that its pointer leads through. -/
theorem tick_cases (h : tick start fuel w = some w') :
    ∃ l, Linked w.next start l ∧ l.length ≤ fuel ∧ w' = ticked w l := by
  obtain ⟨l, hl, hle⟩ : ∃ l, Linked w.next start l ∧ l.length ≤ fuel := by
    unfold tick at h
    split at h
    · exact linked_of_tickSockets h
    · have hl := linked_of_tickSockets h
      exact hl
  exact ⟨l, hl, hle, Option.some.inj (h.symm.trans (tick_of_linked hl hle))⟩

end Tick

/-- The ways through a step: a call of the application, the entry of `proactor_net_run` or the head of its
    loop, an event, the tick stage. -/
inductive StepWay (w : World) (act : Action) (w' : World) : Prop
  | call (ret stop) (hact : act = .stop ret ∨ act = .wake ret)
      (hw : w' = { w with stop := stop, history := .wakeWrite w.wakeupFds.2 ret :: w.history })
  | loop (running batch) (hact : act = .run ∨ ∃ ans, act = .wait ans)
      (hw : w' = { w with running := running, batch := batch })
  | event (accept read ev rest) (hact : act = .event accept read) (hbatch : w.batch = some (ev :: rest))
      (hway : EventWay { w with batch := some rest } ev accept read w')
  | tick (start fuel l) (hact : act = .tick start fuel) (hbatch : w.batch = some [])
      (hl : Linked w.next start l) (hw : w' = ticked { w with batch := none } l)

theorem step_cases {act : Action} (h : machine.step w act = some w') : StepWay w act w' := by
  cases act with
  | stop ret =>
    obtain rfl := Option.some.inj h
    exact .call ret true (Or.inl rfl) rfl
  | wake ret =>
    obtain rfl := Option.some.inj h
    exact .call ret w.stop (Or.inr rfl) rfl
  | run =>
    have hrun : (if w.running then none else some { w with running := true }) = some w' := h
    split_ifs at hrun
    obtain rfl := Option.some.inj hrun
    exact .loop true w.batch (Or.inl rfl) rfl
  | wait ans =>
    have hwait : (if w.running && w.batch.isNone then waitEvents ans w else none) = some w' := h
    split_ifs at hwait
    exact .loop w'.running w'.batch (Or.inr ⟨ans, rfl⟩) (waitEvents_eq hwait)
  | event accept read =>
    have hevent : step w (.event accept read) = some w' := h
    rw [step] at hevent
    split at hevent
    · next ev rest hbatch => exact .event accept read ev rest rfl hbatch (handleEvent_cases hevent)
    · cases hevent
  | tick start fuel =>
    have htick : step w (.tick start fuel) = some w' := h
    rw [step] at htick
    split at htick
    · next hbatch =>
      obtain ⟨l, hl, -, hw⟩ := tick_cases htick
      exact .tick start fuel l rfl hbatch hl hw
    · cases htick

end TagSim.Kevent
