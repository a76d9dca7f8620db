import TagSim.Epoll.History
import TagSim.Epoll.Proofs.StepProofs
import TagSim.Runs.Proofs.SilentProofs

/-!
# The sending side of a step

Most steps have nothing to do with sending: they are `Quiet`. `SendOutcome` lists the others, and is what
the proofs about the order, the addressee and the acceptance of sends go by.
-/

namespace TagSim.Epoll

/-- Two histories that say the same about sends. -/
structure SameSends (h h' : List Obs) : Prop where
  written : written h' = written h
  accepted : accepted h' = accepted h
  attempted : attempted h' = attempted h
  callbackSet : callbackSet h' = callbackSet h
  endings : endings h' = endings h
  notified : notified h' = notified h

theorem SameSends.refl (h : List Obs) : SameSends h h := ⟨rfl, rfl, rfl, rfl, rfl, rfl⟩

theorem SameSends.trans {h₁ h₂ h₃ : List Obs} (h₁₂ : SameSends h₁ h₂) (h₂₃ : SameSends h₂ h₃) :
    SameSends h₁ h₃ :=
  ⟨h₂₃.written.trans h₁₂.written, h₂₃.accepted.trans h₁₂.accepted, h₂₃.attempted.trans h₁₂.attempted,
    h₂₃.callbackSet.trans h₁₂.callbackSet, h₂₃.endings.trans h₁₂.endings,
    h₂₃.notified.trans h₁₂.notified⟩

theorem sameSends_cons (o : Obs) (h : List Obs) (ho : o.Silent) : SameSends h (o :: h) := by
  cases o <;> first | exact ho.elim | exact ⟨rfl, rfl, rfl, rfl, rfl, rfl⟩

/-- Silent observations say nothing about sends. -/
theorem sameSends_append {pre : List Obs} (hpre : ∀ o ∈ pre, o.Silent) (h : List Obs) :
    SameSends h (pre ++ h) :=
  append_related .refl .trans sameSends_cons hpre h

/-- The event loop is about to hand a send that is pending to `write`. -/
def Writes (w : World) (a : Action) (ans : EventAnswers) (ev : Event) (rest : List Event)
    (req : SendRequest) : Prop :=
  a = .event ans ∧ Dispatches w ev rest .write ∧ w.currentSendRequest = some req

/-- A step that has nothing to do with sending. -/
structure Quiet (w : World) (a : Action) (w' : World) : Prop where
  silent : ∃ pre, (∀ o ∈ pre, o.Silent) ∧ w'.history = pre ++ w.history
  request : w'.currentSendRequest = w.currentSendRequest
  pending : pendingRequest w' = pendingRequest w
  sendCompleteCallback : w'.sendCompleteCallback = w.sendCompleteCallback
  completing : ∀ fd, w'.callback = some (.sendComplete fd) ↔ w.callback = some (.sendComplete fd)
  not_writes : ∀ ans ev rest req, ¬ Writes w a ans ev rest req
  not_send : ∀ socket data ans, a ≠ .send socket data ans

/-- The outcomes of a step on the sending side. -/
inductive SendOutcome (w : World) (a : Action) (w' : World) : Prop
  | quiet (h : Quiet w a w')
  | exit (hexit : w'.exited = true) (hno : ∀ ans ev rest req, ¬ Writes w a ans ev rest req)
      (hsilent : ∃ pre, (∀ o ∈ pre, o.Silent) ∧ w'.history = pre ++ w.history)
  | rejected (socket data) (ans : SendAnswers) (ha : a = .send socket data ans)
      (hbusy : w.currentSendRequest.isSome) (hw' : w' = w.log (.sendReturned socket data (-1)))
  | accepted (socket data) (ans : SendAnswers) (ha : a = .send socket data ans)
      (hidle : w.currentSendRequest = none) (hlen : data.length < sizeMax)
      (hreq : w'.currentSendRequest = some { data := data, length := data.length, offset := 0 })
      (hcb : w'.callback = w.callback) (hset : w'.sendCompleteCallback = w.sendCompleteCallback)
      (hhist : w'.history =
        .sendReturned socket data 0 :: .ctl .mod socket EPOLLOUT true :: w.history)
  | setCallback (func userData) (ha : a = .setSendCompleteCallback func userData)
      (hw' : w' = { w.log (.setSendComplete func) with
        sendCompleteCallback := func, sendCompleteCallbackUserData := userData })
  | writeFailed (ans ev rest req) (hwr : Writes w a ans ev rest req) (hret : ans.write = -1)
      (hw' : w' = { w with
        batch := rest
        history := .perror "write" :: .write ev.fd req.unsent (-1) :: w.history })
  | writePartial (ans ev rest req) (k : Nat) (hwr : Writes w a ans ev rest req) (hret : ans.write = k)
      (hk : k ≤ req.count) (hlt : (req.offset + k) % sizeMax < req.length)
      (hw' : w' = { w with
        batch := rest
        currentSendRequest := some { req with offset := (req.offset + k) % sizeMax }
        history := .write ev.fd req.unsent k :: w.history })
  | writeFinished (ans ev rest req) (k : Nat) (hwr : Writes w a ans ev rest req) (hret : ans.write = k)
      (hk : k ≤ req.count) (hge : req.length ≤ (req.offset + k) % sizeMax)
      (hfunc : w.sendCompleteCallback = none)
      (hw' : w' = { w with
        batch := rest
        currentSendRequest := none
        history := .write ev.fd req.unsent k :: w.history })
  | writeCallback (ans ev rest req) (k : Nat) (func) (hwr : Writes w a ans ev rest req)
      (hret : ans.write = k) (hk : k ≤ req.count) (hge : req.length ≤ (req.offset + k) % sizeMax)
      (hfunc : w.sendCompleteCallback = some func)
      (hw' : w' = { w with
        batch := rest
        callback := some (.sendComplete ev.fd)
        currentSendRequest := some { req with offset := (req.offset + k) % sizeMax }
        history := .sendCompleteCallback func ev.fd w.sendCompleteCallbackUserData ::
          .write ev.fd req.unsent k :: w.history })
  | returned (fd) (hcb : w.callback = some (.sendComplete fd))
      (hno : ∀ ans ev rest req, ¬ Writes w a ans ev rest req)
      (hw' : w' = { w with callback := none, currentSendRequest := none })

variable {K : KernelRules} {w w' : World} {a : Action}

/-- An event takes one branch of the loop only. -/
theorem Dispatches.unique {ev ev' : Event} {rest rest' : List Event} {r r' : Route}
    (h : Dispatches w ev rest r) (h' : Dispatches w ev' rest' r') : ev = ev' ∧ rest = rest' ∧ r = r' := by
  have hb := h.batch.symm.trans h'.batch
  obtain ⟨rfl, rfl⟩ := List.cons.inj hb
  exact ⟨rfl, rfl, h.route.symm.trans h'.route⟩

theorem Dispatches.not_writes {ans : EventAnswers} {ev : Event} {rest : List Event} {r : Route}
    (h : Dispatches w ev rest r) (hr : r ≠ .write) :
    ∀ ans' ev' rest' req, ¬ Writes w (.event ans) ans' ev' rest' req := by
  rintro ans' ev' rest' req ⟨-, h', -⟩
  exact hr (h.unique h').2.2

theorem not_writes_of_ne (ha : ∀ ans, a ≠ .event ans) : ∀ ans ev rest req, ¬ Writes w a ans ev rest req :=
  fun ans _ _ _ h => ha ans h.1

theorem not_writes_of_idle (hidle : w.currentSendRequest = none) :
    ∀ ans ev rest req, ¬ Writes w a ans ev rest req := by
  rintro ans ev rest req ⟨-, -, hreq⟩
  rw [hidle] at hreq
  cases hreq

/-- A step by the application that leaves the request, the send-complete callback and the callback being
    executed as they are. -/
theorem Quiet.of_call (pre : List Obs) (hpre : ∀ o ∈ pre, o.Silent) (hhist : w'.history = pre ++ w.history)
    (hreq : w'.currentSendRequest = w.currentSendRequest) (hcb : w'.callback = w.callback)
    (hset : w'.sendCompleteCallback = w.sendCompleteCallback) (hev : ∀ ans, a ≠ .event ans)
    (hsend : ∀ socket data ans, a ≠ .send socket data ans) : Quiet w a w' where
  silent := ⟨pre, hpre, hhist⟩
  request := hreq
  pending := by rw [pendingRequest, pendingRequest, hcb, hreq]
  sendCompleteCallback := hset
  completing fd := by rw [hcb]
  not_writes := not_writes_of_ne hev
  not_send := hsend

/-- An event that starts no send-complete callback and does not touch the request. -/
theorem Quiet.of_event {ans : EventAnswers} {ev : Event} {rest : List Event} {r : Route}
    (hev : Dispatches w ev rest r) (pre : List Obs) (hpre : ∀ o ∈ pre, o.Silent)
    (hhist : w'.history = pre ++ w.history) (hreq : w'.currentSendRequest = w.currentSendRequest)
    (hcb : ∀ fd, w'.callback ≠ some (.sendComplete fd))
    (hset : w'.sendCompleteCallback = w.sendCompleteCallback)
    (hno : ∀ ans' ev' rest' req, ¬ Writes w (.event ans) ans' ev' rest' req) :
    Quiet w (.event ans) w' where
  silent := ⟨pre, hpre, hhist⟩
  request := hreq
  pending := by
    rw [pendingRequest, pendingRequest, hev.callback, hreq]
    split
    · next fd h => exact absurd h (hcb fd)
    · rfl
  sendCompleteCallback := hset
  completing fd := ⟨fun h => absurd h (hcb fd), fun h => by rw [hev.callback] at h; cases h⟩
  not_writes := hno
  not_send _ _ _ := Action.noConfusion

/-- Every step has one of the outcomes listed on the sending side. -/
theorem Outcome.sendOutcome (h : Outcome K w a w') : SendOutcome w a w' := by
  cases h with
  | startServer port ans hfresh hctl =>
    exact .quiet (.of_call
      [.ctl .add ans.socket EPOLLIN true, .bind ans.socket port, .opened ans.socket .listener]
      (by simp [Obs.Silent]) rfl rfl rfl rfl (by simp) (by simp))
  | connect address port ans hfresh hctl =>
    exact .quiet (.of_call
      [.ctl .add ans.socket (EPOLLIN ||| EPOLLOUT) true, .connect ans.socket address port,
        .opened ans.socket .stream] (by simp [Obs.Silent]) rfl rfl rfl rfl (by simp) (by simp))
  | sendRejected socket data ans hbusy => exact .rejected socket data ans rfl hbusy rfl
  | sendAccepted socket data ans hidle hlen hmalloc hctl =>
    exact .accepted socket data ans rfl hidle hlen rfl rfl rfl rfl
  | setReceiveCallback => exact .quiet (.of_call [] (by simp) rfl rfl rfl rfl (by simp) (by simp))
  | setSendCompleteCallback func userData => exact .setCallback func userData rfl rfl
  | setAcceptCallback => exact .quiet (.of_call [] (by simp) rfl rfl rfl rfl (by simp) (by simp))
  | wake ret =>
    exact .quiet (.of_call [.wakeWrite w.wakeupFds.2 ret] (by simp [Obs.Silent]) rfl rfl rfl rfl
      (by simp) (by simp))
  | stop ret =>
    exact .quiet (.of_call [.wakeWrite w.wakeupFds.2 ret] (by simp [Obs.Silent]) rfl rfl rfl rfl
      (by simp) (by simp))
  | run | loopEnd | interrupted | events =>
    exact .quiet (.of_call [] (by simp) rfl rfl rfl rfl (by simp) (by simp))
  | eventWake ans ev rest hev =>
    exact .quiet (.of_event hev [.wakeRead ev.fd] (by simp [Obs.Silent]) rfl rfl
      (by simp [World.log, hev.callback]) rfl (hev.not_writes (by simp)))
  | acceptFailed ans ev rest hev =>
    exact .quiet (.of_event hev [.perror "accept"] (by simp [Obs.Silent]) rfl rfl
      (by simp [World.log, hev.callback]) rfl (hev.not_writes (by simp)))
  | acceptCallback ans ev rest func hev hfresh =>
    exact .quiet (.of_event hev
      [.acceptCallback func ev.fd ans.accept w.acceptCallbackUserData, .opened ans.accept .stream]
      (by simp [Obs.Silent]) rfl rfl (by simp) rfl (hev.not_writes (by simp)))
  | acceptRegistered ans ev rest hev hfresh hctl =>
    exact .quiet (.of_event hev
      [.ctl .add ans.accept (EPOLLIN ||| EPOLLOUT) true, .opened ans.accept .stream]
      (by simp [Obs.Silent]) rfl rfl (by simp [hev.callback]) rfl (hev.not_writes (by simp)))
  | dataEnd ans ev rest pre hev hread hpre hctl =>
    refine .quiet (.of_event hev
      (.ctl .del ev.fd (EPOLLIN ||| EPOLLOUT) true :: .closed ev.fd :: pre) ?_ rfl rfl
      (by simp [hev.callback]) rfl (hev.not_writes (by simp)))
    rcases hpre with rfl | rfl <;> simp [Obs.Silent]
  | dataUnread ans ev rest buf hev hread hbuf =>
    exact .quiet (.of_event hev [.read ev.fd buf.length] (by simp [Obs.Silent]) rfl rfl
      (by simp [World.log, hev.callback]) rfl (hev.not_writes (by simp)))
  | dataCallback ans ev rest buf func hev hread hbuf =>
    exact .quiet (.of_event hev
      [.receiveCallback func ev.fd buf w.receiveCallbackUserData, .read ev.fd buf.length]
      (by simp [Obs.Silent]) rfl rfl (by simp) rfl (hev.not_writes (by simp)))
  | writeIdle ans ev rest hev hidle =>
    exact .quiet (.of_event hev [] (by simp) rfl rfl (by simp [hev.callback]) rfl
      (not_writes_of_idle hidle))
  | writeFailed ans ev rest req hev hreq hret =>
    exact .writeFailed ans ev rest req ⟨rfl, hev, hreq⟩ hret rfl
  | writePartial ans ev rest req k hev hreq hret hk hlt =>
    exact .writePartial ans ev rest req k ⟨rfl, hev, hreq⟩ hret hk hlt rfl
  | writeFinished ans ev rest req k hev hreq hret hk hge hfunc =>
    exact .writeFinished ans ev rest req k ⟨rfl, hev, hreq⟩ hret hk hge hfunc rfl
  | writeCallback ans ev rest req k func hev hreq hret hk hge hfunc =>
    exact .writeCallback ans ev rest req k func ⟨rfl, hev, hreq⟩ hret hk hge hfunc rfl
  | ignored ans ev rest hev =>
    exact .quiet (.of_event hev [] (by simp) rfl rfl (by simp [hev.callback]) rfl
      (hev.not_writes (by simp)))
  | returnAccept ctl server client hcb hctl =>
    refine .quiet ⟨⟨[.ctl .add client (EPOLLIN ||| EPOLLOUT) true], by simp [Obs.Silent], rfl⟩, rfl, ?_,
      rfl, by simp [hcb], not_writes_of_ne (by simp), (by simp)⟩
    simp [pendingRequest, hcb]
  | returnReceive ctl fd hcb =>
    refine .quiet ⟨⟨[], by simp, rfl⟩, rfl, ?_, rfl, by simp [hcb], not_writes_of_ne (by simp), (by simp)⟩
    simp [pendingRequest, hcb]
  | returnSendComplete ctl fd hcb => exact .returned fd hcb (not_writes_of_ne (by simp)) rfl
  | exit a w' hcan hexit hsilent =>
    refine .exit hexit ?_ hsilent
    rintro ans ev rest req ⟨rfl, hev, -⟩
    rcases hcan with ⟨ev', rest', ⟨hev', -⟩ | ⟨hev', -⟩⟩
    · cases (hev.unique hev').2.2
    · cases (hev.unique hev').2.2

/-- What a step does on the sending side. -/
theorem step_sendOutcome (h : (machine K).step w a = some w') : SendOutcome w a w' :=
  (step_outcome h).2.sendOutcome

end TagSim.Epoll
