import TagSim.Epoll.Proactor
import TagSim.Runs.Proofs.MachineProofs

/-!
# What one step of the epoll backend can do

`Outcome K w a w'` lists the outcomes of a step, one constructor for each path through the source that
does not end in `handle_error`, and one for all that do. `step_outcome` is the only place where the step
function is unfolded; the invariants of the backend are proved by cases on `Outcome`.
-/

namespace TagSim.Epoll

/-- Observations that concern neither the sending of data nor its callback. -/
def Obs.Silent : Obs → Prop
  | .write .. | .sendCompleteCallback .. | .setSendComplete .. | .sendReturned .. => False
  | _ => True

/-- The event loop takes `ev` from its batch, and the tests of `proactor_tcp_epoll_run` send it to `r`. -/
structure Dispatches (w : World) (ev : Event) (rest : List Event) (r : Route) : Prop where
  callback : w.callback = none
  batch : w.batch = ev :: rest
  route : route w ev = r

/-- When an action can end in `handle_error`. -/
def CanExit (K : KernelRules) (w : World) : Action → Prop
  | .startServer .. | .connect .. | .wake .. | .stop .. => True
  | .send socket _ ans =>
    w.currentSendRequest = none ∧
      (ans.mallocRequest = false ∨ ans.mallocData = false ∨ K.ctl w.kernel .mod socket false)
  | .wait _ => K.waitFails
  | .event ans => ∃ ev rest,
      (Dispatches w ev rest .accept ∧ w.kernel.fresh ans.accept ∧
        K.ctl (w.kernel.openFile ans.accept .stream) .add ans.accept false) ∨
      (Dispatches w ev rest .data ∧ ans.read.getD [] = [] ∧
        K.ctl (w.kernel.closeFile ev.fd) .del ev.fd false)
  | .callbackReturn _ => ∃ server client, w.callback = some (.accept server client) ∧
      K.ctl w.kernel .add client false
  | _ => False

variable (K : KernelRules)

/-- The outcomes of a step. -/
inductive Outcome (w : World) : Action → World → Prop
  | startServer (port ans) (hfresh : w.kernel.fresh ans.socket)
      (hctl : K.ctl (w.kernel.openFile ans.socket .listener) .add ans.socket true) :
      Outcome w (.startServer port ans)
        { w with
          serverSocket := ans.socket
          kernel := (w.kernel.openFile ans.socket .listener).ctl .add ans.socket EPOLLIN
          history := .ctl .add ans.socket EPOLLIN true :: .bind ans.socket port ::
            .opened ans.socket .listener :: w.history }
  | connect (address port ans) (hfresh : w.kernel.fresh ans.socket)
      (hctl : K.ctl (w.kernel.openFile ans.socket .stream) .add ans.socket true) :
      Outcome w (.connect address port ans)
        { w with
          clientSocket := ans.socket
          kernel := (w.kernel.openFile ans.socket .stream).ctl .add ans.socket (EPOLLIN ||| EPOLLOUT)
          history := .ctl .add ans.socket (EPOLLIN ||| EPOLLOUT) true ::
            .connect ans.socket address port :: .opened ans.socket .stream :: w.history }
  | sendRejected (socket data ans) (hbusy : w.currentSendRequest.isSome) :
      Outcome w (.send socket data ans) (w.log (.sendReturned socket data (-1)))
  | sendAccepted (socket data ans) (hidle : w.currentSendRequest = none) (hlen : data.length < sizeMax)
      (hmalloc : ans.mallocRequest ∧ ans.mallocData) (hctl : K.ctl w.kernel .mod socket true) :
      Outcome w (.send socket data ans)
        { w with
          currentSendRequest := some { data := data, length := data.length, offset := 0 }
          kernel := w.kernel.ctl .mod socket EPOLLOUT
          history := .sendReturned socket data 0 :: .ctl .mod socket EPOLLOUT true :: w.history }
  | setReceiveCallback (func userData) :
      Outcome w (.setReceiveCallback func userData)
        { w with receiveCallback := func, receiveCallbackUserData := userData }
  | setSendCompleteCallback (func userData) :
      Outcome w (.setSendCompleteCallback func userData)
        { w.log (.setSendComplete func) with
          sendCompleteCallback := func, sendCompleteCallbackUserData := userData }
  | setAcceptCallback (func userData) :
      Outcome w (.setAcceptCallback func userData)
        { w with acceptCallback := func, acceptCallbackUserData := userData }
  | wake (ret) : Outcome w (.wake ret) (w.log (.wakeWrite w.wakeupFds.2 ret))
  | stop (ret) : Outcome w (.stop ret) { w.log (.wakeWrite w.wakeupFds.2 ret) with stop := true }
  | run (hrun : w.running = false) : Outcome w .run { w with running := true }
  | loopEnd (ans) (hstop : w.stop = true) : Outcome w (.wait ans) { w with running := false }
  | interrupted : Outcome w (.wait .interrupted) w
  | events (evs) (hcb : w.callback = none) (hbatch : w.batch = []) (hwait : K.wait w.kernel evs) :
      Outcome w (.wait (.events evs)) { w with batch := evs }
  | eventWake (ans ev rest) (hev : Dispatches w ev rest .wake) :
      Outcome w (.event ans) { w.log (.wakeRead ev.fd) with batch := rest }
  | acceptFailed (ans ev rest) (hev : Dispatches w ev rest .accept) :
      Outcome w (.event ans) { w.log (.perror "accept") with batch := rest }
  | acceptCallback (ans ev rest func) (hev : Dispatches w ev rest .accept)
      (hfresh : w.kernel.fresh ans.accept) :
      Outcome w (.event ans)
        { w with
          batch := rest
          callback := some (.accept ev.fd ans.accept)
          kernel := w.kernel.openFile ans.accept .stream
          history := .acceptCallback func ev.fd ans.accept w.acceptCallbackUserData ::
            .opened ans.accept .stream :: w.history }
  | acceptRegistered (ans ev rest) (hev : Dispatches w ev rest .accept)
      (hfresh : w.kernel.fresh ans.accept)
      (hctl : K.ctl (w.kernel.openFile ans.accept .stream) .add ans.accept true) :
      Outcome w (.event ans)
        { w with
          batch := rest
          kernel := (w.kernel.openFile ans.accept .stream).ctl .add ans.accept (EPOLLIN ||| EPOLLOUT)
          history := .ctl .add ans.accept (EPOLLIN ||| EPOLLOUT) true ::
            .opened ans.accept .stream :: w.history }
  | dataEnd (ans ev rest pre) (hev : Dispatches w ev rest .data) (hread : ans.read.getD [] = [])
      (hpre : pre = [.read ev.fd 0] ∨ pre = [.perror "read", .read ev.fd (-1)])
      (hctl : K.ctl (w.kernel.closeFile ev.fd) .del ev.fd true) :
      Outcome w (.event ans)
        { w with
          batch := rest
          kernel := (w.kernel.closeFile ev.fd).ctl .del ev.fd (EPOLLIN ||| EPOLLOUT)
          history := .ctl .del ev.fd (EPOLLIN ||| EPOLLOUT) true :: .closed ev.fd :: (pre ++ w.history) }
  | dataUnread (ans ev rest buf) (hev : Dispatches w ev rest .data) (hread : ans.read = some buf)
      (hbuf : buf ≠ []) :
      Outcome w (.event ans) { w.log (.read ev.fd buf.length) with batch := rest }
  | dataCallback (ans ev rest buf func) (hev : Dispatches w ev rest .data) (hread : ans.read = some buf)
      (hbuf : buf ≠ []) :
      Outcome w (.event ans)
        { w with
          batch := rest
          callback := some (.receive ev.fd)
          history := .receiveCallback func ev.fd buf w.receiveCallbackUserData ::
            .read ev.fd buf.length :: w.history }
  | writeIdle (ans ev rest) (hev : Dispatches w ev rest .write) (hidle : w.currentSendRequest = none) :
      Outcome w (.event ans) { w with batch := rest }
  | writeFailed (ans ev rest req) (hev : Dispatches w ev rest .write)
      (hreq : w.currentSendRequest = some req) (hret : ans.write = -1) :
      Outcome w (.event ans)
        { w with
          batch := rest
          history := .perror "write" :: .write ev.fd req.unsent (-1) :: w.history }
  | writePartial (ans : EventAnswers) (ev rest req) (k : Nat) (hev : Dispatches w ev rest .write)
      (hreq : w.currentSendRequest = some req) (hret : ans.write = k) (hk : k ≤ req.count)
      (hlt : (req.offset + k) % sizeMax < req.length) :
      Outcome w (.event ans)
        { w with
          batch := rest
          currentSendRequest := some { req with offset := (req.offset + k) % sizeMax }
          history := .write ev.fd req.unsent k :: w.history }
  | writeFinished (ans : EventAnswers) (ev rest req) (k : Nat) (hev : Dispatches w ev rest .write)
      (hreq : w.currentSendRequest = some req) (hret : ans.write = k) (hk : k ≤ req.count)
      (hge : req.length ≤ (req.offset + k) % sizeMax)
      (hfunc : w.sendCompleteCallback = none) :
      Outcome w (.event ans)
        { w with
          batch := rest
          currentSendRequest := none
          history := .write ev.fd req.unsent k :: w.history }
  | writeCallback (ans : EventAnswers) (ev rest req) (k : Nat) (func) (hev : Dispatches w ev rest .write)
      (hreq : w.currentSendRequest = some req) (hret : ans.write = k) (hk : k ≤ req.count)
      (hge : req.length ≤ (req.offset + k) % sizeMax) (hfunc : w.sendCompleteCallback = some func) :
      Outcome w (.event ans)
        { w with
          batch := rest
          callback := some (.sendComplete ev.fd)
          currentSendRequest := some { req with offset := (req.offset + k) % sizeMax }
          history := .sendCompleteCallback func ev.fd w.sendCompleteCallbackUserData ::
            .write ev.fd req.unsent k :: w.history }
  | ignored (ans ev rest) (hev : Dispatches w ev rest .ignored) :
      Outcome w (.event ans) { w with batch := rest }
  | returnAccept (ctl server client) (hcb : w.callback = some (.accept server client))
      (hctl : K.ctl w.kernel .add client true) :
      Outcome w (.callbackReturn ctl)
        { w with
          callback := none
          kernel := w.kernel.ctl .add client (EPOLLIN ||| EPOLLOUT)
          history := .ctl .add client (EPOLLIN ||| EPOLLOUT) true :: w.history }
  | returnReceive (ctl fd) (hcb : w.callback = some (.receive fd)) :
      Outcome w (.callbackReturn ctl) { w with callback := none }
  | returnSendComplete (ctl fd) (hcb : w.callback = some (.sendComplete fd)) :
      Outcome w (.callbackReturn ctl) { w with callback := none, currentSendRequest := none }
  | exit (a w') (hcan : CanExit K w a) (hexit : w'.exited = true)
      (hsilent : ∃ pre, (∀ o ∈ pre, o.Silent) ∧ w'.history = pre ++ w.history) :
      Outcome w a w'

variable {K} {w w' : World}

/-- `epoll_ctl` succeeds and the source goes on, or it fails and the process exits. -/
theorem epollCtl_cases {op : CtlOp} {fd : Fd} {events : EventMask} {ok : Bool} {next : World → World}
    (h : epollCtl K op fd events ok next w = some w') :
    (K.ctl w.kernel op fd true ∧
      w' = next { w.log (.ctl op fd events true) with kernel := w.kernel.ctl op fd events }) ∨
    (K.ctl w.kernel op fd false ∧
      w' = handleError "epoll_ctl" (w.log (.ctl op fd events false))) := by
  unfold epollCtl at h
  split_ifs at h with hK hok
  · subst hok; exact Or.inl ⟨hK, (Option.some.inj h).symm⟩
  · obtain rfl : ok = false := by simpa using hok
    exact Or.inr ⟨hK, (Option.some.inj h).symm⟩

/-- A state that `handle_error` leaves, after some silent observations. -/
theorem Outcome.of_handleError {a : Action} {v : World} {msg : String} (hcan : CanExit K w a)
    (pre : List Obs) (hpre : ∀ o ∈ pre, o.Silent) (hv : v.history = pre ++ w.history) :
    Outcome K w a (handleError msg v) :=
  .exit a _ hcan rfl ⟨.perror msg :: pre, by simpa [Obs.Silent] using hpre, by simp [handleError, hv]⟩

theorem startServer_outcome {port : UInt16} {ans : StartServerAnswers}
    (h : proactorTcpEpollStartServer K port ans w = some w') :
    Outcome K w (.startServer port ans) w' := by
  unfold proactorTcpEpollStartServer at h
  split_ifs at h with hs hf hb hl
  · obtain rfl := Option.some.inj h
    exact .of_handleError trivial [] (by simp) rfl
  · obtain rfl := Option.some.inj h
    exact .of_handleError trivial [.bind ans.socket port, .opened ans.socket .listener]
      (by simp [Obs.Silent]) rfl
  · obtain rfl := Option.some.inj h
    exact .of_handleError trivial [.bind ans.socket port, .opened ans.socket .listener]
      (by simp [Obs.Silent]) rfl
  · rcases epollCtl_cases h with ⟨hctl, rfl⟩ | ⟨-, rfl⟩
    · exact .startServer port ans hf hctl
    · exact .of_handleError trivial
        [.ctl .add ans.socket EPOLLIN false, .bind ans.socket port, .opened ans.socket .listener]
        (by simp [Obs.Silent]) rfl

theorem connect_outcome {address : String} {port : UInt16} {ans : ConnectAnswers}
    (h : proactorTcpEpollConnect K address port ans w = some w') :
    Outcome K w (.connect address port ans) w' := by
  unfold proactorTcpEpollConnect at h
  split_ifs at h with hs hf hc
  · obtain rfl := Option.some.inj h
    exact .of_handleError trivial [] (by simp) rfl
  · obtain rfl := Option.some.inj h
    exact .of_handleError trivial [.connect ans.socket address port, .opened ans.socket .stream]
      (by simp [Obs.Silent]) rfl
  · rcases epollCtl_cases h with ⟨hctl, rfl⟩ | ⟨-, rfl⟩
    · exact .connect address port ans hf hctl
    · exact .of_handleError trivial
        [.ctl .add ans.socket (EPOLLIN ||| EPOLLOUT) false, .connect ans.socket address port,
          .opened ans.socket .stream]
        (by simp [Obs.Silent]) rfl

theorem send_outcome {socket : Fd} {data : List Byte} {ans : SendAnswers}
    (hlen : data.length < sizeMax) (h : proactorTcpEpollSend K socket data ans w = some w') :
    Outcome K w (.send socket data ans) w' := by
  unfold proactorTcpEpollSend at h
  split_ifs at h with hbusy hm1 hm2
  · obtain rfl := Option.some.inj h
    exact .sendRejected socket data ans hbusy
  · obtain rfl := Option.some.inj h
    have hidle : w.currentSendRequest = none := by simpa using hbusy
    exact .of_handleError ⟨hidle, Or.inl (by simpa using hm1)⟩ [] (by simp) rfl
  · obtain rfl := Option.some.inj h
    have hidle : w.currentSendRequest = none := by simpa using hbusy
    exact .of_handleError ⟨hidle, Or.inr (Or.inl (by simpa using hm2))⟩ [] (by simp) rfl
  · have hidle : w.currentSendRequest = none := by simpa using hbusy
    rcases epollCtl_cases h with ⟨hctl, rfl⟩ | ⟨hctl, rfl⟩
    · exact .sendAccepted socket data ans hidle hlen ⟨by simpa using hm1, by simpa using hm2⟩ hctl
    · exact .of_handleError ⟨hidle, Or.inr (Or.inr hctl)⟩ [.ctl .mod socket EPOLLOUT false]
        (by simp [Obs.Silent]) rfl

/-- `proactor_tcp_epoll_wake` writes one byte and returns, or exits. -/
theorem wake_cases (ret : Int) (w : World) :
    proactorTcpEpollWake ret w = w.log (.wakeWrite w.wakeupFds.2 ret) ∨
    proactorTcpEpollWake ret w = handleError "write" (w.log (.wakeWrite w.wakeupFds.2 ret)) := by
  unfold proactorTcpEpollWake
  split_ifs with h
  · exact Or.inr rfl
  · exact Or.inl rfl

theorem wait_outcome {ans : WaitAnswer} (hcb : w.callback = none) (hbatch : w.batch = [])
    (h : waitEvents K ans w = some w') : Outcome K w (.wait ans) w' := by
  unfold waitEvents at h
  by_cases hstop : w.stop = true
  · rw [if_pos hstop] at h
    obtain rfl := Option.some.inj h
    exact .loopEnd ans hstop
  · rw [if_neg hstop] at h
    cases ans with
    | events evs =>
      simp only at h
      split_ifs at h with hwait
      obtain rfl := Option.some.inj h
      exact .events evs hcb hbatch hwait
    | interrupted =>
      obtain rfl := Option.some.inj h
      exact .interrupted
    | failed =>
      simp only at h
      split_ifs at h with hfail
      obtain rfl := Option.some.inj h
      exact .of_handleError hfail [] (by simp) rfl

section Event

variable {ans : EventAnswers} {ev : Event} {rest : List Event}

theorem acceptEvent_outcome (hev : Dispatches w ev rest .accept)
    (h : handleAcceptEvent K ev.fd ans.accept ans.ctl { w with batch := rest } = some w') :
    Outcome K w (.event ans) w' := by
  unfold handleAcceptEvent at h
  split_ifs at h with hneg hfresh
  · obtain rfl := Option.some.inj h
    exact .acceptFailed ans ev rest hev
  · cases hfunc : w.acceptCallback with
    | none =>
      simp only [World.openFile, hfunc] at h
      rcases epollCtl_cases h with ⟨hctl, rfl⟩ | ⟨hctl, rfl⟩
      · exact .acceptRegistered ans ev rest hev hfresh hctl
      · exact .of_handleError ⟨ev, rest, Or.inl ⟨hev, hfresh, hctl⟩⟩
          [.ctl .add ans.accept (EPOLLIN ||| EPOLLOUT) false, .opened ans.accept .stream]
          (by simp [Obs.Silent]) rfl
    | some func =>
      simp only [World.openFile, hfunc] at h
      obtain rfl := Option.some.inj h
      exact .acceptCallback ans ev rest func hev hfresh

theorem dataEvent_outcome (hev : Dispatches w ev rest .data)
    (h : handleDataEvent K ev.fd ans.read ans.ctl { w with batch := rest } = some w') :
    Outcome K w (.event ans) w' := by
  cases hread : ans.read with
  | none =>
    simp only [handleDataEvent, hread] at h
    have hnil : ans.read.getD [] = [] := by rw [hread]; rfl
    rcases epollCtl_cases h with ⟨hctl, rfl⟩ | ⟨hctl, rfl⟩
    · exact .dataEnd ans ev rest _ hev hnil (Or.inr rfl) hctl
    · exact .of_handleError ⟨ev, rest, Or.inr ⟨hev, hnil, hctl⟩⟩
        [.ctl .del ev.fd (EPOLLIN ||| EPOLLOUT) false, .closed ev.fd, .perror "read", .read ev.fd (-1)]
        (by simp [Obs.Silent]) rfl
  | some buf =>
    cases buf with
    | nil =>
      simp only [handleDataEvent, hread] at h
      have hnil : ans.read.getD [] = [] := by rw [hread]; rfl
      rcases epollCtl_cases h with ⟨hctl, rfl⟩ | ⟨hctl, rfl⟩
      · exact .dataEnd ans ev rest _ hev hnil (Or.inl rfl) hctl
      · exact .of_handleError ⟨ev, rest, Or.inr ⟨hev, hnil, hctl⟩⟩
          [.ctl .del ev.fd (EPOLLIN ||| EPOLLOUT) false, .closed ev.fd, .read ev.fd 0]
          (by simp [Obs.Silent]) rfl
    | cons b bs =>
      simp only [handleDataEvent, hread] at h
      split_ifs at h with hsize
      cases hfunc : w.receiveCallback with
      | none =>
        simp only [World.log, hfunc] at h
        obtain rfl := Option.some.inj h
        exact .dataUnread ans ev rest (b :: bs) hev hread (by simp)
      | some func =>
        simp only [World.log, hfunc] at h
        obtain rfl := Option.some.inj h
        exact .dataCallback ans ev rest (b :: bs) func hev hread (by simp)

theorem writeEvent_outcome (hev : Dispatches w ev rest .write)
    (h : handleWriteEvent ev.fd ans.write { w with batch := rest } = some w') :
    Outcome K w (.event ans) w' := by
  cases hreq : w.currentSendRequest with
  | none =>
    simp only [handleWriteEvent, hreq] at h
    obtain rfl := Option.some.inj h
    simpa [hreq] using Outcome.writeIdle ans ev rest hev hreq
  | some req =>
    simp only [handleWriteEvent, hreq] at h
    split_ifs at h with hret hneg hge
    · obtain rfl := Option.some.inj h
      have hm1 : ans.write = -1 := by omega
      simpa [World.log, hreq, hm1] using Outcome.writeFailed ans ev rest req hev hreq hm1
    · obtain ⟨k, hk⟩ := Int.eq_ofNat_of_zero_le (by omega : 0 ≤ ans.write)
      simp only [hk, Int.toNat_natCast, World.log] at h hge
      have hcount : k ≤ req.count := by omega
      split at h
      · next hfunc =>
        obtain rfl := Option.some.inj h
        exact .writeFinished ans ev rest req k hev hreq hk hcount hge hfunc
      · next func hfunc =>
        obtain rfl := Option.some.inj h
        exact .writeCallback ans ev rest req k func hev hreq hk hcount hge hfunc
    · obtain ⟨k, hk⟩ := Int.eq_ofNat_of_zero_le (by omega : 0 ≤ ans.write)
      simp only [hk, Int.toNat_natCast, World.log] at h hge
      obtain rfl := Option.some.inj h
      exact .writePartial ans ev rest req k hev hreq hk (by omega) (by omega)

theorem event_outcome (hcb : w.callback = none) (hbatch : w.batch = ev :: rest)
    (h : handleEvent K ev ans { w with batch := rest } = some w') : Outcome K w (.event ans) w' := by
  have hsame : route { w with batch := rest } ev = route w ev := rfl
  unfold handleEvent at h
  rw [hsame] at h
  cases hroute : route w ev with
  | wake =>
    rw [hroute] at h
    obtain rfl := Option.some.inj h
    exact .eventWake ans ev rest ⟨hcb, hbatch, hroute⟩
  | accept => rw [hroute] at h; exact acceptEvent_outcome ⟨hcb, hbatch, hroute⟩ h
  | data => rw [hroute] at h; exact dataEvent_outcome ⟨hcb, hbatch, hroute⟩ h
  | write => rw [hroute] at h; exact writeEvent_outcome ⟨hcb, hbatch, hroute⟩ h
  | ignored =>
    rw [hroute] at h
    obtain rfl := Option.some.inj h
    exact .ignored ans ev rest ⟨hcb, hbatch, hroute⟩

end Event

theorem callbackReturn_outcome {cb : Callback} {ctl : Bool} (hcb : w.callback = some cb)
    (h : callbackReturn K cb ctl { w with callback := none } = some w') :
    Outcome K w (.callbackReturn ctl) w' := by
  cases cb with
  | accept server client =>
    rcases epollCtl_cases h with ⟨hctl, rfl⟩ | ⟨hctl, rfl⟩
    · exact .returnAccept ctl server client hcb hctl
    · exact .of_handleError ⟨server, client, hcb, hctl⟩
        [.ctl .add client (EPOLLIN ||| EPOLLOUT) false] (by simp [Obs.Silent]) rfl
  | receive fd =>
    obtain rfl := Option.some.inj h
    exact .returnReceive ctl fd hcb
  | sendComplete fd =>
    obtain rfl := Option.some.inj h
    exact .returnSendComplete ctl fd hcb

/-- Every step has one of the outcomes listed, and the process had not exited before it. -/
theorem step_outcome {a : Action} (h : step K w a = some w') : w.exited = false ∧ Outcome K w a w' := by
  have hexit : w.exited = false := by
    by_contra hex
    simp [step, hex] at h
  refine ⟨hexit, ?_⟩
  unfold step at h
  rw [if_neg (by simp [hexit])] at h
  cases a with
  | startServer port ans => exact startServer_outcome h
  | connect address port ans => exact connect_outcome h
  | send socket data ans =>
    simp only at h
    split_ifs at h with hlen
    exact send_outcome hlen h
  | setReceiveCallback func userData =>
    obtain rfl := Option.some.inj h
    exact .setReceiveCallback func userData
  | setSendCompleteCallback func userData =>
    obtain rfl := Option.some.inj h
    exact .setSendCompleteCallback func userData
  | setAcceptCallback func userData =>
    obtain rfl := Option.some.inj h
    exact .setAcceptCallback func userData
  | wake ret =>
    obtain rfl := Option.some.inj h
    rcases wake_cases ret w with hw | hw
    · rw [hw]; exact .wake ret
    · rw [hw]; exact .of_handleError trivial [.wakeWrite w.wakeupFds.2 ret] (by simp [Obs.Silent]) rfl
  | stop ret =>
    obtain rfl := Option.some.inj h
    rcases wake_cases ret { w with stop := true } with hw | hw
    · rw [proactorTcpEpollStop, hw]; exact .stop ret
    · rw [proactorTcpEpollStop, hw]
      exact .of_handleError trivial [.wakeWrite w.wakeupFds.2 ret] (by simp [Obs.Silent]) rfl
  | run =>
    simp only at h
    split_ifs at h with hrun
    obtain rfl := Option.some.inj h
    exact .run (by simpa using hrun)
  | wait ans =>
    simp only at h
    split_ifs at h with hidle
    simp only [Bool.and_eq_true, Option.isNone_iff_eq_none, List.isEmpty_iff] at hidle
    exact wait_outcome hidle.1.2 hidle.2 h
  | event ans =>
    simp only at h
    split at h
    · next ev rest hcb hbatch => exact event_outcome hcb hbatch h
    · cases h
  | callbackReturn ctl =>
    simp only at h
    split at h
    · next cb hcb => exact callbackReturn_outcome hcb h
    · cases h

/-- A step that exits is one that can. -/
theorem Outcome.canExit {a : Action} (h : Outcome K w a w') (hw : w.exited = false)
    (hexit : w'.exited = true) : CanExit K w a := by
  cases h with
  | exit a w' hcan hexit' hsilent => exact hcan
  | _ => exact absurd (hw.symm.trans hexit) Bool.false_ne_true

/-- The event loop hands the next event of its batch to `handleEvent`. -/
theorem step_event {ans : EventAnswers} {ev : Event} {rest : List Event} {r : Route}
    (hw : w.exited = false) (hev : Dispatches w ev rest r) :
    step K w (.event ans) = handleEvent K ev ans { w with batch := rest } := by
  unfold step
  rw [if_neg (by simp [hw])]
  simp only [hev.callback, hev.batch]

/-! ## The state after `proactor_tcp_epoll_init` -/

/-- The state that `proactor_tcp_epoll_init` leaves when it opens `e`, `rd` and `wr`. -/
def started (k : Kernel) (e rd wr : Fd) : World :=
  { boot k with
    epollFd := e
    wakeupFds := (rd, wr)
    kernel := (((k.openFile e .epoll).openFile rd .pipeRead).openFile wr .pipeWrite).ctl .add rd EPOLLIN
    history := [.ctl .add rd EPOLLIN true, .opened wr .pipeWrite, .opened rd .pipeRead, .opened e .epoll] }

/-- What `proactor_tcp_epoll_init` opened. -/
structure Starts (k : Kernel) (e rd wr : Fd) : Prop where
  files : ∀ fd, k.files fd = none ∨ k.files fd = some .foreign
  interest : ∀ fd, k.interest fd = none
  fresh_e : k.fresh e
  fresh_rd : (k.openFile e .epoll).fresh rd
  fresh_wr : (k.openFile e .epoll).fresh wr
  ne : rd ≠ wr

theorem Started.eq_started (h : Started K w) : ∃ k e rd wr, Starts k e rd wr ∧ w = started k e rd wr := by
  obtain ⟨k, ans, hfiles, hint, hinit, hexit⟩ := h
  unfold proactorTcpEpollInit at hinit
  split_ifs at hinit with he hf
  · obtain rfl := Option.some.inj hinit
    cases hexit
  · cases hpipe : ans.pipe with
    | none =>
      simp only [hpipe] at hinit
      obtain rfl := Option.some.inj hinit
      cases hexit
    | some ends =>
      obtain ⟨rd, wr⟩ := ends
      simp only [hpipe] at hinit
      split at hinit
      · next hpf =>
        simp only [Bool.and_eq_true, bne_iff_ne, ne_eq] at hpf
        rcases epollCtl_cases hinit with ⟨-, rfl⟩ | ⟨-, rfl⟩
        · exact ⟨k, ans.epollCreate1, rd, wr, ⟨hfiles, hint, hf, hpf.1.1, hpf.1.2, hpf.2⟩, rfl⟩
        · cases hexit
      · cases hinit

/-- A kernel with the three standard descriptors open. -/
def stdioKernel : Kernel where
  files fd := if 0 ≤ fd ∧ fd ≤ 2 then some .foreign else none
  interest _ := none

/-- `proactor_tcp_epoll_init` in a process with the standard descriptors: `epoll_fd` is 3, the wake pipe
    is 4 and 5. -/
def stdioStart : World := started stdioKernel 3 4 5

theorem stdioStart_started (hK : ∀ k fd, K.ctl k .add fd (k.ctlLegal .add fd)) : Started K stdioStart := by
  refine ⟨stdioKernel, ⟨3, some (4, 5), true⟩, fun fd => ?_, fun _ => rfl, ?_, rfl⟩
  · by_cases h : 0 ≤ fd ∧ fd ≤ 2
    · exact Or.inr (if_pos h)
    · exact Or.inl (if_neg h)
  · have hctl := hK (((stdioKernel.openFile 3 .epoll).openFile 4 .pipeRead).openFile 5 .pipeWrite) 4
    have hlegal : Kernel.ctlLegal
        (((stdioKernel.openFile 3 .epoll).openFile 4 .pipeRead).openFile 5 .pipeWrite) .add 4 = true := rfl
    rw [hlegal] at hctl
    show epollCtl K .add 4 EPOLLIN true id _ = _
    exact if_pos hctl

theorem stdioStart_documented : Started documented stdioStart :=
  stdioStart_started fun _ _ => by simp [documented]

theorem stdioStart_anyDel : Started anyDel stdioStart := stdioStart_started fun _ _ => by simp [anyDel]

end TagSim.Epoll
