import TagSim.Epoll.Proofs.StepProofs

/-!
# What does not depend on the send request

Apart from `proactor_tcp_epoll_send`, `handle_write_event` and the end of it after the send-complete callback,
no function of the source looks at `current_send_request` or changes it: with another request it does the
same. Nor does any other function call the send-complete callback.
-/

namespace TagSim.Epoll

/-- The same state with another send request. -/
def World.withRequest (r : Option SendRequest) (w : World) : World := { w with currentSendRequest := r }

/-- The functions that neither look at the send request nor change it. -/
def Framed (f : World → Option World) : Prop :=
  ∀ r w, f (w.withRequest r) = (f w).map (World.withRequest r)

variable {K : KernelRules}

section Frame

theorem map_ite {σ τ : Type*} {f : σ → τ} {c : Prop} {d d' : Decidable c} {x y : Option σ} {x' y' : Option τ}
    (hx : x' = x.map f) (hy : y' = y.map f) : @ite _ c d' x' y' = (@ite _ c d x y).map f := by
  by_cases hc : c
  · rw [if_pos hc, if_pos hc, hx]
  · rw [if_neg hc, if_neg hc, hy]

theorem epollCtl_framed {op : CtlOp} {fd : Fd} {events : EventMask} {ok : Bool} {next : World → World}
    {r : Option SendRequest} {w w' : World} (hnext : ∀ v, next (v.withRequest r) = (next v).withRequest r)
    (h : w' = w.withRequest r) :
    epollCtl K op fd events ok next w' = (epollCtl K op fd events ok next w).map (World.withRequest r) := by
  have hdone := hnext { w.log (.ctl op fd events ok) with kernel := w.kernel.ctl op fd events }
  rw [h]
  exact map_ite (map_ite (congrArg some hdone) rfl) rfl

theorem init_framed (ans : InitAnswers) : Framed (proactorTcpEpollInit K ans) := by
  intro r w
  unfold proactorTcpEpollInit
  refine map_ite rfl (map_ite ?_ rfl)
  cases ans.pipe with
  | none => rfl
  | some ends => exact map_ite (epollCtl_framed (fun _ => rfl) rfl) rfl

theorem startServer_framed (port : UInt16) (ans : StartServerAnswers) :
    Framed (proactorTcpEpollStartServer K port ans) := by
  intro r w
  refine map_ite rfl (map_ite (map_ite rfl (map_ite rfl ?_)) rfl)
  exact epollCtl_framed (fun _ => rfl) rfl

theorem connect_framed (address : String) (port : UInt16) (ans : ConnectAnswers) :
    Framed (proactorTcpEpollConnect K address port ans) := by
  intro r w
  refine map_ite rfl (map_ite (map_ite rfl ?_) rfl)
  exact epollCtl_framed (fun _ => rfl) rfl

theorem dataEvent_framed (fd : Fd) (bytesRead : Option (List Byte)) (ctl : Bool) :
    Framed (handleDataEvent K fd bytesRead ctl) := by
  intro r w
  unfold handleDataEvent
  cases bytesRead with
  | none => exact epollCtl_framed (fun _ => rfl) rfl
  | some buf =>
    cases buf with
    | nil => exact epollCtl_framed (fun _ => rfl) rfl
    | cons b bs =>
      refine map_ite ?_ rfl
      obtain ⟨⟨_, _, _, _, _, receive, _, _, _, _, _, _⟩, _, _, _, _, _, _⟩ := w
      cases receive <;> rfl

theorem acceptEvent_framed (fd client : Fd) (ctl : Bool) : Framed (handleAcceptEvent K fd client ctl) := by
  intro r w
  refine map_ite rfl (map_ite ?_ rfl)
  obtain ⟨⟨_, _, _, _, _, _, _, accept, _, _, _, _⟩, _, _, _, _, _, _⟩ := w
  cases accept with
  | none => exact epollCtl_framed (fun _ => rfl) rfl
  | some func => rfl

theorem waitEvents_framed (ans : WaitAnswer) : Framed (waitEvents K ans) := by
  intro r w
  refine map_ite rfl ?_
  cases ans with
  | interrupted => rfl
  | events | failed => exact map_ite rfl rfl

theorem wake_framed (ret : Int) (r : Option SendRequest) (w : World) :
    proactorTcpEpollWake ret (w.withRequest r) = (proactorTcpEpollWake ret w).withRequest r := by
  unfold proactorTcpEpollWake
  split_ifs <;> rfl

theorem cleanup_framed (r : Option SendRequest) (w : World) :
    proactorTcpEpollCleanup (w.withRequest r) = (proactorTcpEpollCleanup w).withRequest r := by
  unfold proactorTcpEpollCleanup
  by_cases hs : w.serverSocket = -1 <;> by_cases hc : w.clientSocket = -1 <;>
    by_cases hw : w.wakeupFds.1 = -1 <;> simp [World.withRequest, World.closeFile, hs, hc, hw]

/-- What is done with an event that is no write event does not depend on the request. -/
theorem handleEvent_framed {ev : Event} {ans : EventAnswers} {r : Option SendRequest} {w : World}
    (hroute : route w ev ≠ .write) :
    handleEvent K ev ans (w.withRequest r) = (handleEvent K ev ans w).map (World.withRequest r) := by
  have hsame : route (w.withRequest r) ev = route w ev := rfl
  unfold handleEvent
  rw [hsame]
  cases hr : route w ev with
  | wake | ignored => rfl
  | accept => exact acceptEvent_framed ev.fd ans.accept ans.ctl r w
  | data => exact dataEvent_framed ev.fd ans.read ans.ctl r w
  | write => exact absurd hr hroute

/-- The return of another callback than the send-complete callback does not depend on the request. -/
theorem return_framed {ctl : Bool} {r : Option SendRequest} {w : World}
    (hother : ∀ fd, w.callback ≠ some (.sendComplete fd)) :
    step K (w.withRequest r) (.callbackReturn ctl) =
      (step K w (.callbackReturn ctl)).map (World.withRequest r) := by
  refine map_ite rfl ?_
  obtain ⟨g, kernel, running, batch, callback, exited, history⟩ := w
  cases callback with
  | none => rfl
  | some cb =>
    cases cb with
    | accept server client => exact epollCtl_framed (fun _ => rfl) rfl
    | receive fd => rfl
    | sendComplete fd => exact absurd rfl (hother fd)

/-- The calls that do not depend on the request. -/
def Action.Plain : Action → Prop
  | .send .. | .event _ | .callbackReturn _ => False
  | _ => True

theorem step_framed {a : Action} (ha : a.Plain) : Framed fun w => step K w a := by
  intro r w
  refine map_ite rfl ?_
  cases a with
  | startServer port ans => exact startServer_framed port ans r w
  | connect address port ans => exact connect_framed address port ans r w
  | wake ret => exact congrArg some (wake_framed ret r w)
  | stop ret => exact congrArg some (wake_framed ret r { w with stop := true })
  | run => exact map_ite rfl rfl
  | wait ans => exact map_ite (waitEvents_framed ans r w) rfl
  | setReceiveCallback | setSendCompleteCallback | setAcceptCallback => rfl
  | send | event | callbackReturn => exact ha.elim

end Frame

section Callback

variable {w w' : World} {a : Action}

/-- The send-complete callback is being executed only if it was before. -/
def EndsOnly (w w' : World) : Prop :=
  w'.exited = false → ∀ fd, w'.callback = some (.sendComplete fd) → w.callback = some (.sendComplete fd)

/-- `proactor_tcp_epoll_init` ends the process, or opens the epoll instance and the wake pipe. -/
theorem init_cases {ans : InitAnswers} (h : proactorTcpEpollInit K ans w = some w') :
    (∃ pre, (∀ o ∈ pre, o.Silent) ∧ w'.history = pre ++ w.history) ∧
      (w'.exited = true ∨ w'.callback = w.callback ∧ w'.exited = w.exited) := by
  unfold proactorTcpEpollInit at h
  split_ifs at h with hfail hfresh
  · obtain rfl := Option.some.inj h
    exact ⟨⟨[.perror "epoll_create1"], by simp [Obs.Silent], rfl⟩, Or.inl rfl⟩
  · cases hpipe : ans.pipe with
    | none =>
      simp only [hpipe] at h
      obtain rfl := Option.some.inj h
      exact ⟨⟨[.perror "pipe", .opened ans.epollCreate1 .epoll], by simp [Obs.Silent], rfl⟩, Or.inl rfl⟩
    | some ends =>
      simp only [hpipe] at h
      split_ifs at h
      rcases epollCtl_cases h with ⟨-, rfl⟩ | ⟨-, rfl⟩
      · exact ⟨⟨[.ctl .add ends.1 EPOLLIN true, .opened ends.2 .pipeWrite, .opened ends.1 .pipeRead,
          .opened ans.epollCreate1 .epoll], by simp [Obs.Silent], rfl⟩, Or.inr ⟨rfl, rfl⟩⟩
      · exact ⟨⟨[.perror "epoll_ctl", .ctl .add ends.1 EPOLLIN false, .opened ends.2 .pipeWrite,
          .opened ends.1 .pipeRead, .opened ans.epollCreate1 .epoll], by simp [Obs.Silent], rfl⟩, Or.inl rfl⟩

theorem init_endsOnly {ans : InitAnswers} (h : proactorTcpEpollInit K ans w = some w') : EndsOnly w w' := by
  intro hexit fd hfd
  rcases (init_cases h).2 with hend | ⟨hcb, -⟩
  · rw [hexit] at hend
    cases hend
  · exact hcb ▸ hfd

theorem cleanup_endsOnly (w : World) : EndsOnly w (proactorTcpEpollCleanup w) := by
  intro _ fd hfd
  have hcb : (proactorTcpEpollCleanup w).callback = w.callback := by
    unfold proactorTcpEpollCleanup
    by_cases hs : w.serverSocket = -1 <;> by_cases hc : w.clientSocket = -1 <;>
      by_cases hw : w.wakeupFds.1 = -1 <;> simp [World.closeFile, hs, hc, hw]
  exact hcb ▸ hfd

/-- Only a write event calls the send-complete callback. -/
theorem Outcome.endsOnly (h : Outcome K w a w')
    (hwrite : ∀ ans ev rest, a = .event ans → ¬ Dispatches w ev rest .write) : EndsOnly w w' := by
  intro hexit fd hfd
  cases h with
  | writeCallback ans ev rest req k func hev => exact absurd hev (hwrite ans ev rest rfl)
  | exit a w' hcan hexit' =>
    rw [hexit] at hexit'
    cases hexit'
  | acceptCallback | dataCallback | returnAccept | returnReceive | returnSendComplete => cases hfd
  | _ => exact hfd

end Callback

end TagSim.Epoll
