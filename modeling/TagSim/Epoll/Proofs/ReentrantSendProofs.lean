import TagSim.Epoll.Proofs.RegistryProofs
import TagSim.Epoll.Proofs.SendStreamProofs

/-!
# Sends from inside a callback

`handle_write_event` clears `current_send_request` after the send-complete callback, and
`handle_accept_event` registers the new connection after the accept callback. So a send from the first is
rejected and one from the second exits; only the receive callback can send.
-/

namespace TagSim.Epoll

/-- All bytes of every accepted send have been written. -/
def AllWritten (w : World) : Prop := written w.history = (accepted w.history).flatten

/-- A send that goes through: it returns 0 and becomes the current request. -/
structure SendAccepted (socket : Fd) (data : List Byte) (w : World) : Prop where
  exited : w.exited = false
  returned : w.history.head? = some (.sendReturned socket data 0)
  current : w.currentSendRequest = some { data := data, length := data.length, offset := 0 }

/-- With nothing left to be written, a send to the stream that a callback was given goes through. -/
def CallbackSendAccepted (K : KernelRules) (w : World) (a : Action) : Prop :=
  ∀ cb data ans, w.callback = some cb → a = .send cb.stream data ans → AllWritten w →
    ∀ w', step K w a = some w' → SendAccepted cb.stream data w'

/-- With nothing left to be written, sends to the stream that a callback was given are made by the receive
    callback, when no send of an empty payload is pending and memory can be allocated. -/
def SendsFromReceive (w : World) (a : Action) : Prop :=
  ∀ cb data ans, w.callback = some cb → a = .send cb.stream data ans → AllWritten w →
    (∃ fd, cb = .receive fd) ∧ w.currentSendRequest = none ∧ ans.mallocRequest ∧ ans.mallocData

/-- Every send but the first is made inside the send-complete callback. -/
def ChainSend (w : World) (a : Action) : Prop :=
  ∀ socket data ans, a = .send socket data ans →
    attempted w.history = [] ∨ ∃ fd, w.callback = some (.sendComplete fd)

open TagSim.Transfer

variable {K : KernelRules} {w₀ w w' : World} {a : Action} {as : List Action}

/-- A send from a callback goes through only from the receive callback. -/
theorem receive_of_sendAccepted (hreg : Registry w) {c : Channel Byte} (hc : Carries w c) {cb : Callback}
    {data : List Byte} {ans : SendAnswers} (hcb : w.callback = some cb)
    (hout : Outcome documented w (.send cb.stream data ans) w') (hsend : SendAccepted cb.stream data w') :
    (∃ fd, cb = .receive fd) ∧ w.currentSendRequest = none ∧ ans.mallocRequest ∧ ans.mallocData := by
  cases hout with
  | sendRejected _ _ _ hbusy =>
    have hret := hsend.returned
    simp [World.log] at hret
  | exit _ _ hcan hexit hsilent =>
    rw [hsend.exited] at hexit
    cases hexit
  | sendAccepted _ _ _ hidle hlen hmalloc hctl =>
    refine ⟨?_, hidle, hmalloc⟩
    cases cb with
    | accept server client =>
      -- the new connection is not registered yet
      obtain ⟨-, hint⟩ := hreg.accepting server client hcb
      have hmod : CtlOp.mod ≠ .del := by simp
      have hlegal := (documented_strict.ctl _ _ _ _ hmod hctl).symm
      have hsome := (Kernel.ctlLegal_mod.mp hlegal).2
      rw [Callback.stream, hint] at hsome
      cases hsome
    | receive fd => exact ⟨fd, rfl⟩
    | sendComplete fd =>
      -- the request that was just completed is still current
      have hsome := hc.completing fd hcb
      rw [hidle] at hsome
      cases hsome

/-- A send from the receive callback goes through when nothing is current. -/
theorem sendAccepted_of_receive (hreg : Registry w) {fd : Fd} {data : List Byte} {ans : SendAnswers}
    (hcb : w.callback = some (.receive fd)) (hidle : w.currentSendRequest = none)
    (hmalloc : ans.mallocRequest ∧ ans.mallocData) (hrunning : w.exited = false)
    (hout : Outcome documented w (.send fd data ans) w') : SendAccepted fd data w' := by
  cases hout with
  | sendRejected _ _ _ hbusy =>
    rw [hidle] at hbusy
    cases hbusy
  | sendAccepted => exact ⟨hrunning, rfl, rfl⟩
  | exit _ _ hcan hexit hsilent =>
    have hint := hreg.receiving fd hcb
    have hlegal : w.kernel.ctlLegal .mod fd = true := Kernel.ctlLegal_mod.mpr ⟨hreg.isOpen hint, hint⟩
    rcases hcan.2 with hm | hm | hctl
    · rw [hmalloc.1] at hm
      cases hm
    · rw [hmalloc.2] at hm
      cases hm
    · simp [documented, hlegal] at hctl

/-- The sends of a chain: the first is accepted, the others are rejected. -/
structure Chained (w : World) : Prop where
  carries : ∃ c, Carries w c
  idle : attempted w.history = [] → w.currentSendRequest = none
  accepted_eq : accepted w.history = (attempted w.history).take 1

theorem Chained.step (h : Chained w) (hchain : ChainSend w a) (hs : SendOutcome w a w')
    (hexit : w'.exited = false) : Chained w' := by
  obtain ⟨c, hc⟩ := h.carries
  have hcarries : ∃ c', Carries w' c' := by
    rcases hc.step hs with hexit' | ⟨c', -, hc'⟩
    · rw [hexit] at hexit'
      cases hexit'
    · exact ⟨c', hc'⟩
  have hwrites : ∀ ans ev rest req, Writes w a ans ev rest req → attempted w.history ≠ [] := by
    intro ans ev rest req hwr hnil
    have hidle := h.idle hnil
    rw [hwr.2.2] at hidle
    cases hidle
  cases hs with
  | quiet hq =>
    obtain ⟨pre, hpre, hhist⟩ := hq.silent
    have hsame := sameSends_append hpre w.history
    rw [← hhist] at hsame
    refine ⟨hcarries, ?_, ?_⟩
    · rw [hsame.attempted, hq.request]
      exact h.idle
    · rw [hsame.attempted, hsame.accepted]
      exact h.accepted_eq
  | exit hexit' => rw [hexit] at hexit'; cases hexit'
  | rejected socket data ans ha hbusy hw' =>
    have hne : attempted w.history ≠ [] := by
      intro hnil
      rw [h.idle hnil] at hbusy
      cases hbusy
    have hatt : attempted w'.history = attempted w.history ++ [data] := by rw [hw']; rfl
    have hacc : accepted w'.history = accepted w.history := by rw [hw']; rfl
    refine ⟨hcarries, ?_, ?_⟩
    · intro hnil
      rw [hatt] at hnil
      simp at hnil
    · rw [hatt, hacc, h.accepted_eq, List.take_append_of_le_length]
      exact List.length_pos_of_ne_nil hne
  | accepted socket data ans ha hidle hlen hreq hcb hset hhist =>
    have hnil : attempted w.history = [] := by
      rcases hchain socket data ans ha with hnil | ⟨fd, hcb⟩
      · exact hnil
      · have hsome := hc.completing fd hcb
        rw [hidle] at hsome
        cases hsome
    have hatt : attempted w'.history = attempted w.history ++ [data] := by rw [hhist]; rfl
    have hacc : accepted w'.history = accepted w.history ++ [data] := by rw [hhist]; rfl
    refine ⟨hcarries, ?_, ?_⟩
    · intro hnil'
      rw [hatt] at hnil'
      simp at hnil'
    · rw [hatt, hacc, h.accepted_eq, hnil]
      rfl
  | setCallback func userData ha hw' =>
    rw [hw'] at hcarries ⊢
    exact ⟨hcarries, h.idle, h.accepted_eq⟩
  | writeFailed ans ev rest req hwr hret hw' =>
    rw [hw'] at hcarries ⊢
    exact ⟨hcarries, fun hnil => absurd hnil (hwrites _ _ _ _ hwr), h.accepted_eq⟩
  | writePartial ans ev rest req k hwr hret hk hlt hw' =>
    rw [hw'] at hcarries ⊢
    exact ⟨hcarries, fun hnil => absurd hnil (hwrites _ _ _ _ hwr), h.accepted_eq⟩
  | writeFinished ans ev rest req k hwr hret hk hge hfunc hw' =>
    rw [hw'] at hcarries ⊢
    exact ⟨hcarries, fun _ => rfl, h.accepted_eq⟩
  | writeCallback ans ev rest req k func hwr hret hk hge hfunc hw' =>
    rw [hw'] at hcarries ⊢
    exact ⟨hcarries, fun hnil => absurd hnil (hwrites _ _ _ _ hwr), h.accepted_eq⟩
  | returned fd hcb hno hw' =>
    rw [hw'] at hcarries ⊢
    exact ⟨hcarries, fun _ => rfl, h.accepted_eq⟩

/-- A run in which every send but the first is made from the send-complete callback has at most one send
    accepted. -/
theorem run_chained (hstart : Started K w₀) (hrun : (machine K).run w₀ as = some w)
    (hchain : (machine K).AllSteps ChainSend w₀ as) : w.exited = false → Chained w := by
  have hstep : ∀ s a s', (s.exited = false → Chained s) → ChainSend s a →
      (machine K).step s a = some s' → s'.exited = false → Chained s' := by
    intro s a s' hs hc ha hexit
    exact (hs (step_outcome ha).1).step hc (step_sendOutcome ha) hexit
  have hstart' : w₀.exited = false → Chained w₀ := by
    intro _
    obtain ⟨k, e, rd, wr, -, rfl⟩ := hstart.eq_started
    exact ⟨⟨_, .of_started hstart⟩, fun _ => rfl, rfl⟩
  exact Machine.run_preserves_of_allSteps hstep hstart' hchain hrun

/-- Sends from callbacks go through exactly when they are made by the receive callback while no request is
    current, and a chain of sends from the send-complete callback goes through exactly when it has at most
    one member. -/
theorem callback_sends (hstart : Started documented w₀) (hrun : (machine documented).run w₀ as = some w) :
    ((machine documented).AllSteps (CallbackSendAccepted documented) w₀ as ↔
      (machine documented).AllSteps SendsFromReceive w₀ as) ∧
    (w.exited = false → (machine documented).AllSteps ChainSend w₀ as →
      (accepted w.history = attempted w.history ↔ (attempted w.history).length ≤ 1)) := by
  constructor
  · have hJ : ∀ s a s', ((s.exited = false → Registry s) ∧ (s.exited = true ∨ ∃ c, Carries s c)) →
        (machine documented).step s a = some s' →
        (s'.exited = false → Registry s') ∧ (s'.exited = true ∨ ∃ c, Carries s' c) := by
      rintro s a s' ⟨hreg, hs⟩ ha
      refine ⟨step_registry documented_strict hreg ha, ?_⟩
      rcases hs with hs | ⟨c, hs⟩
      · rw [(step_outcome ha).1] at hs
        cases hs
      · obtain ⟨c', -, hs'⟩ := step_carries (Or.inr hs) ha
        exact hs'.imp_right fun h => ⟨c', h⟩
    refine Machine.allSteps_congr hJ ?_ ⟨started_registry hstart, Or.inr ⟨_, .of_started hstart⟩⟩ hrun
    rintro s a s' ⟨hreg, hs⟩ ha
    have hstep : step documented s a = some s' := ha
    obtain ⟨hrunning, hout⟩ := step_outcome hstep
    rcases hs with hs | ⟨c, hc⟩
    · rw [hrunning] at hs
      cases hs
    · constructor
      · intro h cb data ans hcb hsend hwritten
        have hacc := h cb data ans hcb hsend hwritten s' hstep
        exact receive_of_sendAccepted (hreg hrunning) hc hcb (hsend ▸ hout) hacc
      · intro h cb data ans hcb hsend hwritten v hv
        obtain ⟨⟨fd, rfl⟩, hidle, hmalloc⟩ := h cb data ans hcb hsend hwritten
        have hout' := (step_outcome hv).2
        rw [hsend] at hout'
        exact sendAccepted_of_receive (hreg hrunning) hcb hidle hmalloc hrunning hout'
  · intro hexit hchain
    have h := run_chained hstart hrun hchain hexit
    rw [h.accepted_eq, List.take_eq_self_iff]

/-- A connection whose receive callback is handed two bytes. -/
def question : List Action :=
  [.connect "127.0.0.1" 502 ⟨6, true, true⟩, .setReceiveCallback (some 1) 0, .run,
    .wait (.events [⟨6, EPOLLIN⟩]), .event { read := some [1, 2] }]

theorem answer_sendAccepted : (machine documented).AllSteps (CallbackSendAccepted documented) stdioStart
    (question ++ [.send 6 [3] {}]) := by
  have hsome : ((machine documented).run stdioStart (question ++ [.send 6 [3] {}])).isSome = true := rfl
  have hquestion : ((machine documented).run stdioStart question).isSome = true := rfl
  rw [(callback_sends stdioStart_documented (Option.some_get hsome).symm).1,
    Machine.allSteps_append (Option.some_get hquestion).symm]
  refine ⟨Machine.allSteps_of_forall (fun a ha v => ?_) stdioStart, ?_, fun _ _ => trivial⟩
  · rintro cb data ans - rfl -
    simp [question] at ha
  · intro cb data ans hcb ha _
    obtain rfl : Callback.receive 6 = cb := Option.some.inj hcb
    obtain ⟨-, -, rfl⟩ := Action.send.inj ha
    exact ⟨⟨6, rfl⟩, rfl, rfl, rfl⟩

/-- A connection whose send-complete callback is called. -/
def firstMessage : List Action :=
  [.connect "127.0.0.1" 502 ⟨6, true, true⟩, .setSendCompleteCallback (some 1) 0, .send 6 [1] {}, .run,
    .wait (.events [⟨6, EPOLLOUT⟩]), .event { write := 1 }]

/-- The send-complete callback sends the next message. -/
theorem secondMessage_rejected : ¬ ∀ w₀ as w, Started documented w₀ →
    (machine documented).run w₀ as = some w →
    (machine documented).AllSteps (CallbackSendAccepted documented) w₀ as := by
  intro h
  have hfirst : ((machine documented).run stdioStart firstMessage).isSome = true := rfl
  have hsecond : ((machine documented).run stdioStart (firstMessage ++ [.send 6 [2] {}])).isSome = true := rfl
  have hall := h _ _ _ stdioStart_documented (Option.some_get hsecond).symm
  have hlast := ((Machine.allSteps_append (Option.some_get hfirst).symm).mp hall).2.1
  have hret := (hlast (.sendComplete 6) [2] {} rfl rfl rfl _ rfl).returned
  cases hret

end TagSim.Epoll
