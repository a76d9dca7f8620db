import Mathlib.Data.Option.Basic
import TagSim.Epoll.Proofs.SendingProofs
import TagSim.Transfer.Proofs.ChannelProofs

/-!
# The epoll backend sends a byte stream

The sending side of the backend refines the ordered transfer of `TagSim.Transfer`: `Carries w c` relates a
state to a channel, and every step of the backend is matched by steps of the channel. What the channel's
law says about the payloads therefore holds of the bytes that `write` accepts.
-/

namespace TagSim.Epoll

open TagSim.Transfer

/-- A send request holds a payload in transit. -/
structure SendRequest.Holds (req : SendRequest) (t : Transit Byte) : Prop where
  data : req.data = t.payload
  length : req.length = t.payload.length
  offset : req.offset = t.offset
  length_lt : req.length < sizeMax

namespace SendRequest.Holds

variable {req : SendRequest} {t : Transit Byte}

theorem offset_le (h : req.Holds t) : req.offset ≤ req.length := by
  rw [h.offset, h.length]
  exact t.offset_le

/-- The size passed to `write` does not underflow. -/
theorem count_eq (h : req.Holds t) : req.count = req.length - req.offset := by
  have hle := h.offset_le
  have hlt := h.length_lt
  rw [SendRequest.count, sizeSub]
  have hsub : req.length + sizeMax - req.offset = sizeMax + (req.length - req.offset) := by omega
  rw [hsub, Nat.add_mod_left, Nat.mod_eq_of_lt (by omega)]

theorem unsent_eq (h : req.Holds t) : req.unsent = t.remaining := by
  have hlen : (req.data.drop req.offset).length = req.count := by
    rw [h.count_eq, List.length_drop, h.data, h.length]
  rw [SendRequest.unsent, ← hlen, List.take_length, h.data, h.offset, Transit.remaining]

theorem length_remaining (h : req.Holds t) : t.remaining.length = req.count := by
  rw [Transit.length_remaining, h.count_eq, h.length, h.offset]

theorem offset_add (h : req.Holds t) {k : Nat} (hk : k ≤ req.count) :
    (req.offset + k) % sizeMax = req.offset + k := by
  have hcount := h.count_eq
  have hle := h.offset_le
  have hlt := h.length_lt
  exact Nat.mod_eq_of_lt (by omega)

/-- After a `write` that accepted `k` bytes the request holds the payload advanced by `k`. -/
theorem advance (h : req.Holds t) {k : Nat} (hk : k ≤ req.count) (hk' : k ≤ t.remaining.length) :
    SendRequest.Holds { req with offset := (req.offset + k) % sizeMax } (t.advance k hk') where
  data := h.data
  length := h.length
  offset := by rw [h.offset_add hk, h.offset]; rfl
  length_lt := h.length_lt

end SendRequest.Holds

/-- A state that carries the channel `c`: the history shows its output and its payloads, and the pending
    request holds the payload in its slot. -/
structure Carries (w : World) (c : Channel Byte) : Prop where
  written_eq : written w.history = c.output
  accepted_eq : accepted w.history = c.accepted
  endings_eq : (endings w.history).map Prod.fst = List.range' 1 c.finished.length
  notified_eq : notified w.history = ((endings w.history).filter Prod.snd).map Prod.fst
  callbackSet_eq : callbackSet w.history = w.sendCompleteCallback.isSome
  pending : Option.Rel SendRequest.Holds (pendingRequest w) c.transit
  current : ∀ req, w.currentSendRequest = some req → req.offset ≤ req.length ∧
    req.count = req.length - req.offset
  completing : ∀ fd, w.callback = some (.sendComplete fd) → w.currentSendRequest.isSome

namespace Carries

variable {w w' : World} {c : Channel Byte} {a : Action}

/-- A quiet step leaves what a state carries. -/
theorem of_quiet (h : Carries w c) (hq : Quiet w a w') : Carries w' c := by
  obtain ⟨pre, hpre, hhist⟩ := hq.silent
  have hs := sameSends_append hpre w.history
  rw [← hhist] at hs
  exact
    { written_eq := hs.written.trans h.written_eq
      accepted_eq := hs.accepted.trans h.accepted_eq
      endings_eq := by rw [hs.endings]; exact h.endings_eq
      notified_eq := by rw [hs.notified, hs.endings]; exact h.notified_eq
      callbackSet_eq := by rw [hs.callbackSet, hq.sendCompleteCallback]; exact h.callbackSet_eq
      pending := by rw [hq.pending]; exact h.pending
      current := by rw [hq.request]; exact h.current
      completing := fun fd hfd => by rw [hq.request]; exact h.completing fd ((hq.completing fd).mp hfd) }

/-- Where the loop is about to write, the channel has the payload of the request in its slot. -/
theorem transit_of_writes (h : Carries w c) {ans : EventAnswers} {ev : Event} {rest : List Event}
    {req : SendRequest} (hwr : Writes w a ans ev rest req) :
    ∃ t, c.transit = some t ∧ req.Holds t := by
  have hp := h.pending
  have hpend : pendingRequest w = some req := by
    rw [pendingRequest, hwr.2.1.callback]
    exact hwr.2.2
  rw [hpend] at hp
  cases ht : c.transit with
  | none => rw [ht] at hp; cases hp
  | some t =>
    rw [ht] at hp
    cases hp with
    | some hold => exact ⟨t, rfl, hold⟩

/-- With no request current the slot of the channel is empty. -/
theorem transit_of_idle (h : Carries w c) (hidle : w.currentSendRequest = none) : c.transit = none := by
  have hpend : pendingRequest w = none := by
    rw [pendingRequest]
    split
    · rfl
    · exact hidle
  have hp := h.pending
  rw [hpend] at hp
  cases hc : c.transit with
  | none => rfl
  | some t => rw [hc] at hp; cases hp

/-- An accepted send is accepted by the channel. -/
theorem accept (h : Carries w c) {socket : Fd} {data : List Byte}
    (hidle : w.currentSendRequest = none) (hlen : data.length < sizeMax)
    (hreq : w'.currentSendRequest = some { data := data, length := data.length, offset := 0 })
    (hcb : w'.callback = w.callback) (hset : w'.sendCompleteCallback = w.sendCompleteCallback)
    (hhist : w'.history = .sendReturned socket data 0 :: .ctl .mod socket EPOLLOUT true :: w.history) :
    Carries w' (c.accept data (h.transit_of_idle hidle)) := by
  have hold : SendRequest.Holds ⟨data, data.length, 0⟩ (.start data) := ⟨rfl, rfl, rfl, hlen⟩
  have hcomp : ∀ fd, w'.callback ≠ some (.sendComplete fd) := by
    intro fd hfd
    have hsome := h.completing fd (hcb ▸ hfd)
    rw [hidle] at hsome
    cases hsome
  have hpend : pendingRequest w' = some ⟨data, data.length, 0⟩ := by
    rw [pendingRequest]
    split
    · next fd hfd => exact absurd hfd (hcomp fd)
    · exact hreq
  exact
    { written_eq := by rw [hhist]; exact h.written_eq
      accepted_eq := by
        rw [hhist, Channel.accepted_accept, ← h.accepted_eq]
        rfl
      endings_eq := by rw [hhist]; exact h.endings_eq
      notified_eq := by rw [hhist]; exact h.notified_eq
      callbackSet_eq := by rw [hhist, hset]; exact h.callbackSet_eq
      pending := by rw [hpend]; exact .some hold
      current := fun req hr => by
        obtain rfl := Option.some.inj (hreq.symm.trans hr)
        exact ⟨hold.offset_le, hold.count_eq⟩
      completing := fun fd hfd => absurd hfd (hcomp fd) }

/-- A rejected send changes nothing. -/
theorem reject (h : Carries w c) (socket : Fd) (data : List Byte) :
    Carries (w.log (.sendReturned socket data (-1))) c :=
  { h with }

theorem setCallback (h : Carries w c) (func : Option FuncPtr) (userData : Ptr) :
    Carries { w.log (.setSendComplete func) with
      sendCompleteCallback := func, sendCompleteCallbackUserData := userData } c :=
  { h with callbackSet_eq := rfl }

/-- After the send-complete callback the request it was called for is freed. -/
theorem returned (h : Carries w c) {fd : Fd} (hcb : w.callback = some (.sendComplete fd)) :
    Carries { w with callback := none, currentSendRequest := none } c where
  written_eq := h.written_eq
  accepted_eq := h.accepted_eq
  endings_eq := h.endings_eq
  notified_eq := h.notified_eq
  callbackSet_eq := h.callbackSet_eq
  pending := by
    have hp := h.pending
    have hpend : pendingRequest w = none := by rw [pendingRequest, hcb]
    rw [hpend] at hp
    exact hp
  current _ hr := by cases hr
  completing _ hfd := by cases hfd

section Write

variable {ans : EventAnswers} {ev : Event} {rest : List Event} {req : SendRequest} {t : Transit Byte}

/-- A failed `write` changes nothing. -/
theorem writeFailed (h : Carries w c) (ev : Event) (rest : List Event) (req : SendRequest) :
    Carries { w with
      batch := rest
      history := .perror "write" :: .write ev.fd req.unsent (-1) :: w.history } c := by
  have hne : ¬ (-1 : Int) = req.unsent.length := by omega
  exact
    { h with
      written_eq := by simpa [written] using h.written_eq
      endings_eq := by simpa [endings, hne] using h.endings_eq
      notified_eq := by simpa [endings, notified, hne] using h.notified_eq
      pending := h.pending }

/-- A `write` that leaves some bytes delivers what it accepted. -/
theorem writePartial (h : Carries w c) (hwr : Writes w a ans ev rest req) (ht : c.transit = some t)
    (hold : req.Holds t) {k : Nat} (hk : k ≤ req.count) (hlt : (req.offset + k) % sizeMax < req.length) :
    ∃ hk', Carries { w with
      batch := rest
      currentSendRequest := some { req with offset := (req.offset + k) % sizeMax }
      history := .write ev.fd req.unsent k :: w.history } (c.deliver t ht k hk') := by
  have hk' : k ≤ t.remaining.length := by rw [hold.length_remaining]; exact hk
  have hne : ¬ (k : Int) = req.unsent.length := by
    rw [hold.unsent_eq, hold.length_remaining, hold.count_eq]
    rw [hold.offset_add hk] at hlt
    omega
  have hnext := hold.advance hk hk'
  refine ⟨hk', ?_⟩
  exact
    { written_eq := by simp [written, h.written_eq, hold.unsent_eq, Channel.deliver]
      accepted_eq := by rw [Channel.accepted_deliver]; exact h.accepted_eq
      endings_eq := by simpa [endings, hne] using h.endings_eq
      notified_eq := by simpa [endings, notified, hne] using h.notified_eq
      callbackSet_eq := h.callbackSet_eq
      pending := by
        rw [pendingRequest, hwr.2.1.callback]
        exact .some hnext
      current := fun req' hr => by
        obtain rfl := Option.some.inj hr
        exact ⟨hnext.offset_le, hnext.count_eq⟩
      completing := fun fd hfd => by rw [hwr.2.1.callback] at hfd; cases hfd }

/-- The `write` that accepts the last bytes delivers them and finishes the payload. The observation of it
    is followed by those in `post`: the call of the send-complete callback, if it is set. -/
theorem writeLast (h : Carries w c) (ht : c.transit = some t)
    (hold : req.Holds t) {k : Nat} (hk : k ≤ req.count) (hge : req.length ≤ (req.offset + k) % sizeMax)
    (post : List Obs)
    (hpost : (w.sendCompleteCallback = none ∧ post = []) ∨
      ∃ func userData, w.sendCompleteCallback.isSome ∧
        post = [.sendCompleteCallback func ev.fd userData])
    (hhist : w'.history = post ++ .write ev.fd req.unsent k :: w.history)
    (hset : w'.sendCompleteCallback = w.sendCompleteCallback) (hpend : pendingRequest w' = none)
    (hcur : ∀ req', w'.currentSendRequest = some req' →
      req' = { req with offset := (req.offset + k) % sizeMax })
    (hcomp : ∀ fd, w'.callback = some (.sendComplete fd) → w'.currentSendRequest.isSome) :
    ∃ hk' hfull, Carries w'
      ((c.deliver t ht k hk').finish (t.advance k hk') (Channel.deliver_transit ..) hfull) := by
  have hk' : k ≤ t.remaining.length := by rw [hold.length_remaining]; exact hk
  have hnext := hold.advance hk hk'
  have hfull : (t.advance k hk').offset = (t.advance k hk').payload.length := by
    have h1 := (t.advance k hk').offset_le
    have h2 : (t.advance k hk').offset = (req.offset + k) % sizeMax := hnext.offset.symm
    have h3 : (t.advance k hk').payload.length = req.length := hnext.length.symm
    omega
  have heq : (k : Int) = req.unsent.length := by
    rw [hold.unsent_eq, hold.length_remaining]
    rw [hold.offset_add hk] at hge
    have hcount := hold.count_eq
    omega
  have htake : req.unsent.take k = t.remaining.take k := by rw [hold.unsent_eq]
  have hnum : (accepted w.history).length = c.finished.length + 1 := by
    simp [h.accepted_eq, Channel.accepted, ht]
  have hwritten : written w'.history = c.output ++ t.remaining.take k := by
    rcases hpost with ⟨-, rfl⟩ | ⟨func, userData, -, rfl⟩ <;>
      simp [hhist, written, h.written_eq, htake]
  have haccepted : accepted w'.history = c.accepted := by
    rcases hpost with ⟨-, rfl⟩ | ⟨func, userData, -, rfl⟩ <;>
      simp [hhist, accepted, h.accepted_eq]
  have hcallbackSet : callbackSet w'.history = w.sendCompleteCallback.isSome := by
    rcases hpost with ⟨-, rfl⟩ | ⟨func, userData, -, rfl⟩ <;>
      simp [hhist, callbackSet, h.callbackSet_eq]
  have hendings : endings w'.history =
      endings w.history ++ [(c.finished.length + 1, w.sendCompleteCallback.isSome)] := by
    rcases hpost with ⟨-, rfl⟩ | ⟨func, userData, -, rfl⟩ <;>
      simp [hhist, endings, heq, hnum, h.callbackSet_eq]
  have hnotified : notified w'.history = notified w.history ++
      if w.sendCompleteCallback.isSome then [c.finished.length + 1] else [] := by
    rcases hpost with ⟨hnone, rfl⟩ | ⟨func, userData, hsome, rfl⟩
    · simp [hhist, notified, hnone]
    · simp [hhist, notified, accepted, hsome, hnum]
  refine ⟨hk', hfull, ?_⟩
  exact
    { written_eq := hwritten
      accepted_eq := by rw [Channel.accepted_finish, Channel.accepted_deliver, haccepted]
      endings_eq := by
        have hlen : ((c.deliver t ht k hk').finish (t.advance k hk') (Channel.deliver_transit ..)
            hfull).finished.length = c.finished.length + 1 := by simp [Channel.finish, Channel.deliver]
        rw [hendings, List.map_append, h.endings_eq, hlen, List.range'_1_concat]
        simp [Nat.add_comm]
      notified_eq := by
        rw [hnotified, hendings, h.notified_eq, List.filter_append, List.map_append]
        cases w.sendCompleteCallback <;> simp
      callbackSet_eq := by rw [hcallbackSet, hset]
      pending := by rw [hpend]; exact .none
      current := fun req' hr => by
        rw [hcur req' hr]
        exact ⟨hnext.offset_le, hnext.count_eq⟩
      completing := hcomp }

end Write

/-- A step of a backend that carries a channel is matched by steps of the channel, or exits. -/
theorem step (h : Carries w c) (hs : SendOutcome w a w') :
    w'.exited = true ∨ ∃ c', Relation.ReflTransGen Channel.Step c c' ∧ Carries w' c' := by
  cases hs with
  | quiet hq => exact Or.inr ⟨c, .refl, h.of_quiet hq⟩
  | exit hexit => exact Or.inl hexit
  | rejected socket data ans ha hbusy hw' => exact Or.inr ⟨c, .refl, hw' ▸ h.reject socket data⟩
  | accepted socket data ans ha hidle hlen hreq hcb hset hhist =>
    exact Or.inr ⟨_, .single (.accept c data (h.transit_of_idle hidle)),
      h.accept hidle hlen hreq hcb hset hhist⟩
  | setCallback func userData ha hw' => exact Or.inr ⟨c, .refl, hw' ▸ h.setCallback func userData⟩
  | writeFailed ans ev rest req hwr hret hw' => exact Or.inr ⟨c, .refl, hw' ▸ h.writeFailed ev rest req⟩
  | writePartial ans ev rest req k hwr hret hk hlt hw' =>
    obtain ⟨t, ht, hold⟩ := h.transit_of_writes hwr
    obtain ⟨hk', hc⟩ := h.writePartial hwr ht hold hk hlt
    exact Or.inr ⟨_, .single (.deliver c t ht k hk'), hw' ▸ hc⟩
  | writeFinished ans ev rest req k hwr hret hk hge hfunc hw' =>
    obtain ⟨t, ht, hold⟩ := h.transit_of_writes hwr
    have hcb := hwr.2.1.callback
    have hhist : w'.history = .write ev.fd req.unsent k :: w.history := by rw [hw']
    obtain ⟨hk', hfull, hc⟩ := h.writeLast ht hold hk hge [] (Or.inl ⟨hfunc, rfl⟩) hhist
      (by rw [hw']) (by simp [hw', pendingRequest, hcb]) (by simp [hw']) (by simp [hw', hcb])
    exact Or.inr ⟨_, .tail (.single (.deliver c t ht k hk'))
      (.finish _ _ (Channel.deliver_transit ..) hfull), hc⟩
  | writeCallback ans ev rest req k func hwr hret hk hge hfunc hw' =>
    obtain ⟨t, ht, hold⟩ := h.transit_of_writes hwr
    have hhist : w'.history = .sendCompleteCallback func ev.fd w.sendCompleteCallbackUserData ::
        .write ev.fd req.unsent k :: w.history := by rw [hw']
    obtain ⟨hk', hfull, hc⟩ := h.writeLast ht hold hk hge
      [.sendCompleteCallback func ev.fd w.sendCompleteCallbackUserData]
      (Or.inr ⟨func, w.sendCompleteCallbackUserData, by rw [hfunc]; rfl, rfl⟩) hhist
      (by rw [hw']) (by simp [hw', pendingRequest]) (by simp [hw']) (by simp [hw'])
    exact Or.inr ⟨_, .tail (.single (.deliver c t ht k hk'))
      (.finish _ _ (Channel.deliver_transit ..) hfull), hc⟩
  | returned fd hcb hno hw' => exact Or.inr ⟨c, .refl, hw' ▸ h.returned hcb⟩

/-- The state after `proactor_tcp_epoll_init` carries the empty channel. -/
theorem of_started {K : KernelRules} (h : Started K w) : Carries w .empty := by
  obtain ⟨k, e, rd, wr, -, rfl⟩ := h.eq_started
  exact
    { written_eq := rfl
      accepted_eq := rfl
      endings_eq := rfl
      notified_eq := rfl
      callbackSet_eq := rfl
      pending := .none
      current := nofun
      completing := nofun }

/-- The accepted payloads that are not pending any more are those that left the slot. -/
theorem completed_eq (h : Carries w c) : completed w = c.finished := by
  have hp := h.pending
  rw [completed, h.accepted_eq, Channel.accepted]
  generalize pendingRequest w = pending, c.transit = transit at hp
  cases hp with
  | none => simp
  | some hold => simp

theorem pendingWritten_eq (h : Carries w c) : pendingWritten w = c.transit.elim [] Transit.delivered := by
  have hp := h.pending
  rw [pendingWritten]
  generalize pendingRequest w = pending, c.transit = transit at hp
  cases hp with
  | none => rfl
  | some hold => simp [Transit.delivered, hold.data, hold.offset]

/-- The pending request is the last one that was accepted. -/
theorem getLast_accepted (h : Carries w c) {req : SendRequest} (hpend : pendingRequest w = some req) :
    (accepted w.history).getLast? = some req.data := by
  have hp := h.pending
  rw [hpend] at hp
  rw [h.accepted_eq, Channel.accepted]
  generalize c.transit = transit at hp
  cases hp with
  | some hold => simp [hold.data]

end Carries

/-- What the application may rely on about its sends in a state `w`. -/
structure SendIntegrity (K : KernelRules) (w : World) : Prop where
  /-- The size passed to `write` never underflows. -/
  offset_le : ∀ req, w.currentSendRequest = some req →
    req.offset ≤ req.length ∧ req.count = req.length - req.offset
  /-- The bytes that `write` took are the payloads of the completed sends, in the order in which the sends
      were accepted, and then what the pending send has written. -/
  written_eq : written w.history = (completed w).flatten ++ pendingWritten w
  pending_last : ∀ req, pendingRequest w = some req → (accepted w.history).getLast? = some req.data
  /-- Each completed send, and no other, was ended by one `write`. -/
  endings_eq : (endings w.history).map Prod.fst = List.range' 1 (completed w).length
  /-- The send-complete callback was called once for each completed send at whose end it was set. -/
  notified_eq : notified w.history = ((endings w.history).filter Prod.snd).map Prod.fst
  /-- A send returns -1 when there is a current request, and 0 otherwise. -/
  send_returns : ∀ socket data ans w', (machine K).step w (.send socket data ans) = some w' →
    w'.exited = false → ∃ ret, w'.history.head? = some (.sendReturned socket data ret) ∧
      (ret = -1 ↔ w.currentSendRequest.isSome) ∧ (ret = 0 ↔ w.currentSendRequest = none)

section Run

variable {K : KernelRules} {w₀ w : World} {as : List Action}

/-- The simulation of a step: the steps of the machine are matched by steps of the channel until the
    process exits. -/
theorem step_carries {s s' : World} {a : Action} {c : Channel Byte}
    (hs : s.exited = true ∨ Carries s c) (ha : (machine K).step s a = some s') :
    ∃ c', Relation.ReflTransGen Channel.Step c c' ∧ (s'.exited = true ∨ Carries s' c') := by
  have hout := step_sendOutcome ha
  rcases hs with hs | hs
  · rw [(step_outcome ha).1] at hs
    cases hs
  · rcases hs.step hout with hexit | ⟨c', hc, hs'⟩
    · exact ⟨c, .refl, Or.inl hexit⟩
    · exact ⟨c', hc, Or.inr hs'⟩

/-- Every state that does not follow an exit carries a channel. -/
theorem run_carries (hstart : Started K w₀) (hrun : (machine K).run w₀ as = some w) :
    ∃ c, Relation.ReflTransGen Channel.Step .empty c ∧ (w.exited = true ∨ Carries w c) :=
  Machine.run_simulates (fun _ _ _ _ hs ha => step_carries hs ha)
    (Or.inr (Carries.of_started hstart)) hrun

/-- What a send returns, in any state. -/
theorem send_answers {w w' : World} {socket : Fd} {data : List Byte} {ans : SendAnswers}
    (h : (machine K).step w (.send socket data ans) = some w') (hexit : w'.exited = false) :
    ∃ ret, w'.history.head? = some (.sendReturned socket data ret) ∧
      (ret = -1 ↔ w.currentSendRequest.isSome) ∧ (ret = 0 ↔ w.currentSendRequest = none) := by
  have hstep : step K w (.send socket data ans) = some w' := h
  have hout := (step_outcome hstep).2
  cases hout with
  | sendRejected socket data ans hbusy =>
    refine ⟨-1, rfl, by simp [hbusy], ?_⟩
    cases hreq : w.currentSendRequest with
    | none => rw [hreq] at hbusy; cases hbusy
    | some req => simp
  | sendAccepted socket data ans hidle hlen hmalloc hctl => exact ⟨0, rfl, by simp [hidle], by simp [hidle]⟩
  | exit a w' hcan hexit' hsilent => rw [hexit'] at hexit; cases hexit

/-- Along every run the bytes that `write` takes are those of the accepted sends, in order, with nothing
    lost or repeated, whatever the results of `write` are and whenever sends are made. -/
theorem send_byte_stream (hstart : Started K w₀) (hrun : (machine K).run w₀ as = some w)
    (hexit : w.exited = false) : SendIntegrity K w := by
  obtain ⟨c, -, hex | hw⟩ := run_carries hstart hrun
  · rw [hexit] at hex
    cases hex
  · exact
      { offset_le := hw.current
        written_eq := by rw [hw.written_eq, c.output_eq, hw.completed_eq, hw.pendingWritten_eq]
        pending_last := fun req hreq => hw.getLast_accepted hreq
        endings_eq := by rw [hw.endings_eq, hw.completed_eq]
        notified_eq := hw.notified_eq
        send_returns := fun socket data ans w' h hw' => send_answers h hw' }

/-- A connection to which three bytes are sent in two writes, and then an empty payload. -/
def twoSends : List Action :=
  [.connect "127.0.0.1" 502 ⟨6, true, true⟩, .setSendCompleteCallback (some 1) 0, .send 6 [1, 2, 3] {}, .run,
    .wait (.events [⟨6, EPOLLOUT⟩]), .event { write := 2 }, .wait (.events [⟨6, EPOLLOUT⟩]),
    .event { write := 1 }, .callbackReturn true, .send 6 [] {}]

theorem send_byte_stream_twoSends : ∃ w, (machine documented).run stdioStart twoSends = some w ∧
    written w.history = [1, 2, 3] ∧ notified w.history = [1] ∧ SendIntegrity documented w := by
  have hsome : ((machine documented).run stdioStart twoSends).isSome = true := rfl
  have hrun := (Option.some_get hsome).symm
  exact ⟨_, hrun, rfl, rfl, send_byte_stream stdioStart_documented hrun rfl⟩

end Run

end TagSim.Epoll
