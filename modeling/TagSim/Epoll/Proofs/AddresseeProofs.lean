import TagSim.Epoll.Proofs.SendStreamProofs
import TagSim.Runs.Proofs.SilentProofs

/-!
# Where the bytes of a send go

The request slot does not record the descriptor that a send was addressed to: `handle_write_event` writes
to the descriptor of whatever event comes next. A run delivers every send to its addressee exactly when
all its write-ready events happen to be those of the addressee, `DirectedWrite`.
-/

namespace TagSim.Epoll

open TagSim.Transfer

/-- A write-ready event that finds a send pending is one of the connection the send was addressed to,
    which has not been closed since. An empty payload has no bytes to go astray, only the call of the
    send-complete callback. -/
def DirectedWrite (w : World) (a : Action) : Prop :=
  ∀ ans ev rest req, Writes w a ans ev rest req →
    (req.unsent ≠ [] → destination w.history = some ev.fd ∧ destinationClosed w.history = false) ∧
    (ans.write = req.count → w.sendCompleteCallback.isSome → destination w.history = some ev.fd)

variable {K : KernelRules} {w₀ w w' : World} {a : Action} {as : List Action} {c : Channel Byte}

theorem directedWrite_of_not_writes (hno : ∀ ans ev rest req, ¬ Writes w a ans ev rest req) :
    DirectedWrite w a :=
  fun ans ev rest req h => absurd h (hno ans ev rest req)

/-- There is one event, one answer and one request to look at when the loop is about to write. -/
theorem directedWrite_iff {ans : EventAnswers} {ev : Event} {rest : List Event} {req : SendRequest}
    (hwr : Writes w a ans ev rest req) : DirectedWrite w a ↔
      (req.unsent ≠ [] → destination w.history = some ev.fd ∧ destinationClosed w.history = false) ∧
      (ans.write = req.count → w.sendCompleteCallback.isSome → destination w.history = some ev.fd) := by
  constructor
  · intro h
    exact h ans ev rest req hwr
  · rintro h ans' ev' rest' req' ⟨ha', hev', hreq'⟩
    obtain ⟨ha, hev, hreq⟩ := hwr
    obtain rfl : ans = ans' := Action.event.inj (ha.symm.trans ha')
    obtain ⟨rfl, -, -⟩ := hev.unique hev'
    obtain rfl := Option.some.inj (hreq.symm.trans hreq')
    exact h

theorem Obs.Silent.addressed {o : Obs} (ho : o.Silent) (h : List Obs) : o.Addressed h := by
  cases o <;> first | exact ho.elim | trivial

theorem addressed_append {pre : List Obs} (hpre : ∀ o ∈ pre, o.Silent) (h : List Obs) :
    Addressed (pre ++ h) ↔ Addressed h := by
  refine iff_of_eq (append_silent (fun o h ho => ?_) hpre h)
  rw [Addressed]
  exact propext (and_iff_right (ho.addressed h))

/-- A `write` that does not end the send adds its own observation only. -/
theorem addressed_write {ans : EventAnswers} {ev : Event} {rest : List Event} {req : SendRequest}
    (hwr : Writes w a ans ev rest req) (hne : ans.write ≠ req.count ∨ w.sendCompleteCallback = none)
    (ret : Int) :
    Addressed (.write ev.fd req.unsent ret :: w.history) ↔ Addressed w.history ∧ DirectedWrite w a := by
  rw [directedWrite_iff hwr, Addressed, Obs.Addressed, and_comm]
  refine and_congr_right fun _ => ?_
  constructor
  · intro h
    refine ⟨h, fun hret hsome => ?_⟩
    rcases hne with hne | hnone
    · exact absurd hret hne
    · rw [hnone] at hsome
      cases hsome
  · intro h
    exact h.1

/-- A step keeps every send on its way to its addressee exactly when it satisfies `DirectedWrite`. -/
theorem addressed_step (hc : Carries w c) (hs : SendOutcome w a w') :
    Addressed w'.history ↔ Addressed w.history ∧ DirectedWrite w a := by
  cases hs with
  | quiet hq =>
    obtain ⟨pre, hpre, hhist⟩ := hq.silent
    rw [hhist, addressed_append hpre]
    exact (and_iff_left (directedWrite_of_not_writes hq.not_writes)).symm
  | exit hexit hno hsilent =>
    obtain ⟨pre, hpre, hhist⟩ := hsilent
    rw [hhist, addressed_append hpre]
    exact (and_iff_left (directedWrite_of_not_writes hno)).symm
  | rejected socket data ans ha hbusy hw' =>
    have hno : ∀ ans ev rest req, ¬ Writes w a ans ev rest req := not_writes_of_ne (by rw [ha]; nofun)
    rw [hw', and_iff_left (directedWrite_of_not_writes hno)]
    exact and_iff_right trivial
  | accepted socket data ans ha hidle hlen hreq hcb hset hhist =>
    rw [hhist, and_iff_left (directedWrite_of_not_writes (not_writes_of_idle hidle))]
    exact (and_iff_right trivial).trans (and_iff_right trivial)
  | setCallback func userData ha hw' =>
    have hno : ∀ ans ev rest req, ¬ Writes w a ans ev rest req := not_writes_of_ne (by rw [ha]; nofun)
    rw [hw', and_iff_left (directedWrite_of_not_writes hno)]
    exact and_iff_right trivial
  | writeFailed ans ev rest req hwr hret hw' =>
    have hne : ans.write ≠ req.count := by omega
    rw [hw']
    exact (and_iff_right trivial).trans (addressed_write hwr (Or.inl hne) (-1))
  | writePartial ans ev rest req k hwr hret hk hlt hw' =>
    obtain ⟨t, -, hold⟩ := hc.transit_of_writes hwr
    have hne : ans.write ≠ req.count := by
      rw [hold.offset_add hk] at hlt
      have hcount := hold.count_eq
      omega
    rw [hw']
    exact addressed_write hwr (Or.inl hne) k
  | writeFinished ans ev rest req k hwr hret hk hge hfunc hw' =>
    rw [hw']
    exact addressed_write hwr (Or.inr hfunc) k
  | writeCallback ans ev rest req k func hwr hret hk hge hfunc hw' =>
    obtain ⟨t, -, hold⟩ := hc.transit_of_writes hwr
    have hfull : ans.write = req.count := by
      rw [hold.offset_add hk] at hge
      have hcount := hold.count_eq
      omega
    have hsome : w.sendCompleteCallback.isSome := by rw [hfunc]; rfl
    rw [hw', directedWrite_iff hwr]
    -- the callback is called after the write, with the same send as the last one accepted
    show (destination w.history = some ev.fd ∧ (req.unsent ≠ [] → _ ∧ _) ∧ Addressed w.history) ↔ _
    constructor
    · rintro ⟨hdest, hbytes, hw⟩
      exact ⟨hw, hbytes, fun _ _ => hdest⟩
    · rintro ⟨hw, hbytes, hdest⟩
      exact ⟨hdest hfull hsome, hbytes, hw⟩
  | returned fd hcb hno hw' =>
    rw [hw']
    exact (and_iff_left (directedWrite_of_not_writes hno)).symm

/-- Every send of a run reaches its addressee, and nobody else, exactly when all the steps of the run
    satisfy `DirectedWrite`. -/
theorem addressed_iff_directedWrite (hstart : Started K w₀) (hrun : (machine K).run w₀ as = some w) :
    Addressed w.history ↔ (machine K).AllSteps DirectedWrite w₀ as := by
  have hcarries : w₀.exited = true ∨ ∃ c, Carries w₀ c := Or.inr ⟨_, .of_started hstart⟩
  have hJ : ∀ s a s', (s.exited = true ∨ ∃ c, Carries s c) → (machine K).step s a = some s' →
      s'.exited = true ∨ ∃ c, Carries s' c := by
    rintro s a s' (hs | ⟨c, hs⟩) ha
    · obtain ⟨c', -, hs'⟩ := step_carries (Or.inl hs : _ ∨ Carries s .empty) ha
      exact hs'.imp_right fun h => ⟨c', h⟩
    · obtain ⟨c', -, hs'⟩ := step_carries (Or.inr hs) ha
      exact hs'.imp_right fun h => ⟨c', h⟩
  have hP : ∀ s a s', (s.exited = true ∨ ∃ c, Carries s c) → (machine K).step s a = some s' →
      (Addressed s'.history ↔ Addressed s.history ∧ DirectedWrite s a) := by
    rintro s a s' (hs | ⟨c, hs⟩) ha
    · have hstep : step K s a = some s' := ha
      rw [(step_outcome hstep).1] at hs
      cases hs
    · exact addressed_step hs (step_sendOutcome ha)
  have hnil : Addressed w₀.history := by
    obtain ⟨k, e, rd, wr, -, rfl⟩ := hstart.eq_started
    exact ⟨trivial, trivial, trivial, trivial, trivial⟩
  rw [Machine.run_iff_allSteps hJ hP hcarries hrun]
  exact and_iff_right hnil

theorem twoSends_directedWrite : (machine documented).AllSteps DirectedWrite stdioStart twoSends := by
  have hsome : ((machine documented).run stdioStart twoSends).isSome = true := rfl
  rw [← addressed_iff_directedWrite stdioStart_documented (Option.some_get hsome).symm]
  exact ⟨trivial, trivial, rfl, fun _ => ⟨rfl, rfl⟩, fun _ => ⟨rfl, rfl⟩, trivial, trivial, trivial, trivial,
    trivial, trivial, trivial, trivial, trivial, trivial, trivial⟩

/-- A send to one of two connections; the other one becomes ready first. -/
def otherReadyFirst : List Action :=
  [.connect "127.0.0.1" 502 ⟨6, true, true⟩, .connect "127.0.0.1" 503 ⟨7, true, true⟩, .send 6 [1] {}, .run,
    .wait (.events [⟨7, EPOLLOUT⟩]), .event { write := 1 }]

theorem otherReadyFirst_misdirected : ¬ ∀ w₀ as w, Started documented w₀ →
    (machine documented).run w₀ as = some w → Addressed w.history := by
  intro h
  have hsome : ((machine documented).run stdioStart otherReadyFirst).isSome = true := rfl
  have hall := h stdioStart otherReadyFirst _ stdioStart_documented (Option.some_get hsome).symm
  have hbytes : SendRequest.unsent { data := [1], length := 1, offset := 0 } ≠ [] := by
    simp [SendRequest.unsent, SendRequest.count, sizeSub, sizeMax]
  have hdest : (some 6 : Option Fd) = some 7 := (hall.1 hbytes).1
  cases hdest

end TagSim.Epoll
