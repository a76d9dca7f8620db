import TagSim.Kevent.Proofs.StepProofs

/-!
# Statuses and failures

No enumerator of `status_t` reaches the values that `status_is_error` tests for: the enumeration counts up from
0. What the functions report is told from `STATUS_OK` instead, apart from an error of `recvfrom`, which is
reported as `STATUS_OK` too.
-/

namespace TagSim.Kevent

/-- A call of `proactor_net_create` fails. -/
def CreateAnswers.Fails (ans : CreateAnswers) : Prop :=
  ans.calloc = false ∨ ans.kqueue = -1 ∨ ans.pipe = none ∨ ans.kevent = false

/-- The accept callback of the listener is missing, or a call of `process_accept_ready` fails. -/
def AcceptFails (w : World) (a : Addr) (ans : AcceptAnswers) : Prop :=
  ∃ server, w.heap a = some server ∧ (server.acceptCb = none ∨ ans.calloc = none ∨ ans.accept < 0)

/-- The receive callback of the socket is missing, or the `recvfrom` of `process_read_ready` fails. -/
def ReadFails (w : World) (a : Addr) (ans : ReadAnswers) : Prop :=
  ∃ sock, w.heap a = some sock ∧ (sock.receiveCb = none ∨ ans.message = none)

/-- A call that reports a status, with the results of the calls it makes. -/
inductive StatusCall where
  | create (eventCb : Option FuncPtr) (appData : Ptr) (tickPeriodMs : UInt64) (ans : CreateAnswers)
  | acceptReady (w : World) (a : Addr) (ans : AcceptAnswers)
  | readReady (w : World) (a : Addr) (ans : ReadAnswers)

/-- The status obtained; that of `proactor_net_create` is read back with `proactor_net_get_status`. -/
def StatusCall.status : StatusCall → Option Status
  | .create eventCb appData tickPeriodMs ans =>
    some (proactorNetGetStatus (proactorNetCreate eventCb appData tickPeriodMs ans))
  | .acceptReady w a ans => (processAcceptReady a ans w).map Prod.fst
  | .readReady w a ans => (processReadReady a ans w).map Prod.fst

/-- A call on the path taken fails, or a required callback is missing. -/
def StatusCall.Fails : StatusCall → Prop
  | .create _ _ _ ans => ans.Fails
  | .acceptReady w a ans => AcceptFails w a ans
  | .readReady w a ans => ReadFails w a ans

/-- When the status is `STATUS_OK`. An error of `recvfrom` makes no difference, and `accept` must not return 0. -/
def StatusCall.ReportsOk : StatusCall → Prop
  | .create _ _ _ ans => ¬ ans.Fails
  | .acceptReady w a ans => ¬ AcceptFails w a ans ∧ ans.accept ≠ 0
  | .readReady w a _ => ∃ sock, w.heap a = some sock ∧ sock.receiveCb ≠ none

/-- A status is an error exactly where something failed. -/
def ErrorReported (status : Status) (failed : Prop) : Prop := statusIsError status = true ↔ failed

variable {w w' : World} {a : Addr} {rc : Status}

/-- No status is an error. -/
theorem statusIsError_eq_false (status : Status) : statusIsError status = false := by
  cases status <;> rfl

theorem errorReported_iff {failed : Prop} (status : Status) : ErrorReported status failed ↔ ¬ failed := by
  unfold ErrorReported
  rw [statusIsError_eq_false]
  constructor
  · intro h hfailed
    exact Bool.false_ne_true (h.mpr hfailed)
  · intro hnot
    exact ⟨fun h => absurd h Bool.false_ne_true, fun hfailed => absurd hfailed hnot⟩

/-- The status of a proactor that has been created is `STATUS_OK` exactly when no call failed. -/
theorem create_ok_iff (eventCb : Option FuncPtr) (appData : Ptr) (tickPeriodMs : UInt64) (ans : CreateAnswers) :
    proactorNetGetStatus (proactorNetCreate eventCb appData tickPeriodMs ans) = .ok ↔ ¬ ans.Fails := by
  unfold proactorNetCreate CreateAnswers.Fails
  cases hcalloc : ans.calloc with
  | false => simp [proactorNetGetStatus]
  | true =>
    by_cases hkqueue : ans.kqueue = -1
    · simp [hkqueue, proactorNetGetStatus]
    · cases hpipe : ans.pipe with
      | none => simp [hkqueue, proactorNetGetStatus]
      | some fds => cases hkevent : ans.kevent <;> simp [hkqueue, proactorNetGetStatus]

/-- `process_accept_ready` reports `STATUS_OK` exactly when there is a callback and `accept` returns a positive
    number. -/
theorem acceptReady_ok_iff {ans : AcceptAnswers} (h : processAcceptReady a ans w = some (rc, w')) :
    rc = .ok ↔ ¬ AcceptFails w a ans ∧ ans.accept ≠ 0 := by
  obtain ⟨server, hheap, hway⟩ := acceptReady_cases h
  have hfails : AcceptFails w a ans ↔ server.acceptCb = none ∨ ans.calloc = none ∨ ans.accept < 0 := by
    simp [AcceptFails, hheap]
  rw [hfails]
  cases hway with
  | noCallback hfunc hrc => simp [hrc, hfunc]
  | noMemory func _ hcalloc hrc => simp [hrc, hcalloc]
  | accepted func c hfunc hcalloc _ hrc =>
    rw [hrc, hfunc, hcalloc]
    by_cases hpos : ans.accept > 0
    · rw [if_pos hpos]
      have hnot : ¬ ans.accept < 0 := Int.not_lt.mpr (Int.le_of_lt hpos)
      simp [hnot, Int.ne_of_gt hpos]
    · rw [if_neg hpos]
      have hcases : ans.accept < 0 ∨ ans.accept = 0 := Int.lt_or_eq_of_le (Int.not_lt.mp hpos)
      rcases hcases with hneg | hzero
      · simp [hneg]
      · simp [hzero]

/-- `process_read_ready` reports `STATUS_OK` exactly when there is a callback. -/
theorem readReady_ok_iff {ans : ReadAnswers} (h : processReadReady a ans w = some (rc, w')) :
    rc = .ok ↔ ∃ sock, w.heap a = some sock ∧ sock.receiveCb ≠ none := by
  obtain ⟨sock, hheap, hway⟩ := readReady_cases h
  have hcallback : (∃ sock, w.heap a = some sock ∧ sock.receiveCb ≠ none) ↔ sock.receiveCb ≠ none := by
    simp [hheap]
  rw [hcallback]
  cases hway with
  | noCallback hfunc hrc => simp [hrc, hfunc]
  | failed func buf hfunc _ _ hrc => simp [hrc, hfunc]
  | received func buf message got hfunc _ _ _ _ hrc | ended func buf message hfunc _ _ _ hrc => simp [hrc, hfunc]

/-- What the functions report. -/
theorem status_ok_iff {call : StatusCall} (hstatus : call.status = some rc) : rc = .ok ↔ call.ReportsOk := by
  cases call with
  | create eventCb appData tickPeriodMs ans =>
    obtain rfl := Option.some.inj hstatus
    exact create_ok_iff eventCb appData tickPeriodMs ans
  | acceptReady w a ans =>
    obtain ⟨⟨rc, w'⟩, hready, rfl⟩ := Option.map_eq_some_iff.mp hstatus
    exact acceptReady_ok_iff hready
  | readReady w a ans =>
    obtain ⟨⟨rc, w'⟩, hready, rfl⟩ := Option.map_eq_some_iff.mp hstatus
    exact readReady_ok_iff hready

/-- For every outcome of the calls made, the status tells what the functions report from `STATUS_OK`, but it is an
    error exactly where something failed if and only if nothing failed. -/
theorem failures_reported_iff {call : StatusCall} (hstatus : call.status = some rc) :
    (rc = .ok ↔ call.ReportsOk) ∧ (ErrorReported rc call.Fails ↔ ¬ call.Fails) :=
  ⟨status_ok_iff hstatus, errorReported_iff rc⟩

/-- A socket with a listener. -/
def acceptorWorld : World where
  kq := 3
  wakeupFds := (4, 5)
  heap := fun a => if a = 1 then some { sock := 6, acceptCb := some 1 } else none
  registered := fun _ _ => none

/-- A connection is accepted, and `STATUS_OK` is no error. -/
theorem accepted_reported : ErrorReported .ok (StatusCall.acceptReady acceptorWorld 1 ⟨some 2, 7, []⟩).Fails := by
  have hstatus : (StatusCall.acceptReady acceptorWorld 1 ⟨some 2, 7, []⟩).status = some .ok := rfl
  have hnot : ¬ AcceptFails acceptorWorld 1 ⟨some 2, 7, []⟩ := by
    rintro ⟨server, hserver, hfails⟩
    obtain rfl := Option.some.inj hserver
    simp at hfails
  exact (failures_reported_iff hstatus).2.mpr hnot

/-- `kqueue` fails, and the status is no error. -/
theorem kqueueFails_not_reported : ¬ ∀ (call : StatusCall) rc, call.status = some rc →
    ErrorReported rc call.Fails := by
  intro h
  have herror : false = true := (h (.create none 0 1000 { kqueue := -1 }) _ rfl).mpr (Or.inr (Or.inl rfl))
  cases herror

end TagSim.Kevent
