import TagSim.Kevent.Proactor

/-!
# What `proactor_net_create` returns

Where it returns a proactor, its fields are the arguments and what the calls returned until one failed. A
descriptor that was not opened is -1.
-/

namespace TagSim.Kevent

/-- The ends of the wake pipe in a created proactor. -/
def CreateAnswers.wakeupFds (ans : CreateAnswers) : Fd × Fd :=
  if ans.kqueue = -1 then (invalidSocket, invalidSocket) else ans.pipe.getD (invalidSocket, invalidSocket)

theorem create_proactor {eventCb : Option FuncPtr} {appData : Ptr} {tickPeriodMs : UInt64} {ans : CreateAnswers}
    {v : World} (hcreate : proactorNetCreate eventCb appData tickPeriodMs ans = some v) :
    v.toProactorT =
      { kq := ans.kqueue
        wakeupFds := ans.wakeupFds
        tickTimeSpec := tickTimeSpec tickPeriodMs
        status := v.status
        eventCb := eventCb
        appData := appData } := by
  unfold proactorNetCreate at hcreate
  unfold CreateAnswers.wakeupFds
  split at hcreate
  · cases hcreate
  · split at hcreate
    · next hkqueue =>
      obtain rfl := Option.some.inj hcreate
      rw [if_pos hkqueue]
    · next hkqueue =>
      rw [if_neg hkqueue]
      cases hpipe : ans.pipe with
      | none =>
        simp only [hpipe] at hcreate
        obtain rfl := Option.some.inj hcreate
        rfl
      | some fds =>
        simp only [hpipe] at hcreate
        split at hcreate
        all_goals
          obtain rfl := Option.some.inj hcreate
          rfl

end TagSim.Kevent
