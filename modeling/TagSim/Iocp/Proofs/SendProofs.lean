import TagSim.Iocp.Proofs.ReceiveProofs

/-!
# Completed sends

`proactor_tcp_iocp_run` does not look at the operation that a packet carries, so the packet of a send is
handled like any other: `handle_send_complete` is not called, and the operation is not freed. What should hold
of the sends whose packets were dequeued holds exactly as long as there are none.
-/

namespace TagSim.Iocp

/-- No operation was freed, and the send-complete callback was not called. -/
structure NoCompletion (h : List Obs) : Prop where
  notifications : ∀ s, notifications s h = 0
  freed : ∀ op, h.count (.freed op) = 0

section Histories

variable {o : Obs} {pre : List Obs}

/-- Observations that a call of the application, of the kernel or of a handler makes. -/
def Obs.OfEffect : Obs → Prop
  | .sendCompleteCallback .. | .freed _ | .dequeued _ => False
  | _ => True

theorem Obs.Neutral.ofEffect (ho : o.Neutral) : o.OfEffect := by
  cases o <;> first | exact ho.elim | trivial

theorem ofEffect_append (hpre : ∀ o ∈ pre, o.OfEffect) (h : List Obs) :
    dequeued (pre ++ h) = dequeued h ∧ (∀ s, notifications s (pre ++ h) = notifications s h) ∧
      ∀ op, (pre ++ h).count (.freed op) = h.count (.freed op) := by
  refine ⟨append_silent (fun o h ho => ?_) hpre h, fun s => append_silent (fun o h ho => ?_) hpre h,
    fun op => append_silent (fun o h ho => ?_) hpre h⟩
  · cases o with
    | dequeued => exact ho.elim
    | _ => rfl
  · cases o with
    | sendCompleteCallback => exact ho.elim
    | _ => rfl
  · refine List.count_cons_of_ne ?_
    rintro rfl
    exact ho

theorem receiveObs_ofEffect {w : World} {socket : Socket} {a : Addr} {data : List Byte}
    (ho : o ∈ receiveObs w socket a data) : o.OfEffect := by
  unfold receiveObs at ho
  split_ifs at ho
  · cases hfunc : w.receiveCallback with
    | none => simp [hfunc] at ho
    | some func =>
      simp only [hfunc, Option.map_some, Option.toList_some, List.mem_singleton] at ho
      subst ho
      trivial
  · cases ho

end Histories

variable {w₀ w w' : World} {act : Action} {as : List Action}

/-- Neither a function of the backend nor the kernel completes a send. -/
theorem Effect.ofEffect (he : Effect w w') :
    ∃ pre, (∀ o ∈ pre, o.OfEffect) ∧ w'.history = pre ++ w.history := by
  cases he with
  | quiet hheap hqueue hpending hkeys hhist =>
    obtain ⟨pre, hpre, hhist⟩ := hhist
    exact ⟨pre, fun o ho => (hpre o ho).ofEffect, hhist⟩
  | receives socket a answer hfresh hpost hheap hhist =>
    obtain ⟨pre, hpre, hhist⟩ := hhist
    refine ⟨pre ++ (receiveObs w socket a answer.data ++ [.wsaRecv socket a answer w.receiveCallback]), ?_, ?_⟩
    · intro o ho
      rcases List.mem_append.mp ho with ho | ho
      · exact (hpre o ho).ofEffect
      · rcases List.mem_append.mp ho with ho | ho
        · exact receiveObs_ofEffect ho
        · rw [List.mem_singleton.mp ho]
          trivial
    · rw [hhist]
      simp
  | sends socket data a answer hfresh hpost hheap hhist =>
    obtain ⟨o, ho, hhist⟩ := hhist
    refine ⟨[o, .wsaSend socket a (data.take (data.length % ulongSize)) answer], ?_, hhist⟩
    rcases ho with ⟨rfl, -⟩ | ⟨rfl, -⟩
    all_goals simp [Obs.OfEffect]
  | completes a result op hop hcomplete hheap hhist => exact ⟨[], by simp, hhist⟩
  | arrives key overlapped hkernel hheap hhist => exact ⟨[], by simp, hhist⟩

theorem NoCompletion.effect (h : NoCompletion w.history) (he : Effect w w') : NoCompletion w'.history := by
  obtain ⟨pre, hpre, hhist⟩ := he.ofEffect
  obtain ⟨-, hnot, hfreed⟩ := ofEffect_append hpre w.history
  refine ⟨fun s => ?_, fun op => ?_⟩
  · rw [hhist, hnot, h.notifications]
  · rw [hhist, hfreed, h.freed]

theorem NoCompletion.take (h : NoCompletion w.history) (p : Packet) (rest : List Packet) :
    NoCompletion (w.take p rest).history := by
  refine ⟨h.notifications, fun op => ?_⟩
  have hne : Obs.dequeued p ≠ .freed op := nofun
  show (Obs.dequeued p :: w.history).count (.freed op) = 0
  rw [List.count_cons_of_ne hne, h.freed]

theorem NoCompletion.step (h : NoCompletion w.history) (hs : Outcome w act w') :
    NoCompletion w'.history := by
  cases hs with
  | calls hact heffect => exact h.effect heffect
  | dequeues p rest accept io hact hloop hqueue hhandle heffect => exact (h.take p rest).effect heffect

theorem completedSends_effect (he : Effect w w') :
    completedSends w'.history = completedSends w.history := by
  obtain ⟨pre, hpre, hhist⟩ := he.ofEffect
  rw [completedSends, completedSends, hhist, (ofEffect_append hpre w.history).1]

theorem completedSends_take (p : Packet) (rest : List Packet) :
    completedSends (w.take p rest).history =
      completedSends w.history ++ (p.sendOp.map fun op => (p.key, op)).toList := by
  show (dequeued w.history ++ [p]).filterMap _ = _
  rw [List.filterMap_append, completedSends]
  cases hop : p.sendOp <;> simp [hop]

/-- No send has been completed after a step exactly when none had been before it and the packet taken, if
    one is taken, is not that of a send. -/
theorem completedSends_step (hs : Outcome w act w') :
    completedSends w'.history = [] ↔ completedSends w.history = [] ∧ ¬ TakesSend w act := by
  cases hs with
  | calls hact heffect =>
    have hnot : ¬ TakesSend w act := by
      intro htakes
      unfold TakesSend at htakes
      split at htakes
      · exact hact _ _ rfl
      · exact htakes
    rw [completedSends_effect heffect]
    exact (and_iff_left hnot).symm
  | dequeues p rest accept io hact hloop hqueue hhandle heffect =>
    have htakes : TakesSend w act ↔ p.sendOp.isSome = true := by
      unfold TakesSend
      rw [hact, hqueue]
    rw [completedSends_effect heffect, completedSends_take, List.append_eq_nil_iff, htakes]
    refine and_congr_right fun _ => ?_
    cases p.sendOp <;> simp

section Run

theorem noCompletion_run (hstart : Fresh w₀) (hrun : machine.run w₀ as = some w) :
    NoCompletion w.history := by
  have hfresh : NoCompletion w₀.history := by
    rw [hstart.history]
    exact ⟨fun _ => rfl, fun _ => rfl⟩
  have hstep : ∀ v act v', NoCompletion v.history → machine.step v act = some v' →
      NoCompletion v'.history := fun v act v' hv hact => hv.step (step_outcome hact)
  exact Machine.run_preserves hstep hfresh hrun

/-- No send has been completed in a run exactly when no step takes the packet of a send. -/
theorem completedSends_run (hstart : Fresh w₀) (hrun : machine.run w₀ as = some w) :
    completedSends w.history = [] ↔ machine.AllSteps (fun v act => ¬ TakesSend v act) w₀ as := by
  have hnil : completedSends w₀.history = [] := by
    rw [hstart.history]
    rfl
  have hstep : ∀ v act v', True → machine.step v act = some v' →
      (completedSends v'.history = [] ↔ completedSends v.history = [] ∧ ¬ TakesSend v act) :=
    fun v act v' _ hact => completedSends_step (step_outcome hact)
  have hiff := Machine.run_iff_allSteps (fun _ _ _ _ _ => trivial) hstep trivial hrun
  exact hiff.trans (and_iff_right hnil)

/-- What should hold of the sends of a run once their packets have been dequeued holds exactly when no step
    of it takes the packet of a send. -/
theorem sends_completed_iff (hstart : Fresh w₀) (hrun : machine.run w₀ as = some w) :
    SendsCompleted w₀ as w ↔ machine.AllSteps (fun v act => ¬ TakesSend v act) w₀ as := by
  have hno := noCompletion_run hstart hrun
  have hnil := completedSends_run hstart hrun
  constructor
  · intro h
    refine hnil.mp (List.eq_nil_iff_forall_not_mem.mpr fun c hc => ?_)
    -- its operation should have been freed
    have hpos : 0 < (completedSends w.history).countP fun c' => c'.2 = c.2 :=
      List.countP_pos_iff.mpr ⟨c, hc, by simp⟩
    have hfreed := h.freed c.2
    rw [hno.freed] at hfreed
    omega
  · intro hall
    have hempty := hnil.mpr hall
    refine ⟨?_, ?_, ?_, ?_, ?_, ?_⟩
    · intro _ s
      rw [hempty]
      exact Nat.zero_le _
    · intro s
      rw [hno.notifications]
      exact Nat.zero_le _
    · rw [hempty]
      exact nofun
    · intro op
      rw [hempty]
      exact Nat.zero_le _
    · intro op
      rw [hno.freed]
      exact Nat.zero_le _
    · exact Machine.allSteps_mono (fun v act hnot htakes => absurd htakes hnot) hall

/-- A connection on which a byte is sent; the system takes it at once. -/
def sendQueued : List Action :=
  [.connect "127.0.0.1" 502 ⟨6, true, true⟩, .setSendCompleteCallback (some 1) 0,
    .send 6 [9] ⟨some 16, .atOnce (.sent 1)⟩, .run, .test]

/-- The packet of the send is dequeued. -/
def sendTaken : List Action := sendQueued ++ [.dequeue {} ⟨some 32, .pending⟩]

theorem sendQueued_completed :
    ∃ w, machine.run {} sendQueued = some w ∧ SendsCompleted {} sendQueued w := by
  have hsome : (machine.run {} sendQueued).isSome = true := rfl
  have hrun := (Option.some_get hsome).symm
  have hnone : ∀ act ∈ sendQueued, ∀ v, ¬ TakesSend v act := by
    intro act hact v
    simp only [sendQueued, List.mem_cons, List.not_mem_nil, or_false] at hact
    rcases hact with rfl | rfl | rfl | rfl | rfl
    all_goals exact id
  exact ⟨_, hrun, (sends_completed_iff fresh_start hrun).mpr (Machine.allSteps_of_forall hnone _)⟩

/-- The operation of a send whose packet was dequeued is not freed. -/
theorem sendTaken_not_freed : ¬ ∀ w₀ as w, Fresh w₀ → machine.run w₀ as = some w →
    SendsCompleted w₀ as w := by
  intro h
  have hsome : (machine.run {} sendTaken).isSome = true := rfl
  have hrun := (Option.some_get hsome).symm
  have hfreed : 1 ≤ 0 := (h _ _ _ fresh_start hrun).freed 16
  omega

end Run

end TagSim.Iocp
