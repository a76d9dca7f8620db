import TagSim.Kevent.Proofs.AcceptProofs
import TagSim.Kevent.Proofs.TeardownProofs

/-!
# What a proactor leaves behind

`process_accept_ready` allocates a structure before it calls `accept`, and the proactor never frees it: the event
loop frees no memory and closes no descriptor, and `proactor_net_dispose` finds the sockets of its list only. Unless
the application frees them, what is left afterwards is one structure for each call of `accept`, the calls that failed
included.
-/

namespace TagSim.Kevent

open TagSim.Memory

/-- What is left of a proactor that started as `w₀` with the sockets `l` and that was disposed of in the end, as
    `w'`. The structures that were given to `accept` are distinct and were allocated on the way. They stay allocated,
    as do the sockets that were never on the list, and the descriptors that were closed are those that the proactor
    and its list started with. -/
structure LeavesAccepted (w₀ : World) (l : List Addr) (w' : World) : Prop where
  nodup : (acceptedSockets w'.history).Nodup
  fresh : ∀ a ∈ acceptedSockets w'.history, w₀.heap a = none
  memory : ∀ a, (w'.heap a).isSome ↔ a ∈ acceptedSockets w'.history ∨ (w₀.heap a).isSome ∧ a ∉ l
  closed : closedFds w'.history = closedFds (finalObs w₀) ++ (socketFds w₀ l).reverse

variable {w₀ w w' : World} {act : Action} {as : List Action} {l : List Addr} {fuel : Nat} {ret : Int}

section Histories

variable {o : Obs} {pre : List Obs}

/-- Observations that neither allocate a structure nor close a descriptor. -/
def Obs.Idle (o : Obs) : Prop := o.acceptedSocket = none ∧ o.closedFd = none

theorem Obs.Neutral.idle (ho : o.Neutral) : o.Idle := by
  cases o <;> first | exact ho.elim | exact ⟨rfl, rfl⟩

theorem Obs.OfTick.idle (ho : o.OfTick) : o.Idle := by
  cases o <;> first | exact ho.elim | exact ⟨rfl, rfl⟩

theorem acceptedSockets_append (hpre : ∀ o ∈ pre, o.acceptedSocket = none) (h : List Obs) :
    acceptedSockets (pre ++ h) = acceptedSockets h := by
  unfold acceptedSockets
  rw [List.filterMap_append, List.filterMap_eq_nil_iff.mpr hpre, List.nil_append]

theorem closedFds_append (hpre : ∀ o ∈ pre, o.closedFd = none) (h : List Obs) :
    closedFds (pre ++ h) = closedFds h := by
  unfold closedFds
  rw [List.filterMap_append, List.filterMap_eq_nil_iff.mpr hpre, List.nil_append]

end Histories

section Steps

/-- What a step does with the memory: it allocates a structure and gives it to `accept`, or it leaves allocated what
    was. No descriptor is closed. -/
inductive MemoryStep (w w' : World) : Prop
  | accepted (c : Addr) (hfresh : w.heap c = none)
      (hmemory : ∀ a, (w'.heap a).isSome ↔ a = c ∨ (w.heap a).isSome)
      (haccepted : acceptedSockets w'.history = c :: acceptedSockets w.history)
      (hclosed : closedFds w'.history = closedFds w.history)
  | kept (hmemory : ∀ a, (w'.heap a).isSome ↔ (w.heap a).isSome)
      (haccepted : acceptedSockets w'.history = acceptedSockets w.history)
      (hclosed : closedFds w'.history = closedFds w.history)

/-- A step that allocates nothing. -/
theorem MemoryStep.of_idle (hmemory : ∀ a, (w'.heap a).isSome ↔ (w.heap a).isSome) (pre : List Obs)
    (hpre : ∀ o ∈ pre, o.Idle) (hhist : w'.history = pre ++ w.history) : MemoryStep w w' := by
  refine .kept hmemory ?_ ?_
  · rw [hhist, acceptedSockets_append fun o ho => (hpre o ho).1]
  · rw [hhist, closedFds_append fun o ho => (hpre o ho).2]

/-- A socket that is allocated gets another value. -/
theorem update_allocated {a : Addr} {sock sock' : ProactorSocket} (ha : w.heap a = some sock)
    (hheap : w'.heap = Function.update w.heap a (some sock')) (b : Addr) :
    (w'.heap b).isSome ↔ (w.heap b).isSome := by
  rw [hheap]
  by_cases hb : b = a
  · rw [hb, Function.update_self, ha]
    exact Iff.rfl
  · rw [Function.update_of_ne hb]

theorem Outcome.memoryStep (h : Outcome w act w') : MemoryStep w w' := by
  cases h with
  | quiet hsame hheap hhist hacc hrec =>
    obtain ⟨pre, hpre, hhist⟩ := hhist
    exact .of_idle (fun a => by rw [hheap]) pre (fun o ho => (hpre o ho).idle) hhist
  | accepted a c server func ans hacc hsame hfresh hheap hhist =>
    refine .accepted c hfresh (fun b => ?_) ?_ ?_
    · rw [hheap]
      by_cases hb : b = c
      · simp [hb]
      · rw [Function.update_of_ne hb, or_iff_right hb]
    · rw [hhist]
      rfl
    · rw [hhist]
      rfl
  | received a sock func buf message addr got hrec hgot hholds hsame hheap hhist =>
    obtain ⟨accept, read, hev, -⟩ := hrec.event
    exact .of_idle (update_allocated hev.heap hheap) [_, _] (by simp [Obs.Idle, Obs.acceptedSocket, Obs.closedFd])
      hhist
  | ended a sock func buf message addr hrec hgot hsame hheap hhist =>
    obtain ⟨accept, read, hev, -⟩ := hrec.event
    refine .of_idle (update_allocated hev.heap hheap) (closeObs sock a .ok ++ [.recvfrom a message]) ?_ ?_
    · cases hcb : sock.closeCb <;> simp [closeObs, hcb, Obs.Idle, Obs.acceptedSocket, Obs.closedFd]
    · rw [hhist, List.append_assoc]
      rfl
  | ticked start fuel hact hsame hheap hhist =>
    obtain ⟨pre, hpre, hhist⟩ := hhist
    exact .of_idle (fun a => by rw [hheap]) pre (fun o ho => (hpre o ho).idle) hhist

/-- The invariant of a run from `w₀`: what is allocated was allocated at the start or was given to `accept`, which
    was done once for each structure; no descriptor was closed. -/
structure Accumulates (w₀ w : World) : Prop where
  keeps : Keeps w₀ w
  nodup : (acceptedSockets w.history).Nodup
  fresh : ∀ a ∈ acceptedSockets w.history, w₀.heap a = none
  memory : ∀ a, (w.heap a).isSome ↔ a ∈ acceptedSockets w.history ∨ (w₀.heap a).isSome
  closed : closedFds w.history = []

theorem Accumulates.refl (hstart : w₀.history = []) : Accumulates w₀ w₀ := by
  have hnone : acceptedSockets w₀.history = [] := by
    rw [hstart]
    rfl
  refine ⟨.refl w₀, ?_, ?_, fun a => ?_, ?_⟩
  · rw [hnone]
    exact List.nodup_nil
  · rw [hnone]
    exact fun a ha => absurd ha List.not_mem_nil
  · rw [hnone, or_iff_right List.not_mem_nil]
  · rw [hstart]
    rfl

theorem Accumulates.step (h : Accumulates w₀ w) (hs : Outcome w act w') : Accumulates w₀ w' := by
  have hkeeps := h.keeps.trans hs.keeps
  cases hs.memoryStep with
  | accepted c hfresh hmemory haccepted hclosed =>
    have hno : ¬ (c ∈ acceptedSockets w.history ∨ (w₀.heap c).isSome) := by
      rw [← h.memory c, hfresh]
      exact Bool.false_ne_true
    rw [not_or] at hno
    refine ⟨hkeeps, ?_, ?_, fun a => ?_, hclosed.trans h.closed⟩
    · rw [haccepted]
      exact List.nodup_cons.mpr ⟨hno.1, h.nodup⟩
    · rw [haccepted]
      intro a ha
      rcases List.mem_cons.mp ha with rfl | ha
      · exact Option.not_isSome_iff_eq_none.mp hno.2
      · exact h.fresh a ha
    · rw [hmemory, haccepted, List.mem_cons, or_assoc, h.memory]
  | kept hmemory haccepted hclosed =>
    refine ⟨hkeeps, ?_, ?_, fun a => ?_, hclosed.trans h.closed⟩
    · rw [haccepted]
      exact h.nodup
    · rw [haccepted]
      exact h.fresh
    · rw [hmemory, haccepted, h.memory]

end Steps

section Dispose

/-- The descriptors of the sockets on the list stay the same. -/
theorem Keeps.socketFds (h : Keeps w w') (hl : ∀ a ∈ l, (w.heap a).isSome) :
    Kevent.socketFds w' l = Kevent.socketFds w l := by
  refine List.filterMap_congr fun a ha => ?_
  obtain ⟨sock, hheap⟩ := Option.isSome_iff_exists.mp (hl a ha)
  obtain ⟨sock', hheap', hshape⟩ := h.heap a sock hheap
  have hsock : sock'.sock = sock.sock := by
    show sock'.shape.sock = sock.shape.sock
    rw [hshape]
  rw [hheap, hheap', Option.map_some, Option.map_some, hsock]

theorem Keeps.finalObs (h : Keeps w w') : Kevent.finalObs w' = Kevent.finalObs w := by
  unfold Kevent.finalObs
  rw [h.proactor.kq, h.proactor.wakeupFds]

theorem acceptedSocket_of_finalObs {o : Obs} (ho : o ∈ Kevent.finalObs w) : o.acceptedSocket = none := by
  unfold Kevent.finalObs at ho
  split_ifs at ho
  · simp only [List.mem_cons, List.not_mem_nil, or_false] at ho
    rcases ho with rfl | rfl | rfl <;> rfl
  · rw [List.mem_singleton.mp ho]
    rfl

theorem acceptedSocket_of_disposeObs {o : Obs} {a : Addr} (ho : o ∈ disposeObs w a) : o.acceptedSocket = none := by
  unfold disposeObs at ho
  cases hheap : w.heap a with
  | none =>
    rw [hheap] at ho
    cases ho
  | some sock =>
    rw [hheap] at ho
    rcases List.mem_cons.mp ho with rfl | ho
    · rfl
    · obtain ⟨func, -, rfl⟩ := Option.map_eq_some_iff.mp (Option.mem_toList.mp ho)
      rfl

/-- `proactor_net_dispose` frees what is on the list, calls no `accept`, and closes the descriptors of the proactor
    and of the sockets. -/
theorem dispose_effects (hl : Linked w.next w.sockets l) (h : proactorNetDispose ret fuel w = some w') :
    w'.heap = freeAll w l ∧ acceptedSockets w'.history = acceptedSockets w.history ∧
      closedFds w'.history =
        closedFds (Kevent.finalObs w) ++ ((Kevent.socketFds w l).reverse ++ closedFds w.history) := by
  obtain ⟨mid, hmid, hhist⟩ := dispose_history hl h
  rw [hhist]
  refine ⟨?_, ?_, ?_⟩
  · rw [proactorNetDispose_eq hl] at h
    split_ifs at h
    obtain rfl := Option.some.inj h
    rfl
  · have hsockets : ∀ o ∈ l.reverse.flatMap (disposeObs w), o.acceptedSocket = none := by
      intro o ho
      obtain ⟨a, -, ho⟩ := List.mem_flatMap.mp ho
      exact acceptedSocket_of_disposeObs ho
    rw [acceptedSockets_append fun o ho => acceptedSocket_of_finalObs ho, acceptedSockets_append hsockets,
      acceptedSockets_append fun o ho => (hmid o ho).idle.1]
  · have hsockets : closedFds (l.reverse.flatMap (disposeObs w)) = (Kevent.socketFds w l).reverse := by
      rw [closedFds_disposeObs, Kevent.socketFds, Kevent.socketFds, List.filterMap_reverse]
    have hrest : closedFds (mid ++ w.history) = closedFds w.history :=
      closedFds_append (fun o ho => (hmid o ho).idle.2) _
    unfold closedFds at hsockets hrest ⊢
    rw [List.filterMap_append, List.filterMap_append, hsockets, hrest]

theorem Accumulates.leaves (h : Accumulates w₀ w) (hl : Linked w₀.next w₀.sockets l)
    (hdispose : proactorNetDispose ret fuel w = some w') : LeavesAccepted w₀ l w' := by
  have hlw : Linked w.next w.sockets l := by
    rw [h.keeps.proactor.sockets]
    exact h.keeps.linked hl
  have halloc : ∀ a ∈ l, (w₀.heap a).isSome := by
    intro a ha
    have hsome := hl.allocated ha
    unfold World.next at hsome
    rwa [Option.isSome_map] at hsome
  obtain ⟨hheap, haccepted, hclosed⟩ := dispose_effects hlw hdispose
  refine ⟨?_, ?_, fun a => ?_, ?_⟩
  · rw [haccepted]
    exact h.nodup
  · rw [haccepted]
    exact h.fresh
  · rw [haccepted, hheap]
    unfold freeAll
    by_cases ha : a ∈ l
    · -- what is on the list was there from the start
      have hnot : a ∉ acceptedSockets w.history := by
        intro hin
        have hsome := halloc a ha
        rw [h.fresh a hin] at hsome
        cases hsome
      simp [ha, hnot]
    · rw [if_neg ha, h.memory, and_iff_left ha]
  · rw [hclosed, h.closed, h.keeps.finalObs, h.keeps.socketFds halloc, List.append_nil]

/-- After any run `proactor_net_dispose` frees the sockets that were on the list from the start and leaves those that
    were given to `accept`. -/
theorem accepted_left_behind (hl : Linked w₀.next w₀.sockets l) (hstart : w₀.history = [])
    (hrun : machine.run w₀ as = some w) (hfuel : l.length ≤ fuel) :
    ∃ w', proactorNetDispose ret fuel w = some w' ∧ LeavesAccepted w₀ l w' := by
  have hacc : Accumulates w₀ w := Machine.run_preserves
    (fun s act s' hs hact => hs.step (step_outcome hact)) (.refl hstart) hrun
  have hlw : Linked w.next w.sockets l := by
    rw [hacc.keeps.proactor.sockets]
    exact hacc.keeps.linked hl
  have hdispose : proactorNetDispose ret fuel w = some _ := (proactorNetDispose_eq hlw).trans (if_pos hfuel)
  exact ⟨_, hdispose, hacc.leaves hl hdispose⟩

/-- `proactor_net_run` with two passes: one connection is accepted, and `accept` fails once. -/
def acceptTwiceRun : List Action :=
  [.run, .wait (.events [⟨6, .read, some 1⟩]), .event { calloc := some 2, accept := 7 } {}, .tick none 0,
    .wait (.events [⟨6, .read, some 1⟩]), .event { calloc := some 3 } {}, .tick none 0, .stop 1,
    .wait .interrupted]

/-- Two structures are left, and the descriptor 7 stays open. -/
theorem accepted_left_behind_twice : ∃ w w', machine.run listenerWorld acceptTwiceRun = some w ∧
    proactorNetDispose 1 1 w = some w' ∧ LeavesAccepted listenerWorld [1] w' ∧
    acceptedSockets w.history = [3, 2] ∧ closedFds (finalObs listenerWorld) ++ [6] = [3, 5, 4, 6] := by
  have hsome : (machine.run listenerWorld acceptTwiceRun).isSome = true := rfl
  have hrun := (Option.some_get hsome).symm
  have hleft : ∃ w', proactorNetDispose 1 1 _ = some w' ∧ LeavesAccepted listenerWorld [1] w' :=
    accepted_left_behind listenerWorld_linked rfl hrun (Nat.le_refl 1)
  obtain ⟨w', hdispose, hleaves⟩ := hleft
  exact ⟨_, w', hrun, hdispose, hleaves, rfl, rfl⟩

end Dispose

end TagSim.Kevent
