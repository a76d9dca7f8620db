import Mathlib.Data.List.Nodup
import TagSim.Kevent.History
import TagSim.Kevent.Proofs.DisposeProofs

/-!
# The close callback

`process_read_ready` calls the close callback at the end of a stream and leaves the socket as it was, on
the list and in the kernel queue, and `proactor_net_dispose` calls it for every socket on the list. So the
close callback of a socket is the last one, and called once, exactly when its stream does not end.
-/

namespace TagSim.Kevent

open TagSim.Memory

/-- A TCP client socket. -/
def TcpClient (w : World) (a : Addr) : Prop := ∃ sock, w.heap a = some sock ∧ sock.socketType = .tcpClient

/-- The event loop is about to call `recvfrom` on a socket with a receive and a close callback, and it
    will return 0. -/
def EndsStream (w : World) (act : Action) (a : Addr) : Prop :=
  ∃ sock func buf message, Receives w act a sock func buf message ∧ sock.closeCb.isSome ∧
    message.take buf.dataLength = []

section Histories

variable {a b : Addr} {w : World} {h h' : List Obs} {o : Obs}

theorem Obs.Closes.calls (ho : o.Closes a) : o.Calls a := by
  cases o with
  | closeCb func a' => exact ho
  | _ => exact ho.elim

theorem Obs.Neutral.not_calls (ho : o.Neutral) : ¬ o.Calls a := by
  cases o <;> first | exact ho.elim | exact id

theorem Obs.OfTick.not_closes (ho : o.OfTick) : ¬ o.Closes a := by
  cases o <;> first | exact ho.elim | exact id

/-- A socket that was not closed may be called in any order. -/
theorem closedOnce_of_not_closes (hnot : ∀ o ∈ h, ¬ o.Closes a) : ClosedOnce a h :=
  List.pairwise_of_forall_mem_list fun _ _ o' ho' hcalls => hnot o' ho' hcalls.2

theorem closedOnce_append : ClosedOnce a (h' ++ h) ↔ ClosedOnce a h' ∧ ClosedOnce a h ∧
    ∀ later ∈ h', ∀ earlier ∈ h, ¬ (later.Calls a ∧ earlier.Closes a) :=
  List.pairwise_append

theorem finalObs_not_calls (ho : o ∈ finalObs w) : ¬ o.Calls a := by
  unfold finalObs at ho
  split_ifs at ho
  · simp only [List.mem_cons, List.not_mem_nil, or_false] at ho
    rcases ho with rfl | rfl | rfl
    all_goals exact id
  · rw [List.mem_singleton.mp ho]
    exact id

/-- What `proactor_net_dispose` does to a socket calls no callback of another one. -/
theorem eq_of_disposeObs (ho : o ∈ disposeObs w b) (hcalls : o.Calls a) : b = a := by
  unfold disposeObs closeObs at ho
  cases hheap : w.heap b with
  | none => simp [hheap] at ho
  | some sock =>
    cases hcb : sock.closeCb with
    | none =>
      simp only [hheap, hcb, Option.map_none, Option.toList_none, List.mem_singleton] at ho
      rw [ho] at hcalls
      exact hcalls.elim
    | some func =>
      simp only [hheap, hcb, Option.map_some, Option.toList_some, List.mem_cons, List.not_mem_nil,
        or_false] at ho
      rcases ho with rfl | rfl
      · exact hcalls.elim
      · exact hcalls

theorem closedOnce_disposeObs : ClosedOnce a (disposeObs w b) := by
  unfold ClosedOnce disposeObs closeObs
  cases hheap : w.heap b with
  | none => simp
  | some sock => cases hcb : sock.closeCb <;> simp [hcb, Obs.Calls]

/-- The sockets of a list without repetitions are each closed once. -/
theorem closedOnce_flatMap {l : List Addr} (hl : l.Nodup) :
    ClosedOnce a (l.reverse.flatMap (disposeObs w)) := by
  refine List.pairwise_flatMap.mpr ⟨fun b _ => closedOnce_disposeObs, ?_⟩
  refine (List.nodup_reverse.mpr hl).imp fun {b c} hne later hlater earlier hearlier hboth => ?_
  apply hne
  rw [eq_of_disposeObs hlater hboth.1, eq_of_disposeObs hearlier hboth.2.calls]

end Histories

variable {w₀ w w' : World} {act : Action} {as : List Action} {a : Addr} {l : List Addr} {fuel : Nat}
  {ret : Int}

/-- The close callback is called exactly where a stream ends. -/
theorem closes_step (h : Outcome w act w') :
    (∃ o ∈ w'.history, o.Closes a) ↔ (∃ o ∈ w.history, o.Closes a) ∨ EndsStream w act a := by
  cases h with
  | quiet hsame hheap hhist hacc hrec =>
    obtain ⟨pre, hpre, hhist⟩ := hhist
    have hno : ¬ EndsStream w act a := by
      rintro ⟨sock, func, buf, message, h, -⟩
      exact hrec _ _ _ _ _ h
    have hquiet : ¬ ∃ o ∈ pre, o.Closes a := by
      rintro ⟨o, ho, hcl⟩
      exact (hpre o ho).not_calls hcl.calls
    simp only [hhist, List.mem_append, or_and_right, exists_or]
    simp only [hquiet, hno, false_or, or_false]
  | accepted b c server func ans hev hsame hfresh hheap hhist =>
    have hno : ¬ EndsStream w act a := by
      rintro ⟨sock, func', buf, message, ⟨⟨accept, read, hread, -⟩, htype, -⟩, -⟩
      obtain ⟨read', hev'⟩ := hev.event
      obtain ⟨-, -, -, rfl⟩ := hread.unique hev'
      rw [hev.type] at htype
      simp at htype
    simp [hhist, hno, Obs.Closes]
  | received b sock func buf message addr got hrec hgot hholds hsame hheap hhist =>
    have hno : ¬ EndsStream w act a := by
      rintro ⟨sock', func', buf', message', hrec', -, hnil⟩
      obtain ⟨-, -, -, rfl, rfl⟩ := hrec.unique hrec'
      exact hgot hnil
    simp [hhist, hno, Obs.Closes]
  | ended b sock func buf message addr hrec hgot hsame hheap hhist =>
    have hends : EndsStream w act a ↔ a = b ∧ sock.closeCb.isSome := by
      constructor
      · rintro ⟨sock', func', buf', message', hrec', hcb, -⟩
        obtain ⟨rfl, rfl, -⟩ := hrec.unique hrec'
        exact ⟨rfl, hcb⟩
      · rintro ⟨rfl, hcb⟩
        exact ⟨sock, func, buf, message, hrec, hcb, hgot⟩
    rw [hends, hhist, closeObs]
    cases hcb : sock.closeCb with
    | none => simp [Obs.Closes]
    | some func' => simp [Obs.Closes, or_comm, eq_comm]
  | ticked start fuel hact hsame hheap hhist =>
    obtain ⟨pre, hpre, hhist⟩ := hhist
    have hno : ¬ EndsStream w act a := by
      rintro ⟨sock, func, buf, message, ⟨⟨accept, read, hev, -⟩, -⟩, -⟩
      cases hact.symm.trans hev.action
    have hquiet : ¬ ∃ o ∈ pre, o.Closes a := by
      rintro ⟨o, ho, hcl⟩
      exact (hpre o ho).not_closes hcl
    simp only [hhist, List.mem_append, or_and_right, exists_or]
    simp only [hquiet, hno, false_or, or_false]

/-- A socket that was closed is allocated and has a close callback. -/
def ClosedHaveCallback (w : World) : Prop :=
  ∀ a, (∃ o ∈ w.history, o.Closes a) → ∃ sock, w.heap a = some sock ∧ sock.closeCb.isSome

theorem ClosedHaveCallback.step (h : ClosedHaveCallback w) (hs : Outcome w act w') :
    ClosedHaveCallback w' := by
  intro a ha
  obtain ⟨sock, hheap, hcb⟩ : ∃ sock, w.heap a = some sock ∧ sock.closeCb.isSome := by
    rcases (closes_step hs).mp ha with hold | ⟨sock, func, buf, message, hrec, hcb, -⟩
    · exact h a hold
    · obtain ⟨accept, read, hev, -⟩ := hrec.event
      exact ⟨sock, hev.heap, hcb⟩
  obtain ⟨sock', hheap', hshape⟩ := hs.keeps.heap a sock hheap
  refine ⟨sock', hheap', ?_⟩
  show sock'.shape.closeCb.isSome
  rw [hshape]
  exact hcb

/-- After `proactor_net_dispose` a listed socket has been closed once exactly when it had not been closed
    before. -/
theorem closedOnce_dispose (hl : Linked w.next w.sockets l) (ha : a ∈ l) (hcb : ClosedHaveCallback w)
    (hdispose : proactorNetDispose ret fuel w = some w') :
    ClosedOnce a w'.history ↔ ¬ ∃ o ∈ w.history, o.Closes a := by
  obtain ⟨mid, hmid, hhist⟩ := dispose_history hl hdispose
  rw [hhist, closedOnce_append, closedOnce_append, closedOnce_append]
  constructor
  · rintro ⟨-, ⟨-, -, hlater⟩, -⟩ ⟨o, ho, hcloses⟩
    obtain ⟨sock, hheap, hsome⟩ := hcb a ⟨o, ho, hcloses⟩
    obtain ⟨func, hfunc⟩ := Option.isSome_iff_exists.mp hsome
    have hlast : Obs.closeCb func a sock.status sock.sockData ∈ l.reverse.flatMap (disposeObs w) :=
      List.mem_flatMap.mpr ⟨a, List.mem_reverse.mpr ha, by simp [disposeObs, closeObs, hheap, hfunc]⟩
    exact hlater _ hlast o (List.mem_append_right _ ho) ⟨rfl, hcloses⟩
  · intro hnot
    have hold : ∀ o ∈ mid ++ w.history, ¬ o.Closes a := by
      intro o ho hcloses
      rcases List.mem_append.mp ho with ho | ho
      · exact (hmid o ho).not_calls hcloses.calls
      · exact hnot ⟨o, ho, hcloses⟩
    have hfinal : ∀ o ∈ finalObs w, ¬ o.Calls a := fun o => finalObs_not_calls
    refine ⟨closedOnce_of_not_closes fun o ho hcloses => hfinal o ho hcloses.calls,
      ⟨closedOnce_flatMap hl.nodup, ?_, ?_⟩, ?_⟩
    · exact closedOnce_append.mp (closedOnce_of_not_closes hold)
    · exact fun later _ earlier hearlier hboth => hold earlier hearlier hboth.2
    · exact fun later hlater earlier _ hboth => hfinal later hlater hboth.1

section Run

/-- After a run and `proactor_net_dispose` each TCP client socket on the list has been closed once, and
    none of its callbacks was called afterwards, exactly when the stream of none of them ended. -/
theorem closedOnce_iff_no_endsStream (hl : Linked w₀.next w₀.sockets l) (hstart : w₀.history = [])
    (hrun : machine.run w₀ as = some w) (hdispose : proactorNetDispose ret fuel w = some w') :
    (∀ a ∈ l, TcpClient w₀ a → ClosedOnce a w'.history) ↔
      machine.AllSteps (fun v act => ∀ a ∈ l, TcpClient w₀ a → ¬ EndsStream v act a) w₀ as := by
  have hinv : ∀ s act s', Keeps w₀ s ∧ ClosedHaveCallback s → machine.step s act = some s' →
      Keeps w₀ s' ∧ ClosedHaveCallback s' := by
    rintro s act s' ⟨hkeeps, hcb⟩ hact
    exact ⟨hkeeps.trans (step_keeps hact), hcb.step (step_outcome hact)⟩
  have hinit : Keeps w₀ w₀ ∧ ClosedHaveCallback w₀ := by
    refine ⟨.refl w₀, ?_⟩
    rintro a ⟨o, ho, -⟩
    rw [hstart] at ho
    cases ho
  obtain ⟨hkeeps, hcb⟩ := Machine.run_preserves hinv hinit hrun
  have hstep : ∀ s act s', Keeps w₀ s ∧ ClosedHaveCallback s → machine.step s act = some s' →
      ((∀ a ∈ l, TcpClient w₀ a → ¬ ∃ o ∈ s'.history, o.Closes a) ↔
        (∀ a ∈ l, TcpClient w₀ a → ¬ ∃ o ∈ s.history, o.Closes a) ∧
          ∀ a ∈ l, TcpClient w₀ a → ¬ EndsStream s act a) := by
    intro s act s' _ hact
    simp only [closes_step (step_outcome hact), not_or]
    exact ⟨fun h => ⟨fun a ha ht => (h a ha ht).1, fun a ha ht => (h a ha ht).2⟩,
      fun h a ha ht => ⟨h.1 a ha ht, h.2 a ha ht⟩⟩
  have hnone : ∀ a ∈ l, TcpClient w₀ a → ¬ ∃ o ∈ w₀.history, o.Closes a := by
    intro a _ _
    simp [hstart]
  have hlw : Linked w.next w.sockets l := by
    rw [hkeeps.proactor.sockets]
    exact hkeeps.linked hl
  rw [← (Machine.run_iff_allSteps hinv hstep hinit hrun).trans (and_iff_right hnone)]
  refine forall_congr' fun a => forall_congr' fun ha => forall_congr' fun _ => ?_
  exact closedOnce_dispose hlw ha hcb hdispose

/-- A proactor with one TCP client socket. -/
def clientWorld : World :=
  { kq := 3
    wakeupFds := (4, 5)
    sockets := some 1
    heap := Function.update (fun _ => none) 1 (some
      { sock := 6, socketType := .tcpClient, proactor := true, receiveCb := some 1, closeCb := some 2,
        buffer := some { data := [0, 0, 0, 0], dataLength := 4 } })
    registered := fun fd filter => if fd = 6 ∧ filter = .read then some (some 1) else none }

/-- `proactor_net_run` with one pass for each read; the proactor is stopped at the end. -/
def streamRun (ms : List (List Byte)) : List Action :=
  .run :: ms.flatMap (fun m =>
    [.wait (.events [⟨6, .read, some 1⟩]), .event {} { message := some m }, .tick none 0]) ++
    [.stop 1, .wait .interrupted]

theorem clientWorld_linked : Linked clientWorld.next clientWorld.sockets [1] := ⟨rfl, none, rfl, rfl⟩

theorem streamRun_no_endsStream : ∃ w w', machine.run clientWorld (streamRun [[1, 2], [3]]) = some w ∧
    proactorNetDispose 1 1 w = some w' ∧ machine.AllSteps
      (fun v act => ∀ a ∈ [1], TcpClient clientWorld a → ¬ EndsStream v act a) clientWorld
      (streamRun [[1, 2], [3]]) := by
  have hsome : (machine.run clientWorld (streamRun [[1, 2], [3]])).isSome = true := rfl
  have hrun := (Option.some_get hsome).symm
  have hsome' : (proactorNetDispose 1 1 ((machine.run clientWorld (streamRun [[1, 2], [3]])).get hsome)).isSome
      = true := rfl
  have hdispose := (Option.some_get hsome').symm
  have honce : ClosedOnce 1 [.closed 3, .closed 5, .closed 4, .closed 6, .closeCb 2 1 .ok 0, .wakeWrite 5 1,
      .wakeWrite 5 1, .receiveCb 1 1 [] ⟨⟨[3, 2, 0, 0], 1⟩, none⟩ .ok 0 0, .recvfrom 1 [3],
      .receiveCb 1 1 [] ⟨⟨[1, 2, 0, 0], 2⟩, none⟩ .ok 0 0, .recvfrom 1 [1, 2]] := by
    simp [ClosedOnce, Obs.Calls, Obs.Closes]
  refine ⟨_, _, hrun, hdispose, ?_⟩
  refine (closedOnce_iff_no_endsStream clientWorld_linked rfl hrun hdispose).mp fun a ha _ => ?_
  rw [List.mem_singleton.mp ha]
  exact honce

/-- The stream of a client socket ends, and the proactor is disposed of: the close callback is called
    twice. -/
theorem streamEnd_closedTwice : ¬ ∀ w₀ as w ret fuel w' l, Linked w₀.next w₀.sockets l →
    w₀.history = [] → machine.run w₀ as = some w → proactorNetDispose ret fuel w = some w' →
    ∀ a ∈ l, TcpClient w₀ a → ClosedOnce a w'.history := by
  intro h
  have hsome : (machine.run clientWorld (streamRun [[]])).isSome = true := rfl
  have hrun := (Option.some_get hsome).symm
  have hsome' : (proactorNetDispose 1 1 ((machine.run clientWorld (streamRun [[]])).get hsome)).isSome
      = true := rfl
  have hdispose := (Option.some_get hsome').symm
  have hclient : TcpClient clientWorld 1 := ⟨_, rfl, rfl⟩
  have honce : ClosedOnce 1 [.closed 3, .closed 5, .closed 4, .closed 6, .closeCb 2 1 .ok 0, .wakeWrite 5 1,
      .wakeWrite 5 1, .closeCb 2 1 .ok 0, .recvfrom 1 []] :=
    h _ _ _ _ _ _ _ clientWorld_linked rfl hrun hdispose 1 (List.mem_singleton.mpr rfl) hclient
  simp [ClosedOnce, Obs.Calls, Obs.Closes] at honce

end Run

end TagSim.Kevent
