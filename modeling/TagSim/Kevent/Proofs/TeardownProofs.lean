import TagSim.Kevent.History
import TagSim.Kevent.Proofs.CreateProofs
import TagSim.Kevent.Proofs.DisposeProofs

/-!
# Create and dispose pair up

However far `proactor_net_create` came, `proactor_net_dispose` closes what it opened, and every socket
that is on the list by then. A descriptor that was never opened is -1, so that closing it does nothing.
-/

namespace TagSim.Kevent

open TagSim.Memory

/-- The descriptors that `proactor_net_create` opened. -/
def CreateAnswers.opened (ans : CreateAnswers) : List Fd :=
  if ans.kqueue = -1 then []
  else ans.kqueue :: match ans.pipe with
    | none => []
    | some fds => [fds.1, fds.2]

/-- The descriptors of the sockets on a list. -/
def socketFds (w : World) (l : List Addr) : List Fd := l.filterMap fun a => (w.heap a).map ProactorSocket.sock

/-- What `proactor_net_dispose` does, newest first: it wakes the proactor, tells the application, visits the
    sockets in the order of the list, and closes the descriptors of the proactor. -/
def disposeTrace (ret : Int) (w : World) (l : List Addr) : List Obs :=
  finalObs w ++ (l.reverse.flatMap (disposeObs w) ++ (eventDisposeObs w ++ [.wakeWrite w.wakeupFds.2 ret]))

/-- `proactor_net_dispose` has stopped and disposed of a proactor with the sockets `l`. The descriptors
    `opened` and those of the sockets were closed, each as often as it occurs among them and so once where
    they are distinct, and no other descriptor. -/
structure Disposed (ret : Int) (w : World) (l : List Addr) (opened : List Fd) (w' : World) : Prop where
  stop : w'.stop = true
  history : w'.history = disposeTrace ret w l ++ w.history
  freed : ∀ a ∈ l, w'.heap a = none
  others : ∀ a, a ∉ l → w'.heap a = w.heap a
  closed : ∀ d, 0 ≤ d → (closedFds (disposeTrace ret w l)).count d = (opened ++ socketFds w l).count d
  closedOnce : ((opened ++ socketFds w l).filter (0 ≤ ·)).Nodup → ∀ d, 0 ≤ d →
    (closedFds (disposeTrace ret w l)).count d = if d ∈ opened ++ socketFds w l then 1 else 0

variable {v w w' : World} {l : List Addr} {fuel : Nat} {ret : Int} {eventCb : Option FuncPtr} {appData : Ptr}
  {tickPeriodMs : UInt64} {ans : CreateAnswers} {opened : List Fd} {d : Fd}

/-- The last part of `proactor_net_dispose` closes what `proactor_net_create` opened. -/
theorem count_finalObs (hpipe : ∀ fds, ans.pipe = some fds → fds.1 ≠ invalidSocket) (hkq : w.kq = ans.kqueue)
    (hfds : w.wakeupFds = ans.wakeupFds) (hd : 0 ≤ d) :
    (closedFds (finalObs w)).count d = ans.opened.count d := by
  unfold finalObs CreateAnswers.opened
  rw [hkq, hfds, CreateAnswers.wakeupFds]
  by_cases hfail : ans.kqueue = -1
  · have hne : ¬ (-1 : Int) = d := by
      intro heq
      rw [← heq] at hd
      exact absurd hd (by decide)
    simp [hfail, closedFds, Obs.closedFd, hne]
  · cases hp : ans.pipe with
    | none => simp [hfail, closedFds, Obs.closedFd]
    | some fds =>
      rw [if_neg hfail, if_neg hfail, Option.getD_some, if_pos (hpipe fds hp)]
      exact List.Perm.count_eq (List.Perm.cons _ (List.Perm.swap ..)) d

theorem closedFds_disposeObs (w : World) (l : List Addr) :
    closedFds (l.flatMap (disposeObs w)) = socketFds w l := by
  induction l with
  | nil => rfl
  | cons a l ih =>
    have hfirst : closedFds (disposeObs w a) = ((w.heap a).map ProactorSocket.sock).toList := by
      unfold disposeObs closeObs
      cases hheap : w.heap a with
      | none => rfl
      | some sock => cases hcb : sock.closeCb <;> simp [hcb, closedFds, Obs.closedFd]
    unfold closedFds at hfirst
    unfold closedFds socketFds at ih ⊢
    rw [List.flatMap_cons, List.filterMap_append, hfirst, ih, List.filterMap_cons]
    cases w.heap a <;> rfl

/-- The descriptors that `proactor_net_dispose` closes. -/
theorem count_disposeTrace (hfinal : (closedFds (finalObs w)).count d = opened.count d) :
    (closedFds (disposeTrace ret w l)).count d = (opened ++ socketFds w l).count d := by
  have hnone : closedFds (eventDisposeObs w ++ [.wakeWrite w.wakeupFds.2 ret]) = [] := by
    unfold eventDisposeObs
    cases w.eventCb <;> rfl
  unfold disposeTrace
  unfold closedFds at hfinal hnone ⊢
  rw [List.filterMap_append, List.filterMap_append, hnone, List.append_nil, List.count_append, hfinal,
    List.count_append]
  refine congrArg (opened.count d + ·) ?_
  have hsockets := closedFds_disposeObs w l.reverse
  unfold closedFds at hsockets
  rw [hsockets, socketFds, List.filterMap_reverse]
  exact List.count_reverse

section Dispose

/-- A proactor from `proactor_net_create`, with any sockets on its list by now, is disposed of by
    `proactor_net_dispose`. -/
theorem create_dispose (hcreate : proactorNetCreate eventCb appData tickPeriodMs ans = some v)
    (hpipe : ∀ fds, ans.pipe = some fds → fds.1 ≠ invalidSocket)
    (hproactor : w.toProactorT = { v.toProactorT with stop := w.stop, sockets := w.sockets })
    (hl : Linked w.next w.sockets l) :
    ∃ n, ∀ fuel, n ≤ fuel →
      ∃ w', proactorNetDispose ret fuel w = some w' ∧ Disposed ret w l ans.opened w' := by
  have hkq : w.kq = ans.kqueue := by rw [hproactor, create_proactor hcreate]
  have hfds : w.wakeupFds = ans.wakeupFds := by rw [hproactor, create_proactor hcreate]
  have hclosed : ∀ d, 0 ≤ d →
      (closedFds (disposeTrace ret w l)).count d = (ans.opened ++ socketFds w l).count d :=
    fun d hd => count_disposeTrace (count_finalObs hpipe hkq hfds hd)
  refine ⟨l.length, fun fuel hfuel => ⟨_, (proactorNetDispose_eq hl).trans (if_pos hfuel), ?_⟩⟩
  refine ⟨rfl, ?_, fun a ha => if_pos ha, fun a ha => if_neg ha, hclosed, fun hnodup d hd => ?_⟩
  · simp [disposeTrace]
  · rw [hclosed d hd, ← List.count_filter (p := (0 ≤ ·)) (by simpa using hd), List.Nodup.count hnodup]
    simp [hd]

/-- A proactor that was created with two sockets added, the second without a close callback. -/
def populatedWorld : World :=
  { kq := 3
    wakeupFds := (4, 5)
    tickTimeSpec := tickTimeSpec 1000
    eventCb := some 1
    sockets := some 1
    heap := Function.update (Function.update (fun _ => none)
      1 (some { next := some 2, sock := 6, socketType := .tcpClient, closeCb := some 2 }))
      2 (some { sock := 7, socketType := .udp })
    registered := fun fd filter => if fd = 4 ∧ filter = .read then some none else none }

theorem populatedWorld_disposed : ∃ n, ∀ fuel, n ≤ fuel → ∃ w',
    proactorNetDispose 1 fuel populatedWorld = some w' ∧ Disposed 1 populatedWorld [1, 2] [3, 4, 5] w' := by
  have hcreate : proactorNetCreate (some 1) 0 1000 { kqueue := 3, pipe := some (4, 5) } =
      some { populatedWorld with sockets := none, heap := fun _ => none } := rfl
  have hpipe : ∀ fds : Fd × Fd, some (4, 5) = some fds → fds.1 ≠ invalidSocket := by
    intro fds h
    obtain rfl := Option.some.inj h
    decide
  have hl : Linked populatedWorld.next populatedWorld.sockets [1, 2] := ⟨rfl, some 2, rfl, rfl, none, rfl, rfl⟩
  exact create_dispose hcreate hpipe rfl hl

end Dispose

end TagSim.Kevent
