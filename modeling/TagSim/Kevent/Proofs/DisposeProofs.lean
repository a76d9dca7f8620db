import TagSim.Kevent.Proofs.StepProofs

/-!
# What `proactor_net_dispose` does

The sockets on the list are reported closed, closed and freed, each once and in order. Freeing one does
not affect the others, since no member of a list occurs in it twice.
-/

namespace TagSim.Kevent

open TagSim.Memory

/-- What `proactor_net_dispose` does to a socket, newest first. -/
def disposeObs (w : World) (a : Addr) : List Obs :=
  match w.heap a with
  | none => []
  | some sock => .closed sock.sock :: closeObs sock a sock.status

/-- What `proactor_net_dispose` does after the sockets, newest first. -/
def finalObs (w : World) : List Obs :=
  .closed w.kq :: if w.wakeupFds.1 ≠ invalidSocket then [.closed w.wakeupFds.2, .closed w.wakeupFds.1] else []

/-- The dispose callback of the proactor, if there is one. -/
def eventDisposeObs (w : World) : List Obs :=
  (w.eventCb.map fun func => .eventCb func .dispose w.status w.appData).toList

/-- The memory without the sockets on a list. -/
def freeAll (w : World) (l : List Addr) : Addr → Option ProactorSocket := fun a => if a ∈ l then none else w.heap a

variable {w w' : World} {p : Option Addr} {l : List Addr} {fuel : Nat} {ret : Int}

theorem freeAll_cons (w : World) (a : Addr) (l : List Addr) :
    freeAll (w.free a) l = freeAll w (a :: l) := by
  funext b
  show (if b ∈ l then none else Function.update w.heap a none b) = if b ∈ a :: l then none else w.heap b
  by_cases hb : b ∈ l
  · rw [if_pos hb, if_pos (List.mem_cons_of_mem a hb)]
  · rw [if_neg hb]
    by_cases hba : b = a
    · rw [hba, if_pos (List.mem_cons_self ..), Function.update_self]
    · rw [if_neg (by simp [hba, hb]), Function.update_of_ne hba]

/-- The `for` loop of `proactor_net_dispose`, which goes through the list `l`. -/
theorem disposeSockets_eq (hl : Linked w.next p l) :
    disposeSockets fuel p w = if l.length ≤ fuel then some { w with
      heap := freeAll w l
      history := l.reverse.flatMap (disposeObs w) ++ w.history } else none := by
  induction l generalizing fuel p w with
  | nil =>
    obtain rfl : p = none := hl
    have hfree : freeAll w [] = w.heap := by
      funext b
      exact if_neg List.not_mem_nil
    cases fuel <;> simp [disposeSockets, hfree]
  | cons a l ih =>
    have hnot : a ∉ l := (List.nodup_cons.mp hl.nodup).1
    obtain ⟨rfl, n, hn, hl⟩ := hl
    cases fuel with
    | zero => rfl
    | succ fuel =>
      cases hheap : w.heap a with
      | none => simp [World.next, hheap] at hn
      | some sock =>
        obtain rfl : sock.next = n := by simpa [World.next, hheap] using hn
        -- the state at the next socket
        let w₁ : World := { w.free a with history := disposeObs w a ++ w.history }
        have hfirst : disposeSockets (fuel + 1) (some a) w = disposeSockets fuel sock.next w₁ := by
          rw [disposeSockets, hheap]
          cases hcb : sock.closeCb <;> simp [w₁, World.log, World.free, disposeObs, closeObs, hheap, hcb]
        have hsame : ∀ b ∈ l, w₁.heap b = w.heap b := by
          intro b hb
          have hne : b ≠ a := by
            rintro rfl
            exact hnot hb
          exact Function.update_of_ne hne ..
        have hl₁ : Linked w₁.next sock.next l := hl.congr fun b hb => by
          unfold World.next
          rw [hsame b hb]
        have hobs : l.reverse.flatMap (disposeObs w₁) = l.reverse.flatMap (disposeObs w) := by
          refine List.flatMap_congr fun b hb => ?_
          unfold disposeObs
          rw [hsame b (List.mem_reverse.mp hb)]
        have hfree : freeAll w₁ l = freeAll w (a :: l) := freeAll_cons w a l
        have hhist : l.reverse.flatMap (disposeObs w) ++ w₁.history =
            (a :: l).reverse.flatMap (disposeObs w) ++ w.history := by
          rw [List.reverse_cons, List.flatMap_append, List.flatMap_singleton, List.append_assoc]
        rw [hfirst, ih hl₁, hobs, hfree, hhist]
        simp only [List.length_cons, Nat.add_le_add_iff_right]
        rfl

/-- `proactor_net_dispose`: first the application is told, then come the sockets, then the descriptors of
    the proactor. -/
theorem proactorNetDispose_eq (hl : Linked w.next w.sockets l) :
    proactorNetDispose ret fuel w = if l.length ≤ fuel then some { w with
      stop := true
      heap := freeAll w l
      history := finalObs w ++ (l.reverse.flatMap (disposeObs w) ++
        (eventDisposeObs w ++ .wakeWrite w.wakeupFds.2 ret :: w.history)) } else none := by
  -- the state at the first socket
  let w₁ : World := { w with
    stop := true
    history := eventDisposeObs w ++ .wakeWrite w.wakeupFds.2 ret :: w.history }
  have hfirst : proactorNetDispose ret fuel w = (disposeSockets fuel w.sockets w₁).map fun v =>
      { v with history := finalObs v ++ v.history } := by
    unfold proactorNetDispose
    refine congrArg₂ Option.map (funext fun v => ?_) ?_
    · by_cases hfds : v.wakeupFds.1 = invalidSocket <;> simp [finalObs, World.log, hfds]
    · cases hcb : w.eventCb <;>
        simp [w₁, proactorNetStop, proactorNetWake, World.log, eventDisposeObs, hcb]
  have hl₁ : Linked w₁.next w.sockets l := hl
  rw [hfirst, disposeSockets_eq hl₁]
  split_ifs <;> rfl

theorem dispose_history (hl : Linked w.next w.sockets l) (h : proactorNetDispose ret fuel w = some w') :
    ∃ mid, (∀ o ∈ mid, o.Neutral) ∧
      w'.history = finalObs w ++ (l.reverse.flatMap (disposeObs w) ++ (mid ++ w.history)) := by
  rw [proactorNetDispose_eq hl] at h
  split_ifs at h
  obtain rfl := Option.some.inj h
  refine ⟨eventDisposeObs w ++ [.wakeWrite w.wakeupFds.2 ret], ?_, ?_⟩
  · intro o ho
    rcases List.mem_append.mp ho with ho | ho
    · obtain ⟨func, -, rfl⟩ := Option.map_eq_some_iff.mp (Option.mem_toList.mp ho)
      trivial
    · rw [List.mem_singleton.mp ho]
      trivial
  · rw [List.append_assoc]
    rfl

end TagSim.Kevent
