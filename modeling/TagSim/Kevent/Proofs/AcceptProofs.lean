import TagSim.Kevent.History
import TagSim.Kevent.Proofs.StepProofs
import TagSim.Runs.Proofs.SilentProofs

/-!
# Accepted connections

`process_accept_ready` reports the structure of a connection to the accept callback and keeps no pointer to
it: the structure is never linked into the list of sockets, so `proactor_net_dispose` does not find it.
Connections are owned by the proactor exactly when there are none.
-/

namespace TagSim.Kevent

open TagSim.Memory

/-- An accepted connection is the proactor's: it was reported once, as a success; its structure is on the
    list of sockets; and `proactor_net_dispose` closes its descriptor once. -/
structure OwnedConnection (w : World) (c : Addr) (d : Fd) : Prop where
  reported : acceptReports c w.history = [.ok]
  linked : ∃ l, Linked w.next w.sockets l ∧ c ∈ l
  proactor : ∃ sock, w.heap c = some sock ∧ sock.proactor = true
  closed : ∀ ret fuel w', proactorNetDispose ret fuel w = some w' →
    w'.history.count (.closed d) = w.history.count (.closed d) + 1

/-- The list of sockets is the same. -/
def SameList (w w' : World) : Prop :=
  w'.sockets = w.sockets ∧ ∀ l, Linked w.next w.sockets l → Linked w'.next w'.sockets l

/-- Accepted connections are owned by the proactor; a failed `accept` is reported as a failure and changes
    nothing in the list of sockets. -/
structure ConnectionsOwned (w₀ : World) (as : List Action) (w : World) : Prop where
  owned : ∀ a c d, .accept a c d ∈ w.history → 0 ≤ d → OwnedConnection w c d
  failed : ∀ a c d, .accept a c d ∈ w.history → d < 0 → ∃ s, s ≠ .ok ∧ acceptReports c w.history = [s]
  unchanged : machine.AllSteps (fun v act => ∀ a c server func ans v', Accepts v act a c server func ans →
    ans.accept < 0 → machine.step v act = some v' → SameList v v') w₀ as

/-- Observations that are no `accept` and no call of the accept callback. -/
def Obs.NoAccept : Obs → Prop
  | .accept .. | .acceptCb .. => False
  | _ => True

section Histories

variable {c : Addr} {o : Obs} {pre : List Obs}

theorem Obs.Neutral.noAccept (ho : o.Neutral) : o.NoAccept := by
  cases o <;> first | exact ho.elim | trivial

theorem Obs.OfTick.noAccept (ho : o.OfTick) : o.NoAccept := by
  cases o <;> first | exact ho.elim | trivial

theorem acceptReports_append (hpre : ∀ o ∈ pre, o.NoAccept) (h : List Obs) :
    acceptReports c (pre ++ h) = acceptReports c h := by
  refine append_silent (fun o h ho => ?_) hpre h
  cases o with
  | acceptCb => exact ho.elim
  | _ => rfl

theorem mem_append_noAccept {a : Addr} {d : Fd} (hpre : ∀ o ∈ pre, o.NoAccept) (h : List Obs) :
    .accept a c d ∈ pre ++ h ↔ .accept a c d ∈ h := by
  rw [List.mem_append]
  exact or_iff_right fun hin => hpre _ hin

end Histories

variable {w₀ w w' : World} {act : Action} {as : List Action} {a c : Addr} {l : List Addr}

/-- There is one `accept` to look at. -/
theorem Accepts.unique {a' c' : Addr} {server server' : ProactorSocket} {func func' : FuncPtr}
    {ans ans' : AcceptAnswers} (h : Accepts w act a c server func ans)
    (h' : Accepts w act a' c' server' func' ans') : a = a' ∧ c = c' ∧ ans = ans' := by
  obtain ⟨⟨read, hev⟩, -, -, hcalloc⟩ := h
  obtain ⟨⟨read', hev'⟩, -, -, hcalloc'⟩ := h'
  obtain ⟨rfl, -, rfl, -⟩ := hev.unique hev'
  exact ⟨rfl, Option.some.inj (hcalloc.symm.trans hcalloc'), rfl⟩

/-- A step calls `accept`, for a structure that was not allocated, and reports the result; or it does
    neither. -/
theorem Outcome.accepting (h : Outcome w act w') :
    (∃ a c server func ans, Accepts w act a c server func ans ∧ w.heap c = none ∧ (w'.heap c).isSome ∧
      w'.history = .acceptCb func a c (if ans.accept > 0 then .ok else .internalFailure) server.sockData
        w.appData :: .accept a c ans.accept :: w.history) ∨
    (∀ a c server func ans, ¬ Accepts w act a c server func ans) ∧
      ∃ pre, (∀ o ∈ pre, o.NoAccept) ∧ w'.history = pre ++ w.history := by
  have hread : ∀ {a sock func buf message}, Receives w act a sock func buf message →
      ∀ a c server func ans, ¬ Accepts w act a c server func ans := by
    rintro a sock func buf message hrec a' c server func' ans hacc
    obtain ⟨accept, read, hev, -⟩ := hrec.event
    obtain ⟨read', hev'⟩ := hacc.event
    obtain ⟨-, -, -, rfl⟩ := hev.unique hev'
    have htype := hrec.type
    simp [hacc.type] at htype
  cases h with
  | quiet hsame hheap hhist hacc hrec =>
    obtain ⟨pre, hpre, hhist⟩ := hhist
    exact Or.inr ⟨hacc, pre, fun o ho => (hpre o ho).noAccept, hhist⟩
  | accepted a c server func ans hacc hsame hfresh hheap hhist =>
    refine Or.inl ⟨a, c, server, func, ans, hacc, hfresh, ?_, hhist⟩
    rw [hheap, Function.update_self]
    rfl
  | received a sock func buf message addr got hrec hgot hholds hsame hheap hhist =>
    exact Or.inr ⟨hread hrec, [_, _], by simp [Obs.NoAccept], hhist⟩
  | ended a sock func buf message addr hrec hgot hsame hheap hhist =>
    refine Or.inr ⟨hread hrec, closeObs sock a .ok ++ [.recvfrom a message], ?_, ?_⟩
    · cases hcb : sock.closeCb <;> simp [closeObs, hcb, Obs.NoAccept]
    · rw [hhist, List.append_assoc]
      rfl
  | ticked start fuel hact hsame hheap hhist =>
    obtain ⟨pre, hpre, hhist⟩ := hhist
    refine Or.inr ⟨?_, pre, fun o ho => (hpre o ho).noAccept, hhist⟩
    rintro a c server func ans ⟨⟨read, hev⟩, -⟩
    cases hact.symm.trans hev.action

/-- The invariant of a run from `w₀`: the structures of accepted connections are allocated, were not
    allocated at the start, and were reported once. -/
structure AcceptedOnce (w₀ w : World) : Prop where
  keeps : Keeps w₀ w
  accepted : ∀ a c d, .accept a c d ∈ w.history → w₀.heap c = none ∧ (w.heap c).isSome ∧
    acceptReports c w.history = [if d > 0 then .ok else .internalFailure]
  fresh : ∀ c, w.heap c = none → acceptReports c w.history = []

namespace AcceptedOnce

theorem refl (hstart : w₀.history = []) : AcceptedOnce w₀ w₀ := by
  refine ⟨.refl w₀, fun a c d hin => ?_, fun c _ => ?_⟩
  · rw [hstart] at hin
    cases hin
  · rw [hstart]
    rfl

theorem step (h : AcceptedOnce w₀ w) (hs : Outcome w act w') : AcceptedOnce w₀ w' := by
  have hkeeps := hs.keeps
  have hsome : ∀ c, (w.heap c).isSome → (w'.heap c).isSome := by
    intro c hc
    obtain ⟨sock, hheap⟩ := Option.isSome_iff_exists.mp hc
    obtain ⟨sock', hheap', -⟩ := hkeeps.heap c sock hheap
    rw [hheap']
    rfl
  have hnone : ∀ c, w'.heap c = none → w.heap c = none := by
    intro c hc
    by_contra hne
    have hc' := hsome c (Option.isSome_iff_ne_none.mpr hne)
    rw [hc] at hc'
    cases hc'
  rcases hs.accepting with ⟨a, c, server, func, ans, -, hfresh, halloc, hhist⟩ | ⟨-, pre, hpre, hhist⟩
  · have hreports : ∀ c', acceptReports c' w'.history = if c = c' then acceptReports c' w.history ++
        [if ans.accept > 0 then .ok else .internalFailure] else acceptReports c' w.history := by
      intro c'
      rw [hhist]
      rfl
    have hinit : w₀.heap c = none := by
      by_contra hne
      obtain ⟨sock, hheap⟩ := Option.ne_none_iff_exists'.mp hne
      obtain ⟨sock', hheap', -⟩ := h.keeps.heap c sock hheap
      rw [hfresh] at hheap'
      cases hheap'
    refine ⟨h.keeps.trans hkeeps, fun a' c' d hin => ?_, fun c' hc' => ?_⟩
    · rw [hreports]
      rw [hhist] at hin
      simp only [List.mem_cons, reduceCtorEq, false_or, Obs.accept.injEq] at hin
      rcases hin with ⟨rfl, rfl, rfl⟩ | hin
      · rw [if_pos rfl, h.fresh c' hfresh]
        exact ⟨hinit, halloc, rfl⟩
      · obtain ⟨hinit', halloc', hold⟩ := h.accepted a' c' d hin
        have hne : c ≠ c' := by
          rintro rfl
          rw [hfresh] at halloc'
          cases halloc'
        rw [if_neg hne]
        exact ⟨hinit', hsome c' halloc', hold⟩
    · have hne : c ≠ c' := by
        rintro rfl
        rw [hc'] at halloc
        cases halloc
      rw [hreports, if_neg hne]
      exact h.fresh c' (hnone c' hc')
  · refine ⟨h.keeps.trans hkeeps, fun a' c' d hin => ?_, fun c' hc' => ?_⟩
    · rw [hhist, mem_append_noAccept hpre] at hin
      rw [hhist, acceptReports_append hpre]
      obtain ⟨hinit, halloc, hold⟩ := h.accepted a' c' d hin
      exact ⟨hinit, hsome c' halloc, hold⟩
    · rw [hhist, acceptReports_append hpre]
      exact h.fresh c' (hnone c' hc')

/-- The structure of an accepted connection is not on the list of sockets. -/
theorem not_linked (h : AcceptedOnce w₀ w) (hl : Linked w₀.next w₀.sockets l) {d : Fd}
    (hin : .accept a c d ∈ w.history) : ¬ ∃ l', Linked w.next w.sockets l' ∧ c ∈ l' := by
  rintro ⟨l', hl', hc⟩
  have hlw : Linked w.next w.sockets l := by
    rw [h.keeps.proactor.sockets]
    exact h.keeps.linked hl
  rw [hl'.unique hlw] at hc
  have halloc := hl.allocated hc
  rw [World.next, (h.accepted a c d hin).1] at halloc
  cases halloc

end AcceptedOnce

theorem step_sameList (h : machine.step w act = some w') : SameList w w' := by
  have hkeeps := step_keeps h
  refine ⟨hkeeps.proactor.sockets, fun l hl => ?_⟩
  rw [hkeeps.proactor.sockets]
  exact hkeeps.linked hl

/-- The descriptors returned so far were negative, in a step and before it. -/
theorem negative_step (h : Outcome w act w') : (∀ a c d, .accept a c d ∈ w'.history → d < 0) ↔
    (∀ a c d, .accept a c d ∈ w.history → d < 0) ∧
      ∀ a c server func ans, Accepts w act a c server func ans → ans.accept < 0 := by
  rcases h.accepting with ⟨a, c, server, func, ans, hacc, -, -, hhist⟩ | ⟨hno, pre, hpre, hhist⟩
  · rw [hhist]
    constructor
    · intro hall
      refine ⟨fun a' c' d hin => hall a' c' d (by simp [hin]), fun a' c' server' func' ans' hacc' => ?_⟩
      obtain ⟨rfl, rfl, rfl⟩ := hacc.unique hacc'
      exact hall a c ans.accept (by simp)
    · rintro ⟨hold, hnew⟩ a' c' d hin
      simp only [List.mem_cons, reduceCtorEq, false_or, Obs.accept.injEq] at hin
      rcases hin with ⟨-, -, rfl⟩ | hin
      · exact hnew a c server func ans hacc
      · exact hold a' c' d hin
  · simp only [hhist, mem_append_noAccept hpre]
    exact ⟨fun hall => ⟨hall, fun a c server func ans hacc => (hno _ _ _ _ _ hacc).elim⟩, And.left⟩

section Run

/-- After a run the accepted connections are owned by the proactor, which is then disposed of, exactly when
    every call of `accept` failed. -/
theorem connectionsOwned_iff (hl : Linked w₀.next w₀.sockets l) (hstart : w₀.history = [])
    (hrun : machine.run w₀ as = some w) :
    ConnectionsOwned w₀ as w ↔ machine.AllSteps (fun v act => ∀ a c server func ans,
      Accepts v act a c server func ans → ans.accept < 0) w₀ as := by
  have hinv : ∀ s act s', AcceptedOnce w₀ s → machine.step s act = some s' → AcceptedOnce w₀ s' :=
    fun s act s' hs hact => hs.step (step_outcome hact)
  have honce := Machine.run_preserves hinv (.refl hstart) hrun
  have hnone : ∀ a c d, .accept a c d ∈ w₀.history → d < 0 := by simp [hstart]
  rw [← (Machine.run_iff_allSteps hinv (fun s act s' _ hact => negative_step (step_outcome hact))
    (.refl hstart) hrun).trans (and_iff_right hnone)]
  constructor
  · intro h a c d hin
    by_contra hneg
    exact honce.not_linked hl hin (h.owned a c d hin (Int.not_lt.mp hneg)).linked
  · intro hneg
    refine ⟨fun a c d hin hd => ?_, fun a c d hin hd => ?_, ?_⟩
    · exact absurd (hneg a c d hin) (Int.not_lt.mpr hd)
    · obtain ⟨-, -, hreports⟩ := honce.accepted a c d hin
      have hfail : ¬ d > 0 := Int.not_lt.mpr (Int.le_of_lt hd)
      rw [if_neg hfail] at hreports
      exact ⟨.internalFailure, nofun, hreports⟩
    · apply Machine.allSteps_of_forall
      intro act _ v a c server func ans v' _ _ hact
      exact step_sameList hact

/-- A proactor with one listener. -/
def listenerWorld : World :=
  { kq := 3
    wakeupFds := (4, 5)
    sockets := some 1
    heap := Function.update (fun _ => none) 1 (some
      { sock := 6, socketType := .tcpListener, proactor := true, acceptCb := some 1 })
    registered := fun fd filter => if fd = 6 ∧ filter = .read then some (some 1) else none }

/-- `proactor_net_run` with one pass, in which `accept` returns `d`; the proactor is stopped at the end. -/
def acceptRun (d : Fd) : List Action :=
  [.run, .wait (.events [⟨6, .read, some 1⟩]), .event { calloc := some 2, accept := d } {}, .tick none 0,
    .stop 1, .wait .interrupted]

theorem listenerWorld_linked : Linked listenerWorld.next listenerWorld.sockets [1] := ⟨rfl, none, rfl, rfl⟩

theorem acceptRun_failed : ∃ w, machine.run listenerWorld (acceptRun (-1)) = some w ∧
    ConnectionsOwned listenerWorld (acceptRun (-1)) w := by
  have hsome : (machine.run listenerWorld (acceptRun (-1))).isSome = true := rfl
  have hrun := (Option.some_get hsome).symm
  refine ⟨_, hrun, (connectionsOwned_iff listenerWorld_linked rfl hrun).mpr ?_⟩
  apply Machine.allSteps_of_forall
  rintro act hact v a c server func ans ⟨⟨read, hev⟩, -⟩
  have haction := hev.action
  simp only [acceptRun, List.mem_cons, List.not_mem_nil, or_false] at hact
  rcases hact with rfl | rfl | rfl | rfl | rfl | rfl
  all_goals cases haction
  show (-1 : Int) < 0
  omega

/-- A connection is accepted: `proactor_net_dispose` does not close it. -/
theorem acceptRun_leaked : ¬ ∀ w₀ as w l, Linked w₀.next w₀.sockets l → w₀.history = [] →
    machine.run w₀ as = some w → ConnectionsOwned w₀ as w := by
  intro h
  have hsome : (machine.run listenerWorld (acceptRun 7)).isSome = true := rfl
  have hrun := (Option.some_get hsome).symm
  have howned := h _ _ _ _ listenerWorld_linked rfl hrun
  have hsome' : (proactorNetDispose 1 1 ((machine.run listenerWorld (acceptRun 7)).get hsome)).isSome
      = true := rfl
  have hdispose := (Option.some_get hsome').symm
  have hin : .accept 1 2 7 ∈ ([.wakeWrite 5 1, .acceptCb 1 1 2 .ok 0 0, .accept 1 2 7] : List Obs) := by simp
  have hclosed := (howned.owned 1 2 7 hin (by decide)).closed _ _ _ hdispose
  have hnone : ([.closed 3, .closed 5, .closed 4, .closed 6, .wakeWrite 5 1, .wakeWrite 5 1,
      .acceptCb 1 1 2 .ok 0 0, .accept 1 2 7] : List Obs).count (.closed 7) = 0 := by decide
  exact absurd (hnone.symm.trans hclosed) (Nat.succ_ne_zero _).symm

end Run

end TagSim.Kevent
