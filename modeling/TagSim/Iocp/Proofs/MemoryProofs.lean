import TagSim.Iocp.Proofs.FrameProofs
import TagSim.Iocp.Proofs.TrafficProofs

/-!
# The memory of the operations

Each send and each receive allocates an `IO_OPERATION`. Nothing calls `handle_send_complete`, the only function
that frees one: what is in flight is therefore always allocated, and nothing is ever given back.
-/

namespace TagSim.Iocp

/-- The operations that are allocated. -/
noncomputable def liveOperations (w : World) : Nat := Set.ncard {a | w.heap a ≠ none}

/-- An operation is allocated for a send, or for the receive that a packet starts. -/
def allocates (w : World) (act : Action) : Nat :=
  match act, w.kernel.queue with
  | .send _ _ ans, _ => if ans.malloc.isSome then 1 else 0
  | .dequeue _ io, p :: _ => if p.startsReceive w && io.malloc.isSome then 1 else 0
  | _, _ => 0

/-- The operation is pending, or a packet reports it. -/
def InFlight (k : Kernel) (a : Addr) : Prop :=
  k.pending a ≠ none ∨ ∃ p ∈ k.queue, p.overlapped = some a ∧ p.result ≠ .other

variable {w₀ w w' : World} {act : Action} {as : List Action}

/-- The number of allocated operations grows by the allocations. -/
theorem Allocates.live {given : Bool} (hfin : {a | w.heap a ≠ none}.Finite) (h : Allocates given w w') :
    liveOperations w' = liveOperations w + (if given then 1 else 0) ∧ {a | w'.heap a ≠ none}.Finite := by
  cases h with
  | nothing hgiven hheap =>
    rw [liveOperations, liveOperations, hheap, hgiven]
    exact ⟨rfl, hfin⟩
  | one a op hgiven hfresh hheap =>
    have hnew : a ∉ {a | w.heap a ≠ none} := by simp [hfresh]
    rw [liveOperations, liveOperations, hheap, hgiven, support_update_some, Set.ncard_insert_of_notMem hnew hfin]
    exact ⟨rfl, hfin.insert a⟩

/-- A packet allocates the operation of the receive that it starts. -/
theorem packet_allocates {p : Packet} {accept : AcceptAnswers} {io : IoAnswers}
    (h : handlePacket p accept io w = some w') : Allocates (p.startsReceive w && io.malloc.isSome) w w' := by
  rcases packet_cases h with ⟨hstarts, rfl⟩ | ⟨hstarts, hdata⟩ | ⟨hstarts, rfl⟩
  · rw [hstarts]
    exact .nothing rfl (acceptEvent_traffic ..).heap
  · rw [hstarts, Bool.true_and]
    exact (dataEvent_framed hdata).2
  · rw [hstarts]
    exact .nothing rfl rfl

/-- The kernel writes to the buffer of an operation that is allocated. -/
theorem ioCompletes_live {a : Addr} {result : Finished} (h : ioCompletes a result w = some w') :
    {a | w'.heap a ≠ none} = {a | w.heap a ≠ none} := by
  obtain ⟨-, -, op, op', hop, hheap⟩ := ioCompletes_framed h
  have hmem : a ∈ {a | w.heap a ≠ none} := by simp [hop]
  rw [hheap]
  exact (support_update_some w.heap a op').trans (Set.insert_eq_of_mem hmem)

/-- A step changes the number of allocated operations by what it allocates. -/
theorem step_live (hfin : {a | w.heap a ≠ none}.Finite) (h : machine.step w act = some w') :
    liveOperations w' = liveOperations w + allocates w act ∧ {a | w'.heap a ≠ none}.Finite := by
  have hsame : allocates w act = 0 → w'.heap = w.heap →
      liveOperations w' = liveOperations w + allocates w act ∧ {a | w'.heap a ≠ none}.Finite := by
    intro hnone hheap
    rw [hnone, liveOperations, liveOperations, hheap]
    exact ⟨rfl, hfin⟩
  cases step_way h with
  | startServer port ans => exact hsame rfl (startServer_traffic port ans w).heap
  | connect address port ans => exact hsame rfl (connect_traffic address port ans w).heap
  | send socket data ans hsend => exact (send_framed hsend).2.live hfin
  | wake | stop | setReceiveCallback func userData | setSendCompleteCallback func userData
    | setAcceptCallback func userData | arrive key overlapped | run | test | dequeueFails => exact hsame rfl rfl
  | dequeue accept io p rest hloop hqueue hhandle =>
    have hlive := Allocates.live (w := w.take p rest) hfin (packet_allocates hhandle)
    have hcost : allocates w (.dequeue accept io) = if p.startsReceive w && io.malloc.isSome then 1 else 0 := by
      simp only [allocates, hqueue]
    rw [hcost]
    exact hlive
  | complete a result hcomplete =>
    have heq := ioCompletes_live hcomplete
    rw [liveOperations, liveOperations, heq]
    exact ⟨rfl, hfin⟩

/-- What is in flight is allocated. -/
def FlightLive (w : World) : Prop := ∀ a, InFlight w.kernel a → w.heap a ≠ none

/-- What is in flight after an operation at `a` has been posted. -/
theorem inFlight_post {k k' : Kernel} {socket : Socket} {a a' : Addr} {kind : OpKind} {answer : IoAnswer}
    (h : k.post socket a kind answer = some k') (hflight : InFlight k' a') : InFlight k a' ∨ a' = a := by
  obtain ⟨-, hpending, honce, hlater⟩ := Kernel.post_spec h
  rcases hflight with hp | ⟨p, hp, hop, hresult⟩
  · exact (hpending a' hp).imp_left Or.inl
  · cases answer with
    | atOnce result =>
      obtain ⟨-, -, key, -, hqueue⟩ := honce result rfl
      rw [hqueue, List.mem_append, List.mem_singleton] at hp
      rcases hp with hp | rfl
      · exact Or.inl (Or.inr ⟨p, hp, hop, hresult⟩)
      · exact Or.inr (Option.some.inj hop).symm
    | pending | failed =>
      rw [hlater nofun] at hp
      exact Or.inl (Or.inr ⟨p, hp, hop, hresult⟩)

theorem FlightLive.posts (hlive : FlightLive w) {socket : Socket} {a : Addr} {kind : OpKind} {answer : IoAnswer}
    {op : IoOperation} (h : w.kernel.post socket a kind answer = some w'.kernel)
    (hheap : w'.heap = Function.update w.heap a (some op)) : FlightLive w' := by
  intro a' hflight
  rw [hheap]
  by_cases heq : a' = a
  · rw [heq, Function.update_self]
    exact Option.some_ne_none op
  · rw [Function.update_of_ne heq]
    exact hlive a' ((inFlight_post h hflight).resolve_right heq)

theorem FlightLive.effect (hlive : FlightLive w) (h : Effect w w') : FlightLive w' := by
  cases h with
  | quiet hheap hqueue hpending hkeys hhist =>
    intro a hflight
    rw [InFlight, hpending, hqueue] at hflight
    rw [hheap]
    exact hlive a hflight
  | receives socket a answer hfresh hpost hheap hhist => exact hlive.posts hpost hheap
  | sends socket data a answer hfresh hpost hheap hhist => exact hlive.posts hpost hheap
  | completes a result op hop hcomplete hheap hhist =>
    obtain ⟨buffer, hheap⟩ := hheap
    obtain ⟨socket, kind, key, hposted, -, -, hkernel⟩ := Kernel.complete_cases hcomplete
    intro a' hflight
    rw [hheap]
    by_cases heq : a' = a
    · rw [heq, Function.update_self]
      exact Option.some_ne_none _
    · rw [Function.update_of_ne heq]
      rw [hkernel] at hflight
      rcases hflight with hp | ⟨p, hp, hp', hresult⟩
      · refine hlive a' (Or.inl ?_)
        simpa [heq] using hp
      · simp only [Kernel.enqueue, List.mem_append, List.mem_singleton] at hp
        rcases hp with hp | rfl
        · exact hlive a' (Or.inr ⟨p, hp, hp', hresult⟩)
        · exact absurd (Option.some.inj hp').symm heq
  | arrives key overlapped hkernel hheap hhist =>
    intro a hflight
    rw [hkernel] at hflight
    rw [hheap]
    rcases hflight with hp | ⟨p, hp, hp', hresult⟩
    · exact hlive a (Or.inl hp)
    · simp only [Kernel.enqueue, List.mem_append, List.mem_singleton] at hp
      rcases hp with hp | rfl
      · exact hlive a (Or.inr ⟨p, hp, hp', hresult⟩)
      · exact absurd rfl hresult

theorem FlightLive.step (hlive : FlightLive w) (h : machine.step w act = some w') : FlightLive w' := by
  cases step_outcome h with
  | calls hact heffect => exact hlive.effect heffect
  | dequeues p rest accept io hact hloop hqueue hhandle heffect =>
    have htake : FlightLive (w.take p rest) := by
      intro a hflight
      refine hlive a (hflight.imp_right ?_)
      rintro ⟨q, hq, hop⟩
      exact ⟨q, by rw [hqueue]; exact List.mem_cons_of_mem _ hq, hop⟩
    exact htake.effect heffect

/-- No operation in flight is ever freed, and neither is any other: all that a run has allocated is still
    allocated. -/
theorem operations_never_freed (hrun : machine.run {} as = some w) :
    liveOperations w = machine.total allocates {} as ∧ ∀ a, InFlight w.kernel a → w.heap a ≠ none := by
  have hempty : {a | (World.heap {}) a ≠ none} = ∅ := by simp
  have hfin : {a | (World.heap {}) a ≠ none}.Finite := by
    rw [hempty]
    exact Set.finite_empty
  have hlive : FlightLive {} := by
    rintro a (hp | ⟨p, hp, -⟩)
    · exact absurd rfl hp
    · cases hp
  have hcount := Machine.balance_eq (I := fun v => {a | v.heap a ≠ none}.Finite) (B := liveOperations)
    (fun _ _ _ hv h => (step_live hv h).2) (fun _ _ _ hv h => (step_live hv h).1) hfin hrun
  have hzero : liveOperations {} = 0 := by rw [liveOperations, hempty, Set.ncard_empty]
  rw [hzero, Nat.zero_add] at hcount
  exact ⟨hcount, Machine.run_preserves (fun _ _ _ hv h => FlightLive.step hv h) hlive hrun⟩

/-- A send and the receive that its packet starts leave two operations behind. -/
theorem operations_never_freed_sendAndReceive : ∃ w, machine.run {} sendAndReceive = some w ∧
    machine.total allocates {} sendAndReceive = 2 ∧
    liveOperations w = machine.total allocates {} sendAndReceive ∧
    ∀ a, InFlight w.kernel a → w.heap a ≠ none := by
  have hsome : (machine.run {} sendAndReceive).isSome = true := rfl
  have hrun := (Option.some_get hsome).symm
  exact ⟨_, hrun, rfl, operations_never_freed hrun⟩

end TagSim.Iocp
