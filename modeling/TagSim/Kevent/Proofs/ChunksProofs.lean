import TagSim.Kevent.Proofs.DatagramProofs

/-!
# Proofs: what a buffer holds never grows

The room of a socket is the size that `process_read_ready` passes to `recvfrom`. It becomes the length of what was
received, so that at no call of the receive callback the buffer holds more bytes than at one before it. On a stream
this loses nothing: all the bytes get into the buffer, in pieces that get smaller. The callback is passed the address
of the field `buffer`, and one of the type that the header declares finds none of them.
-/

namespace TagSim.Kevent

variable {w₀ w w' : World} {act : Action} {as : List Action} {a : Addr} {n : Nat}

/-- The size that is passed to `recvfrom` for a socket. -/
def room (a : Addr) (w : World) : Option Nat := (w.heap a).bind fun sock => sock.buffer.map ProactorBuf.dataLength

/-- `recvfrom` takes no more off the socket than there is room for, as it does on a stream. -/
def TakesWhole (a : Addr) (w : World) (act : Action) : Prop :=
  ∀ sock func buf message, Receives w act a sock func buf message → message.length ≤ buf.dataLength

section Steps

/-- What a step does with a socket: nothing, or it takes a message off it and calls the receive callback when the
    buffer holds what there is room for, if that is anything. -/
inductive ChunkOutcome (a : Addr) (w : World) (act : Action) (w' : World) : Prop
  | unrelated (hroom : ∀ k, room a w' = some k → room a w = some k)
      (hmessages : messages a w'.history = messages a w.history)
      (hheld : held a w'.history = held a w.history) (hwhole : TakesWhole a w act)
  | received (message : List Byte) (k : Nat) (hroom : room a w = some k) (hgot : message.take k ≠ [])
      (hroom' : room a w' = some (message.take k).length)
      (hmessages : messages a w'.history = messages a w.history ++ [message])
      (hheld : held a w'.history = held a w.history ++ [message.take k])
      (hwhole : TakesWhole a w act ↔ message.length ≤ k)
  | ended (message : List Byte) (k : Nat) (hgot : message.take k = []) (hroom' : room a w' = room a w)
      (hmessages : messages a w'.history = messages a w.history ++ [message])
      (hheld : held a w'.history = held a w.history)
      (hwhole : TakesWhole a w act ↔ message.length ≤ k)

theorem Receives.room_eq {sock : ProactorSocket} {func : FuncPtr} {buf : ProactorBuf} {message : List Byte}
    (h : Receives w act a sock func buf message) : room a w = some buf.dataLength := by
  obtain ⟨accept, read, hev, -⟩ := h.event
  rw [room, hev.heap, Option.bind_some, h.buffer, Option.map_some]

theorem Receives.takesWhole_iff {sock : ProactorSocket} {func : FuncPtr} {buf : ProactorBuf}
    {message : List Byte} (h : Receives w act a sock func buf message) :
    TakesWhole a w act ↔ message.length ≤ buf.dataLength := by
  refine ⟨fun hall => hall _ _ _ _ h, fun hle sock' func' buf' message' h' => ?_⟩
  obtain ⟨-, -, -, rfl, rfl⟩ := h.unique h'
  exact hle

theorem Receives.takesWhole_of_ne {a' : Addr} {sock : ProactorSocket} {func : FuncPtr} {buf : ProactorBuf}
    {message : List Byte} (h : Receives w act a' sock func buf message) (hne : a' ≠ a) : TakesWhole a w act := by
  intro sock' func' buf' message' h'
  exact absurd (h.unique h').1 hne

/-- A step that does not touch the socket. -/
theorem ChunkOutcome.of_unrelated (hroom : ∀ k, room a w' = some k → room a w = some k)
    (hhist : ∃ pre, (∀ o ∈ pre, o.Unrelated a) ∧ w'.history = pre ++ w.history) (hwhole : TakesWhole a w act) :
    ChunkOutcome a w act w' := by
  obtain ⟨pre, hpre, hhist⟩ := hhist
  obtain ⟨hmessages, hdeliveries, -⟩ := unrelated_append hpre w.history
  rw [← hhist] at hmessages hdeliveries
  have hheld : held a w'.history = held a w.history := by rw [held, hdeliveries, held]
  exact .unrelated hroom hmessages hheld hwhole

theorem closeObs_unrelated {a' : Addr} {sock : ProactorSocket} {status : Status} (hne : a' ≠ a) :
    ∀ o ∈ closeObs sock a' status, o.Unrelated a := by
  intro o ho
  rw [closeObs] at ho
  cases hc : sock.closeCb with
  | none => simp [hc] at ho
  | some func =>
    simp [hc] at ho
    rw [ho]
    exact hne

theorem Outcome.chunkOutcome (h : Outcome w act w') : ChunkOutcome a w act w' := by
  cases h with
  | quiet hsame hheap hhist hacc hrec =>
    obtain ⟨pre, hpre, hhist⟩ := hhist
    refine .of_unrelated (fun k hk => ?_) ⟨pre, fun o ho => (hpre o ho).unrelated, hhist⟩ ?_
    · rwa [room, hheap] at hk
    · intro sock func buf message hr
      exact absurd hr (hrec _ _ _ _ _)
  | accepted a' c server func ans hev hsame hfresh hheap hhist =>
    refine .of_unrelated (fun k hk => ?_) ⟨[_, _], by simp [Obs.Unrelated], hhist⟩ ?_
    · -- a new socket has no buffer
      by_cases hac : a = c
      · rw [room, hheap, hac, Function.update_self] at hk
        cases hk
      · rwa [room, hheap, Function.update_of_ne hac] at hk
    · intro sock func' buf message hr
      obtain ⟨read, hread⟩ := hev.event
      obtain ⟨accept', read', hread', -⟩ := hr.event
      obtain ⟨-, -, -, rfl⟩ := hread.unique hread'
      have htype := hr.type
      rw [hev.type] at htype
      rcases htype with htype | htype <;> cases htype
  | received a' sock func buf message addr got hrec hgot hholds hsame hheap hhist =>
    by_cases heq : a' = a
    · subst heq
      refine .received message buf.dataLength hrec.room_eq hgot ?_ ?_ ?_ hrec.takesWhole_iff
      · rw [room, hheap, Function.update_self, ← hholds.dataLength]
        rfl
      · simp [hhist, messages]
      · simp [hhist, held, deliveries, hholds.contents]
    · refine .of_unrelated (fun k hk => ?_) ⟨[_, _], by simp [Obs.Unrelated, heq], hhist⟩
        (hrec.takesWhole_of_ne heq)
      rwa [room, hheap, Function.update_of_ne (Ne.symm heq)] at hk
  | ended a' sock func buf message addr hrec hgot hsame hheap hhist =>
    by_cases heq : a' = a
    · subst heq
      refine .ended message buf.dataLength hgot ?_ ?_ ?_ hrec.takesWhole_iff
      · rw [hrec.room_eq, room, hheap, Function.update_self, Option.bind_some, hrec.buffer]
        rfl
      · rw [hhist, closeObs]
        cases sock.closeCb <;> simp [messages]
      · rw [hhist, closeObs]
        cases sock.closeCb <;> simp [held, deliveries]
    · refine .of_unrelated (fun k hk => ?_) ⟨closeObs sock a' .ok ++ [.recvfrom a' message], ?_, ?_⟩
        (hrec.takesWhole_of_ne heq)
      · rwa [room, hheap, Function.update_of_ne (Ne.symm heq)] at hk
      · rw [List.forall_mem_append]
        exact ⟨closeObs_unrelated heq, by simp [Obs.Unrelated, heq]⟩
      · rw [hhist, List.append_assoc]
        rfl
  | ticked start fuel hact hsame hheap hhist =>
    obtain ⟨pre, hpre, hhist⟩ := hhist
    refine .of_unrelated (fun k hk => ?_) ⟨pre, fun o ho => (hpre o ho).unrelated, hhist⟩ ?_
    · rwa [room, hheap] at hk
    · intro sock func buf message hr
      obtain ⟨accept, read, hev, -⟩ := hr.event
      have hno := hact.symm.trans hev.action
      cases hno

end Steps

section Shrinks

/-- The room is no more than `n` and than anything that the buffer has held, and it never held more than it had held
    before. -/
structure Shrinks (n : Nat) (a : Addr) (w : World) : Prop where
  room_le : ∀ k, room a w = some k → ∀ x ∈ n :: (held a w.history).map List.length, k ≤ x
  lengths : (n :: (held a w.history).map List.length).Pairwise (· ≥ ·)
  ne_nil : [] ∉ held a w.history

theorem Shrinks.step (h : Shrinks n a w) (hs : ChunkOutcome a w act w') : Shrinks n a w' := by
  cases hs with
  | unrelated hroom hmessages hheld hwhole =>
    refine ⟨fun k hk => ?_, ?_, ?_⟩
    · rw [hheld]
      exact h.room_le k (hroom k hk)
    · rw [hheld]
      exact h.lengths
    · rw [hheld]
      exact h.ne_nil
  | received message k hroom hgot hroom' hmessages hheld hwhole =>
    have hle : (message.take k).length ≤ k := List.length_take_le ..
    have hall : ∀ x ∈ n :: (held a w.history).map List.length, (message.take k).length ≤ x :=
      fun x hx => Nat.le_trans hle (h.room_le k hroom x hx)
    have hlist : n :: (held a w'.history).map List.length =
        (n :: (held a w.history).map List.length) ++ [(message.take k).length] := by
      rw [hheld, List.map_append]
      rfl
    refine ⟨fun k' hk' x hx => ?_, ?_, ?_⟩
    · obtain rfl := Option.some.inj (hroom'.symm.trans hk')
      rw [hlist, List.mem_append] at hx
      rcases hx with hx | hx
      · exact hall x hx
      · exact Nat.le_of_eq (List.mem_singleton.mp hx).symm
    · rw [hlist, List.pairwise_append]
      refine ⟨h.lengths, List.pairwise_singleton .., fun x hx y hy => ?_⟩
      rw [List.mem_singleton.mp hy]
      exact hall x hx
    · rw [hheld, List.mem_append, List.mem_singleton]
      rintro (hmem | hnil)
      · exact h.ne_nil hmem
      · exact hgot hnil.symm
  | ended message k hgot hroom' hmessages hheld hwhole =>
    refine ⟨fun k hk => ?_, ?_, ?_⟩
    · rw [hheld]
      exact h.room_le k (hroom' ▸ hk)
    · rw [hheld]
      exact h.lengths
    · rw [hheld]
      exact h.ne_nil

end Shrinks

section Bytes

/-- The buffer has held no more bytes than were taken off the socket. -/
def NoneMadeUp (a : Addr) (w : World) : Prop :=
  (held a w.history).flatten.length ≤ (messages a w.history).flatten.length

/-- All the bytes that were taken off the socket were in the buffer at a call of the receive callback, in order. -/
def AllArrive (a : Addr) (w : World) : Prop := (held a w.history).flatten = (messages a w.history).flatten

theorem NoneMadeUp.step (h : NoneMadeUp a w) (hs : ChunkOutcome a w act w') : NoneMadeUp a w' := by
  unfold NoneMadeUp at h ⊢
  cases hs with
  | unrelated hroom hmessages hheld hwhole => rwa [hmessages, hheld]
  | received message k hroom hgot hroom' hmessages hheld hwhole =>
    have hle := message.length_take_le' k
    rw [hmessages, hheld, List.flatten_concat, List.flatten_concat, List.length_append, List.length_append]
    omega
  | ended message k hgot hroom' hmessages hheld hwhole =>
    rw [hmessages, hheld, List.flatten_concat, List.length_append]
    omega

/-- After a step all the bytes have arrived exactly when they had before, and the step takes no more than there is
    room for. -/
theorem allArrive_step (h : NoneMadeUp a w) (hs : ChunkOutcome a w act w') :
    AllArrive a w' ↔ AllArrive a w ∧ TakesWhole a w act := by
  unfold AllArrive
  cases hs with
  | unrelated hroom hmessages hheld hwhole =>
    rw [hmessages, hheld]
    exact (and_iff_left hwhole).symm
  | received message k hroom hgot hroom' hmessages hheld hwhole =>
    rw [hmessages, hheld, List.flatten_concat, List.flatten_concat, hwhole]
    constructor
    · intro heq
      have hlen := congrArg List.length heq
      rw [List.length_append, List.length_append, List.length_take] at hlen
      have hfit : message.length ≤ k := by
        unfold NoneMadeUp at h
        omega
      rw [List.take_of_length_le hfit] at heq
      exact ⟨List.append_cancel_right heq, hfit⟩
    · rintro ⟨heq, hfit⟩
      rw [heq, List.take_of_length_le hfit]
  | ended message k hgot hroom' hmessages hheld hwhole =>
    rw [hmessages, hheld, List.flatten_concat, hwhole]
    constructor
    · intro heq
      have hlen := congrArg List.length heq
      rw [List.length_append] at hlen
      have hnil : message = [] := by
        rw [← List.length_eq_zero_iff]
        unfold NoneMadeUp at h
        omega
      rw [hnil, List.append_nil] at heq
      exact ⟨heq, by simp [hnil]⟩
    · rintro ⟨heq, hfit⟩
      rw [List.take_of_length_le hfit] at hgot
      rw [heq, hgot, List.append_nil]

end Bytes

section Run

/-- A callback of the declared type does not find what the buffer holds, if that is anything. -/
theorem declared_ne_held {field : BufferField} (hmem : field ∈ deliveries a w.history)
    (hne : [] ∉ held a w.history) : field.contents .declared ≠ some field.buffer.contents := by
  have hheld : field.buffer.contents ∈ held a w.history := List.mem_map_of_mem hmem
  rw [BufferField.contents]
  split_ifs
  · intro hnil
    rw [← Option.some.inj hnil] at hheld
    exact hne hheld
  · exact Option.some_ne_none _ ∘ Eq.symm

/-- At no call of the receive callback of a socket does the buffer hold more than at one before it, nor nothing at
    all; all the bytes taken off the socket are in it at such a call, in order, exactly when `recvfrom` never takes
    more than there is room for; and a callback of the declared type finds them at none. -/
theorem chunks_shrink (hroom : ∀ k, room a w₀ = some k → k ≤ n) (hstart : w₀.history = [])
    (hrun : machine.run w₀ as = some w) :
    (n :: (held a w.history).map List.length).Pairwise (· ≥ ·) ∧ [] ∉ held a w.history ∧
      ((held a w.history).flatten = (messages a w.history).flatten ↔
        machine.AllSteps (TakesWhole a) w₀ as) ∧
      ∀ field ∈ deliveries a w.history, field.contents .declared ≠ some field.buffer.contents := by
  have hfirst : Shrinks n a w₀ := by
    refine ⟨fun k hk x hx => ?_, ?_, ?_⟩
    · rw [hstart] at hx
      obtain rfl := List.mem_singleton.mp hx
      exact hroom k hk
    · rw [hstart]
      exact List.pairwise_singleton ..
    · rw [hstart]
      exact List.not_mem_nil
  have hshrinks : Shrinks n a w :=
    Machine.run_preserves (M := machine) (I := Shrinks n a) (fun _ _ _ hv h => hv.step (step_outcome h).chunkOutcome)
      hfirst hrun
  have hnone : NoneMadeUp a w₀ := by
    rw [NoneMadeUp, hstart]
    exact Nat.le_refl 0
  have harrive : AllArrive a w ↔ AllArrive a w₀ ∧ machine.AllSteps (TakesWhole a) w₀ as :=
    Machine.run_iff_allSteps (M := machine) (J := NoneMadeUp a) (P := AllArrive a) (C := TakesWhole a)
      (fun _ _ _ hv h => hv.step (step_outcome h).chunkOutcome)
      (fun _ _ _ hv h => allArrive_step hv (step_outcome h).chunkOutcome) hnone hrun
  have hnothing : AllArrive a w₀ := by
    rw [AllArrive, hstart]
    rfl
  exact ⟨hshrinks.lengths, hshrinks.ne_nil, harrive.trans (and_iff_right hnothing),
    fun field hmem => declared_ne_held hmem hshrinks.ne_nil⟩

/-- A connection of a client, whose buffer has room for four bytes. -/
def streamWorld : World :=
  { udpWorld with heap := Function.update (fun _ => none) 1 (some { udpSocket with socketType := .tcpClient }) }

/-- After one byte has come alone the rest of the stream comes byte by byte. -/
theorem chunks_shrink_stream : ∃ w, machine.run streamWorld (datagramRun [[1, 2, 3], [4], [5]]) = some w ∧
    (4 :: (held 1 w.history).map List.length).Pairwise (· ≥ ·) ∧ [] ∉ held 1 w.history ∧
      ((held 1 w.history).flatten = (messages 1 w.history).flatten ↔
        machine.AllSteps (TakesWhole 1) streamWorld (datagramRun [[1, 2, 3], [4], [5]])) ∧
      ∀ field ∈ deliveries 1 w.history, field.contents .declared ≠ some field.buffer.contents := by
  have hsome : (machine.run streamWorld (datagramRun [[1, 2, 3], [4], [5]])).isSome = true := rfl
  have hrun := (Option.some_get hsome).symm
  have hroom : ∀ k, room 1 streamWorld = some k → k ≤ 4 := fun k hk => Nat.le_of_eq (Option.some.inj hk).symm
  exact ⟨_, hrun, chunks_shrink hroom rfl hrun⟩

end Run

end TagSim.Kevent
