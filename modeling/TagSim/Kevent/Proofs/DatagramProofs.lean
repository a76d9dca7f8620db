import Mathlib.Data.List.TakeDrop
import TagSim.Kevent.History
import TagSim.Kevent.Proofs.StepProofs
import TagSim.Runs.Proofs.SilentProofs

/-!
# Datagrams

`process_read_ready` keeps the length of the last datagram in the field that holds the capacity of the
buffer. So the capacity never grows again, and the datagrams on a socket are delivered whole exactly when
none is empty and none is longer than one before it. This is so for a callback that takes its argument as the
`proactor_buf_t **` that it is. A callback of the type that the header declares finds no datagram at all.
-/

namespace TagSim.Kevent

/-- No message is empty, and none is longer than `n` or than one before it. -/
structure Shrinking (n : Nat) (ms : List (List Byte)) : Prop where
  ne_nil : ∀ m ∈ ms, m ≠ []
  lengths : (n :: ms.map List.length).Pairwise (· ≥ ·)

/-- A UDP socket with a receive callback and a buffer of capacity `n`. -/
structure UdpReceiver (w : World) (a : Addr) (sock : ProactorSocket) (func : FuncPtr) (buf : ProactorBuf) :
    Prop where
  heap : w.heap a = some sock
  type : sock.socketType = .udp
  receiveCb : sock.receiveCb = some func
  buffer : sock.buffer = some buf
  capacity : 1 ≤ buf.dataLength

/-- Observations that are no message, delivery or close of the socket. -/
def Obs.Unrelated (a : Addr) : Obs → Prop
  | .recvfrom a' _ | .receiveCb _ a' .. | .closeCb _ a' .. => a' ≠ a
  | _ => True

section Histories

variable {a : Addr} {n : Nat} {h : List Obs}

theorem Obs.Neutral.unrelated {o : Obs} (ho : o.Neutral) : o.Unrelated a := by
  cases o <;> first | exact ho.elim | trivial

theorem Obs.OfTick.unrelated {o : Obs} (ho : o.OfTick) : o.Unrelated a := by
  cases o <;> first | exact ho.elim | trivial

theorem messages_cons_unrelated (o : Obs) (h : List Obs) (ho : o.Unrelated a) :
    messages a (o :: h) = messages a h := by
  cases o with
  | recvfrom a' m =>
    have hne : a' ≠ a := ho
    simp [messages, hne]
  | _ => rfl

theorem deliveries_cons_unrelated (o : Obs) (h : List Obs) (ho : o.Unrelated a) :
    deliveries a (o :: h) = deliveries a h := by
  cases o with
  | receiveCb func a' =>
    have hne : a' ≠ a := ho
    simp [deliveries, hne]
  | _ => rfl

theorem not_closes_of_unrelated {o : Obs} (ho : o.Unrelated a) : ¬ o.Closes a := by
  cases o with
  | closeCb func a' => exact ho
  | _ => exact id

/-- Unrelated observations change nothing that is said about the socket. -/
theorem unrelated_append {pre : List Obs} (hpre : ∀ o ∈ pre, o.Unrelated a) (h : List Obs) :
    messages a (pre ++ h) = messages a h ∧ deliveries a (pre ++ h) = deliveries a h ∧
      ((∀ o ∈ pre ++ h, ¬ o.Closes a) ↔ ∀ o ∈ h, ¬ o.Closes a) := by
  refine ⟨append_silent messages_cons_unrelated hpre h, append_silent deliveries_cons_unrelated hpre h, ?_⟩
  rw [List.forall_mem_append]
  exact and_iff_right fun o ho => not_closes_of_unrelated (hpre o ho)

/-- One more message. -/
theorem shrinking_append {ms : List (List Byte)} {m : List Byte} : Shrinking n (ms ++ [m]) ↔
    Shrinking n ms ∧ m ≠ [] ∧ ∀ x ∈ n :: ms.map List.length, m.length ≤ x := by
  have hlengths : (n :: (ms ++ [m]).map List.length).Pairwise (· ≥ ·) ↔
      (n :: ms.map List.length).Pairwise (· ≥ ·) ∧ ∀ x ∈ n :: ms.map List.length, m.length ≤ x := by
    rw [List.map_append, ← List.cons_append, List.pairwise_append]
    simp
  constructor
  · rintro ⟨hne, hl⟩
    obtain ⟨hl, hm⟩ := hlengths.mp hl
    exact ⟨⟨fun m' hm' => hne m' (by simp [hm']), hl⟩, hne m (by simp), hm⟩
  · rintro ⟨⟨hne, hl⟩, hm, hle⟩
    refine ⟨fun m' hm' => ?_, hlengths.mpr ⟨hl, hle⟩⟩
    rcases List.mem_append.mp hm' with hm' | hm'
    · exact hne m' hm'
    · rw [List.mem_singleton.mp hm']
      exact hm

end Histories

/-- The invariant of a UDP socket that started with capacity `n`: as long as the messages shrink, its
    capacity is the least of `n` and their lengths. -/
structure Receiver (n : Nat) (a : Addr) (w : World) : Prop where
  udp : ∃ sock func buf, UdpReceiver w a sock func buf ∧
    (Shrinking n (messages a w.history) → ∀ k,
      (∀ x ∈ n :: (messages a w.history).map List.length, k ≤ x) ↔ k ≤ buf.dataLength)
  count : (deliveries a w.history).length = (messages a w.history).countP (· ≠ [])
  whole_iff : DeliveredWhole .passed a w.history ↔ Shrinking n (messages a w.history)

namespace Receiver

variable {n : Nat} {a : Addr} {w w' : World} {act : Action}

/-- A step that does not touch the socket. -/
theorem of_unrelated (h : Receiver n a w) (hheap : w'.heap a = w.heap a)
    (hhist : ∃ pre, (∀ o ∈ pre, o.Unrelated a) ∧ w'.history = pre ++ w.history) : Receiver n a w' := by
  obtain ⟨pre, hpre, hhist⟩ := hhist
  obtain ⟨hm, hd, hc⟩ := unrelated_append hpre w.history
  rw [← hhist] at hm hd hc
  obtain ⟨sock, func, buf, hudp, hleast⟩ := h.udp
  refine ⟨⟨sock, func, buf, ⟨hheap.trans hudp.heap, hudp.type, hudp.receiveCb, hudp.buffer, hudp.capacity⟩,
    by rw [hm]; exact hleast⟩, by rw [hm, hd]; exact h.count, ?_⟩
  rw [hm, ← h.whole_iff]
  constructor
  · rintro ⟨hdel, hcl⟩
    exact ⟨by rw [← hd, hdel, hm], hc.mp hcl⟩
  · rintro ⟨hdel, hcl⟩
    exact ⟨by rw [hd, hdel, hm], hc.mpr hcl⟩

/-- A message is received: it is delivered whole exactly when it fits into the buffer. -/
theorem received (h : Receiver n a w) {sock : ProactorSocket} {func : FuncPtr} {buf got : ProactorBuf}
    {m : List Byte} {addr : SockAddr} (hrec : Receives w act a sock func buf m)
    (hgot : m.take buf.dataLength ≠ []) (hholds : got.Holds (m.take buf.dataLength))
    (hheap : w'.heap = Function.update w.heap a (some { sock with buffer := some got, remoteAddr := addr }))
    (hhist : w'.history = .receiveCb func a addr ⟨got, sock.acceptCb⟩ .ok sock.sockData w.appData ::
      .recvfrom a m :: w.history) : Receiver n a w' := by
  obtain ⟨sock', func', buf', hudp, hleast⟩ := h.udp
  obtain ⟨⟨accept, read, hev, -⟩, -, -, hbuf⟩ := hrec
  obtain rfl : sock = sock' := Option.some.inj (hev.heap.symm.trans hudp.heap)
  obtain rfl : buf = buf' := Option.some.inj (hbuf.symm.trans hudp.buffer)
  have hms : messages a w'.history = messages a w.history ++ [m] := by simp [hhist, messages]
  have hds : deliveries a w'.history = deliveries a w.history ++ [⟨got, sock.acceptCb⟩] := by
    simp [hhist, deliveries]
  have hcl : (∀ o ∈ w'.history, ¬ o.Closes a) ↔ ∀ o ∈ w.history, ¬ o.Closes a := by
    simp [hhist, Obs.Closes]
  have hne : m ≠ [] := by
    rintro rfl
    simp at hgot
  have hfound : BufferField.contents .passed ⟨got, sock.acceptCb⟩ = some m ↔ m.length ≤ buf.dataLength := by
    rw [BufferField.contents, hholds.contents, Option.some.injEq, List.take_eq_self_iff]
  have hwhole : DeliveredWhole .passed a w'.history ↔
      DeliveredWhole .passed a w.history ∧ m.length ≤ buf.dataLength := by
    rw [← hfound]
    constructor
    · rintro ⟨hdel, hc⟩
      rw [hds, hms, List.map_append, List.map_append] at hdel
      obtain ⟨hdel, hm⟩ := List.append_inj' hdel rfl
      exact ⟨⟨hdel, hcl.mp hc⟩, List.singleton_inj.mp hm⟩
    · rintro ⟨⟨hdel, hc⟩, hm⟩
      refine ⟨?_, hcl.mpr hc⟩
      rw [hds, hms, List.map_append, List.map_append, hdel, List.map_singleton, List.map_singleton, hm]
  have hself := congrFun hheap a
  rw [Function.update_self] at hself
  have hroom : 1 ≤ got.dataLength := by
    rw [hholds.dataLength]
    exact List.length_pos_of_ne_nil hgot
  refine ⟨⟨_, func', _, ⟨hself, hudp.type, hudp.receiveCb, rfl, hroom⟩, ?_⟩, ?_, ?_⟩
  · intro hshrink k
    rw [hms] at hshrink ⊢
    obtain ⟨hprev, -, hle⟩ := shrinking_append.mp hshrink
    have hfit : m.length ≤ buf.dataLength := (hleast hprev _).mp hle
    rw [hholds.dataLength, List.length_take, Nat.min_eq_right hfit, List.map_append]
    constructor
    · intro hk
      exact hk _ (by simp)
    · intro hk x hx
      have hx' : x ∈ (n :: (messages a w.history).map List.length) ++ [m.length] := by simpa using hx
      rcases List.mem_append.mp hx' with hx | hx
      · exact Nat.le_trans hk (hle x hx)
      · rw [List.mem_singleton.mp hx]
        exact hk
  · rw [hds, hms, List.length_append, List.countP_append, h.count]
    simp [hne]
  · rw [hwhole, hms, shrinking_append, h.whole_iff]
    constructor
    · rintro ⟨hprev, hfit⟩
      exact ⟨hprev, hne, (hleast hprev _).mpr hfit⟩
    · rintro ⟨hprev, -, hle⟩
      exact ⟨hprev, (hleast hprev _).mp hle⟩

/-- An empty datagram is taken for the end of the stream. -/
theorem ended (h : Receiver n a w) {sock : ProactorSocket} {func : FuncPtr} {buf : ProactorBuf}
    {m : List Byte} {addr : SockAddr} (hrec : Receives w act a sock func buf m)
    (hgot : m.take buf.dataLength = [])
    (hheap : w'.heap = Function.update w.heap a (some { sock with remoteAddr := addr }))
    (hhist : w'.history = closeObs sock a .ok ++ .recvfrom a m :: w.history) : Receiver n a w' := by
  obtain ⟨sock', func', buf', hudp, -⟩ := h.udp
  obtain ⟨⟨accept, read, hev, -⟩, -, -, hbuf⟩ := hrec
  obtain rfl : sock = sock' := Option.some.inj (hev.heap.symm.trans hudp.heap)
  obtain rfl : buf = buf' := Option.some.inj (hbuf.symm.trans hudp.buffer)
  have hm : m = [] := by
    rcases List.take_eq_nil_iff.mp hgot with hzero | hm
    · have hcap := hudp.capacity
      omega
    · exact hm
  have hms : messages a w'.history = messages a w.history ++ [[]] := by
    rw [hhist, closeObs, hm]
    cases sock.closeCb <;> simp [messages]
  have hds : deliveries a w'.history = deliveries a w.history := by
    rw [hhist, closeObs]
    cases sock.closeCb <;> simp [deliveries]
  have hnot : ¬ Shrinking n (messages a w'.history) := by
    rw [hms, shrinking_append]
    rintro ⟨-, hne, -⟩
    exact hne rfl
  have hself := congrFun hheap a
  rw [Function.update_self] at hself
  refine ⟨⟨_, func', buf, ⟨hself, hudp.type, hudp.receiveCb, hudp.buffer, hudp.capacity⟩,
    fun hs => absurd hs hnot⟩, ?_, ?_⟩
  · rw [hds, hms, List.countP_append, h.count]
    simp
  · refine ⟨fun hw => ?_, fun hs => absurd hs hnot⟩
    -- a message without a delivery
    have hlen := congrArg List.length hw.deliveries_eq
    have hshort := List.countP_le_length (p := fun m : List Byte => m ≠ []) (l := messages a w.history)
    rw [← h.count] at hshort
    rw [List.length_map, List.length_map, hds, hms, List.length_append, List.length_singleton] at hlen
    omega

theorem step (h : Receiver n a w) (hs : Outcome w act w') : Receiver n a w' := by
  cases hs with
  | quiet hsame hheap hhist hacc hrec =>
    obtain ⟨pre, hpre, hhist⟩ := hhist
    exact h.of_unrelated (by rw [hheap]) ⟨pre, fun o ho => (hpre o ho).unrelated, hhist⟩
  | accepted a' c server func ans hev hsame hfresh hheap hhist =>
    have hne : a ≠ c := by
      rintro rfl
      obtain ⟨sock, _, _, hudp, -⟩ := h.udp
      cases hfresh.symm.trans hudp.heap
    refine h.of_unrelated (by rw [hheap]; exact Function.update_of_ne hne ..) ⟨[_, _], ?_, hhist⟩
    simp [Obs.Unrelated]
  | received a' sock func buf m addr got hrec hgot hholds hsame hheap hhist =>
    by_cases heq : a' = a
    · subst heq
      exact h.received hrec hgot hholds hheap hhist
    · refine h.of_unrelated (by rw [hheap]; exact Function.update_of_ne (Ne.symm heq) ..) ⟨[_, _], ?_, hhist⟩
      simp [Obs.Unrelated, heq]
  | ended a' sock func buf m addr hrec hgot hsame hheap hhist =>
    by_cases heq : a' = a
    · subst heq
      exact h.ended hrec hgot hheap hhist
    · refine h.of_unrelated (by rw [hheap]; exact Function.update_of_ne (Ne.symm heq) ..)
        ⟨closeObs sock a' .ok ++ [.recvfrom a' m], ?_, by rw [hhist, List.append_assoc]; rfl⟩
      intro o ho
      rw [closeObs] at ho
      cases hc : sock.closeCb <;> simp [hc] at ho
      · rw [ho]; exact heq
      · rcases ho with rfl | rfl
        · exact heq
        · exact heq
  | ticked start fuel hact hsame hheap hhist =>
    obtain ⟨pre, hpre, hhist⟩ := hhist
    exact h.of_unrelated (by rw [hheap]) ⟨pre, fun o ho => (hpre o ho).unrelated, hhist⟩

/-- A callback of the declared type finds no message: it finds no bytes, or bytes that were not received, and it is
    not called for an empty one. -/
theorem declared_iff (h : Receiver n a w) :
    DeliveredWhole .declared a w.history ↔ messages a w.history = [] := by
  constructor
  · intro hwhole
    have hlen := congrArg List.length hwhole.deliveries_eq
    rw [List.length_map, List.length_map, h.count] at hlen
    have hne := List.countP_eq_length.mp hlen
    refine List.eq_nil_iff_forall_not_mem.mpr fun m hm => ?_
    have hfound : some m ∈ (deliveries a w.history).map (BufferField.contents .declared) := by
      rw [hwhole.deliveries_eq]
      exact List.mem_map_of_mem hm
    obtain ⟨field, -, hcontents⟩ := List.mem_map.mp hfound
    rw [BufferField.contents] at hcontents
    split_ifs at hcontents
    rw [← Option.some.inj hcontents] at hm
    simpa using hne [] hm
  · intro hnil
    have hnone : deliveries a w.history = [] := by
      rw [← List.length_eq_zero_iff, h.count, hnil, List.countP_nil]
    have hshrinks : Shrinking n (messages a w.history) := by
      rw [hnil]
      exact ⟨nofun, List.pairwise_singleton ..⟩
    refine ⟨?_, (h.whole_iff.mpr hshrinks).not_closed⟩
    rw [hnone, hnil, List.map_nil, List.map_nil]

end Receiver

section Run

variable {n : Nat} {a : Addr} {w₀ w : World} {as : List Action} {sock : ProactorSocket} {func : FuncPtr}
  {buf : ProactorBuf}

/-- A callback of the type that the header declares finds the datagrams that arrive on a socket during a run whole
    exactly when there are none. One that takes its argument as it is passed finds them whole exactly when none is
    empty and none is longer than the buffer or than one before it. -/
theorem datagrams_whole_iff (hsock : UdpReceiver w₀ a sock func buf) (hstart : w₀.history = [])
    (hrun : machine.run w₀ as = some w) :
    (DeliveredWhole .declared a w.history ↔ messages a w.history = []) ∧
      (DeliveredWhole .passed a w.history ↔ Shrinking buf.dataLength (messages a w.history)) := by
  have hinit : Receiver buf.dataLength a w₀ := by
    refine ⟨⟨sock, func, buf, hsock, ?_⟩, ?_, ?_⟩
    · rw [hstart]
      simp [messages]
    · rw [hstart]
      rfl
    · rw [hstart]
      exact ⟨fun _ => ⟨nofun, List.pairwise_singleton ..⟩, fun _ => ⟨rfl, nofun⟩⟩
  have hstep : ∀ s act s', Receiver buf.dataLength a s → machine.step s act = some s' →
      Receiver buf.dataLength a s' :=
    fun s act s' hs hact => hs.step (step_outcome hact)
  have hend := Machine.run_preserves hstep hinit hrun
  exact ⟨hend.declared_iff, hend.whole_iff⟩

/-- A proactor with one UDP socket, whose buffer has room for four bytes. -/
def udpSocket : ProactorSocket :=
  { sock := 6, socketType := .udp, proactor := true, receiveCb := some 1, closeCb := some 2,
    buffer := some { data := [0, 0, 0, 0], dataLength := 4 } }

def udpWorld : World :=
  { kq := 3
    wakeupFds := (4, 5)
    sockets := some 1
    heap := Function.update (fun _ => none) 1 (some udpSocket)
    registered := fun fd filter => if fd = 6 ∧ filter = .read then some (some 1) else none }

/-- One pass of `proactor_net_run` for each datagram. -/
def datagramRun (ms : List (List Byte)) : List Action :=
  .run :: ms.flatMap fun m =>
    [.wait (.events [⟨6, .read, some 1⟩]), .event {} { message := some m }, .tick none 0]

theorem udpWorld_receiver :
    UdpReceiver udpWorld 1 udpSocket 1 { data := [0, 0, 0, 0], dataLength := 4 } :=
  ⟨rfl, rfl, rfl, rfl, by decide⟩

theorem datagramRun_whole : ∃ w, machine.run udpWorld (datagramRun [[1, 2, 3], [4]]) = some w ∧
    ¬ DeliveredWhole .declared 1 w.history ∧ DeliveredWhole .passed 1 w.history := by
  have hsome : (machine.run udpWorld (datagramRun [[1, 2, 3], [4]])).isSome = true := rfl
  have hrun := (Option.some_get hsome).symm
  obtain ⟨hdeclared, hpassed⟩ := datagrams_whole_iff udpWorld_receiver rfl hrun
  refine ⟨_, hrun, fun hwhole => ?_, hpassed.mpr ?_⟩
  · have hnil : ([[1, 2, 3], [4]] : List (List Byte)) = [] := hdeclared.mp hwhole
    cases hnil
  · exact (⟨by decide, by decide⟩ : Shrinking 4 [[1, 2, 3], [4]])

/-- The second datagram is longer than the first: its last byte is lost, and a callback of the declared type finds
    nothing at all, however the callback takes its argument. -/
theorem datagramRun_truncated : ∃ w, machine.run udpWorld (datagramRun [[1], [2, 3]]) = some w ∧
    messages 1 w.history = [[1], [2, 3]] ∧ ¬ DeliveredWhole .declared 1 w.history ∧
    ¬ DeliveredWhole .passed 1 w.history := by
  have hsome : (machine.run udpWorld (datagramRun [[1], [2, 3]])).isSome = true := rfl
  refine ⟨_, (Option.some_get hsome).symm, rfl, fun hwhole => ?_, fun hwhole => ?_⟩
  · have heq : ([some [], some []] : List (Option (List Byte))) = [some [1], some [2, 3]] := hwhole.deliveries_eq
    exact absurd heq (by decide)
  · have heq : ([some [1], some [2]] : List (Option (List Byte))) = [some [1], some [2, 3]] := hwhole.deliveries_eq
    exact absurd heq (by decide)

end Run

end TagSim.Kevent
