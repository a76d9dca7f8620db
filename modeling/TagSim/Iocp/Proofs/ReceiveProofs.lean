import TagSim.Iocp.History
import TagSim.Iocp.Proofs.StepProofs
import TagSim.Runs.Proofs.SilentProofs
import TagSim.Transfer.Proofs.QueueProofs

/-!
# Received bytes

`handle_data_event` hands over what `WSARecv` returns with, and nothing is handed over when a packet is
dequeued. The port is first in, first out, so the receives that were finished at once are dequeued in the
order in which they were handed over: the bytes of a connection are delivered once exactly when these are
the receives that have been dequeued.
-/

namespace TagSim.Iocp

/-- No operation has been posted, no packet is queued, and sockets are associated under themselves. -/
structure Fresh (w : World) : Prop where
  history : w.history = []
  heap : ∀ a, w.heap a = none
  queue : w.kernel.queue = []
  pending : ∀ a, w.kernel.pending a = none
  keys : ∀ s key, w.kernel.keys s = some key → key = s

/-- The receives of a socket whose packets were queued, in order. -/
def receipts (s : Socket) (w : World) : List Receipt := received s w.history ++ waiting s w.kernel

/-- The invariant of the receives of a socket. -/
structure Receives (s : Socket) (w : World) : Prop where
  keys : ∀ s' key, w.kernel.keys s' = some key → key = s'
  delivered : deliveries s w.history = atOnce s w.history
  /-- What was handed over was queued in the same order. -/
  queued : (atOnce s w.history).Sublist (receipts s w)
  nodup : ((receipts s w).map Prod.fst).Nodup
  finished : ∀ r ∈ receipts s w, (w.heap r.1).isSome ∧ w.kernel.pending r.1 = none
  pending : ∀ a, w.kernel.pending a ≠ none → (w.heap a).isSome

section Histories

variable {s : Socket} {o : Obs} {pre : List Obs}

/-- Observations that concern no receive. -/
def Obs.NoReceive : Obs → Prop
  | .wsaRecv .. | .receiveCallback .. | .dequeued _ => False
  | _ => True

theorem Obs.Neutral.noReceive (ho : o.Neutral) : o.NoReceive := by
  cases o <;> first | exact ho.elim | trivial

/-- They change nothing that is said about a connection. -/
theorem noReceive_append (s : Socket) (hpre : ∀ o ∈ pre, o.NoReceive) (h : List Obs) :
    deliveries s (pre ++ h) = deliveries s h ∧ atOnce s (pre ++ h) = atOnce s h ∧
      received s (pre ++ h) = received s h := by
  refine ⟨append_silent (fun o h ho => ?_) hpre h, append_silent (fun o h ho => ?_) hpre h,
    append_silent (fun o h ho => ?_) hpre h⟩
  all_goals
    cases o with
    | wsaRecv | receiveCallback | dequeued => exact ho.elim
    | _ => rfl

/-- What `handle_data_event` hands over. -/
def handedOver (s socket : Socket) (a : Addr) (data : List Byte) (callback : Option FuncPtr) : List Receipt :=
  if socket = s ∧ data ≠ [] ∧ callback.isSome then [(a, data)] else []

theorem deliveries_receive (s : Socket) (w : World) (socket : Socket) (a : Addr) (answer : IoAnswer)
    (h : List Obs) :
    deliveries s (receiveObs w socket a answer.data ++ .wsaRecv socket a answer w.receiveCallback :: h) =
        deliveries s h ++ handedOver s socket a answer.data w.receiveCallback ∧
      atOnce s (receiveObs w socket a answer.data ++ .wsaRecv socket a answer w.receiveCallback :: h) =
        atOnce s h ++ handedOver s socket a answer.data w.receiveCallback ∧
      received s (receiveObs w socket a answer.data ++ .wsaRecv socket a answer w.receiveCallback :: h) =
        received s h := by
  unfold receiveObs handedOver
  cases hcb : w.receiveCallback with
  | none => simp [deliveries, atOnce, received, dequeued]
  | some func =>
    by_cases hdata : answer.data = []
    · simp [hdata, deliveries, atOnce, received, dequeued]
    · by_cases hs : socket = s
      · simp [hdata, hs, deliveries, atOnce, received, dequeued]
      · simp [hdata, hs, deliveries, atOnce, received, dequeued]

/-- A packet reports a receive of its own operation. -/
theorem Packet.receipt_fst {key : Socket} {a : Addr} {result : Finished} {r : Receipt}
    (hr : r ∈ Packet.receipt s ⟨key, some a, result⟩) : r.1 = a := by
  cases result with
  | received data =>
    simp only [Packet.receipt, Option.mem_def] at hr
    split_ifs at hr
    rw [← Option.some.inj hr]
  | sent n | other => cases hr

theorem waiting_append {k k' : Kernel} {p : Packet} (hqueue : k'.queue = k.queue ++ [p]) :
    waiting s k' = waiting s k ++ (p.receipt s).toList := by
  unfold waiting
  rw [hqueue, List.filterMap_append]
  cases hp : p.receipt s <;> simp [hp]

end Histories

variable {s : Socket} {w₀ w w' : World} {act : Action} {as : List Action}

theorem Fresh.receives (h : Fresh w) : Receives s w := by
  have hnil : receipts s w = [] := by simp [receipts, received, waiting, h.history, h.queue, dequeued]
  refine ⟨h.keys, ?_, ?_, ?_, ?_, ?_⟩
  · rw [h.history]
    rfl
  · rw [h.history]
    exact List.nil_sublist _
  · rw [hnil]
    exact List.nodup_nil
  · rw [hnil]
    exact nofun
  · intro a ha
    exact absurd (h.pending a) ha

namespace Receives

/-- Taking a packet from the queue changes nothing but that it has been taken. -/
theorem take (h : Receives s w) {p : Packet} {rest : List Packet} (hqueue : w.kernel.queue = p :: rest) :
    Receives s (w.take p rest) := by
  have hreceipts : receipts s (w.take p rest) = receipts s w := by
    simp only [receipts, received, waiting, World.take, World.log, dequeued, hqueue,
      List.filterMap_append, List.filterMap_cons, List.filterMap_nil]
    cases hp : p.receipt s <;> simp
  refine ⟨h.keys, h.delivered, ?_, ?_, ?_, h.pending⟩
  · rw [hreceipts]
    exact h.queued
  · rw [hreceipts]
    exact h.nodup
  · rw [hreceipts]
    exact h.finished

/-- A step that hands over `given` and queues a packet with the receive `new`, if there is one. -/
theorem extend (h : Receives s w) (given : List Receipt) (new : Option Receipt)
    (hkeys : ∀ s' key, w'.kernel.keys s' = some key → key = s')
    (hdeliveries : deliveries s w'.history = deliveries s w.history ++ given)
    (hatOnce : atOnce s w'.history = atOnce s w.history ++ given)
    (hreceipts : receipts s w' = receipts s w ++ new.toList) (hgiven : given.Sublist new.toList)
    (hnew : ∀ r ∈ new, (∀ r' ∈ receipts s w, r'.1 ≠ r.1) ∧ (w'.heap r.1).isSome ∧
      w'.kernel.pending r.1 = none)
    (hheap : ∀ a, (w.heap a).isSome → (w'.heap a).isSome)
    (hpending : ∀ a, w'.kernel.pending a ≠ none →
      w.kernel.pending a ≠ none ∨ w.heap a = none ∧ (w'.heap a).isSome) : Receives s w' := by
  refine ⟨hkeys, ?_, ?_, ?_, ?_, ?_⟩
  · rw [hdeliveries, hatOnce, h.delivered]
  · rw [hatOnce, hreceipts]
    exact h.queued.append hgiven
  · rw [hreceipts, List.map_append]
    refine List.nodup_append.mpr ⟨h.nodup, ?_, ?_⟩
    · cases new <;> simp
    · intro a ha b hb
      obtain ⟨r', hr', rfl⟩ := List.mem_map.mp ha
      obtain ⟨r, hr, rfl⟩ := List.mem_map.mp hb
      exact (hnew r (Option.mem_toList.mp hr)).1 r' hr'
  · intro r hr
    rw [hreceipts] at hr
    rcases List.mem_append.mp hr with hr | hr
    · obtain ⟨halloc, hnone⟩ := h.finished r hr
      refine ⟨hheap _ halloc, ?_⟩
      by_contra hne
      rcases hpending _ hne with hold | ⟨hfree, -⟩
      · exact hold hnone
      · rw [hfree] at halloc
        cases halloc
    · exact (hnew r (Option.mem_toList.mp hr)).2
  · intro a ha
    rcases hpending a ha with hold | ⟨-, halloc⟩
    · exact hheap a (h.pending a hold)
    · exact halloc

/-- A step that concerns no receive. -/
theorem of_unrelated (h : Receives s w) (hkeys : ∀ s' key, w'.kernel.keys s' = some key → key = s')
    (hhist : ∃ pre, (∀ o ∈ pre, o.NoReceive) ∧ w'.history = pre ++ w.history)
    (hwaiting : waiting s w'.kernel = waiting s w.kernel)
    (hheap : ∀ a, (w.heap a).isSome → (w'.heap a).isSome)
    (hpending : ∀ a, w'.kernel.pending a ≠ none →
      w.kernel.pending a ≠ none ∨ w.heap a = none ∧ (w'.heap a).isSome) : Receives s w' := by
  obtain ⟨pre, hpre, hhist⟩ := hhist
  have hunrelated := noReceive_append s hpre w.history
  rw [← hhist] at hunrelated
  obtain ⟨hdel, hat, hrec⟩ := hunrelated
  refine h.extend [] none hkeys ?_ ?_ ?_ (List.nil_sublist _) nofun hheap hpending
  · rw [hdel, List.append_nil]
  · rw [hat, List.append_nil]
  · rw [receipts, receipts, hrec, hwaiting]
    simp

theorem allocated_update {a : Addr} {op : IoOperation} (hheap : w'.heap = Function.update w.heap a (some op))
    (a' : Addr) (ha' : (w.heap a').isSome) : (w'.heap a').isSome := by
  rw [hheap]
  by_cases heq : a' = a
  · subst heq
    rw [Function.update_self]
    rfl
  · rw [Function.update_of_ne heq]
    exact ha'

/-- An operation is posted, and `given` is handed over. -/
theorem posts (h : Receives s w) {socket : Socket} {a : Addr} {kind : OpKind} {answer : IoAnswer}
    {op : IoOperation} (given : List Receipt) (hfresh : w.heap a = none)
    (hpost : w.kernel.post socket a kind answer = some w'.kernel)
    (hheap : w'.heap = Function.update w.heap a (some op))
    (hdeliveries : deliveries s w'.history = deliveries s w.history ++ given)
    (hatOnce : atOnce s w'.history = atOnce s w.history ++ given)
    (hreceived : received s w'.history = received s w.history)
    (hgiven : ∀ result, answer = .atOnce result →
      given.Sublist (Packet.receipt s ⟨socket, some a, result⟩).toList)
    (hnone : (∀ result, answer ≠ .atOnce result) → given = []) : Receives s w' := by
  obtain ⟨hkeys, hpending, hatonce, hlater⟩ := Kernel.post_spec hpost
  have hself : (w'.heap a).isSome := by
    rw [hheap, Function.update_self]
    rfl
  have hkeys' : ∀ s' key, w'.kernel.keys s' = some key → key = s' := by
    rw [hkeys]
    exact h.keys
  have hpending' : ∀ a', w'.kernel.pending a' ≠ none →
      w.kernel.pending a' ≠ none ∨ w.heap a' = none ∧ (w'.heap a').isSome := by
    intro a' ha'
    rcases hpending a' ha' with hold | rfl
    · exact Or.inl hold
    · exact Or.inr ⟨hfresh, hself⟩
  by_cases hanswer : ∃ result, answer = .atOnce result
  · obtain ⟨result, hresult⟩ := hanswer
    obtain ⟨-, hpendingSame, key, hkey, hqueue⟩ := hatonce result hresult
    obtain rfl := h.keys socket key hkey
    refine h.extend given (Packet.receipt s ⟨key, some a, result⟩) hkeys' hdeliveries hatOnce ?_
      (hgiven result hresult) ?_ (allocated_update hheap) hpending'
    · rw [receipts, receipts, hreceived, waiting_append hqueue, List.append_assoc]
    · intro r hr
      rw [Packet.receipt_fst hr]
      refine ⟨fun r' hr' heq => ?_, hself, ?_⟩
      · have halloc := (h.finished r' hr').1
        rw [heq, hfresh] at halloc
        cases halloc
      · rw [hpendingSame]
        by_contra hne
        have halloc := h.pending a hne
        rw [hfresh] at halloc
        cases halloc
  · have hno : ∀ result, answer ≠ .atOnce result := fun result heq => hanswer ⟨result, heq⟩
    have hnil := hnone hno
    refine h.extend given none hkeys' hdeliveries hatOnce ?_ ?_ nofun (allocated_update hheap) hpending'
    · rw [receipts, receipts, hreceived, waiting, waiting, hlater hno]
      simp
    · rw [hnil]
      exact List.nil_sublist _

/-- `handle_data_event` posts a receive, and hands over what it has received at once. -/
theorem receives (h : Receives s w) {socket : Socket} {a : Addr} {answer : IoAnswer}
    (hfresh : w.heap a = none) (hpost : w.kernel.post socket a .recv answer = some w'.kernel)
    (hheap : w'.heap = Function.update w.heap a
      (some { wsabufBuf := .own, wsabufLen := bufferSize, buffer := answer.data }))
    (hhist : ∃ pre, (∀ o ∈ pre, o.Neutral) ∧ w'.history = pre ++ (receiveObs w socket a answer.data ++
      .wsaRecv socket a answer w.receiveCallback :: w.history)) : Receives s w' := by
  obtain ⟨pre, hpre, hhist⟩ := hhist
  obtain ⟨hdel, hat, hrec⟩ := deliveries_receive s w socket a answer w.history
  obtain ⟨hdel', hat', hrec'⟩ := noReceive_append s (fun o ho => (hpre o ho).noReceive)
    (receiveObs w socket a answer.data ++ .wsaRecv socket a answer w.receiveCallback :: w.history)
  rw [← hhist, hdel] at hdel'
  rw [← hhist, hat] at hat'
  rw [← hhist, hrec] at hrec'
  refine h.posts _ hfresh hpost hheap hdel' hat' hrec' ?_ ?_
  · rintro result rfl
    obtain ⟨hallows, -⟩ := (Kernel.post_spec hpost).2.2.1 result rfl
    cases result with
    | sent n | other => cases hallows
    | received data =>
      show List.Sublist (if socket = s ∧ data ≠ [] ∧ w.receiveCallback.isSome then [(a, data)] else [])
        (if socket = s ∧ data ≠ [] then some (a, data) else none : Option Receipt).toList
      split_ifs with hgiven hnew
      · exact .refl _
      · exact absurd ⟨hgiven.1, hgiven.2.1⟩ hnew
      · exact List.nil_sublist _
      · exact List.nil_sublist _
  · intro hno
    cases answer with
    | atOnce result => exact absurd rfl (hno result)
    | pending | failed => simp [handedOver, IoAnswer.data]

theorem sends (h : Receives s w) {socket : Socket} {data : List Byte} {a : Addr} {answer : IoAnswer}
    (hfresh : w.heap a = none)
    (hpost : w.kernel.post socket a (.send (data.length % ulongSize)) answer = some w'.kernel)
    (hheap : w'.heap = Function.update w.heap a
      (some { wsabufBuf := .app data, wsabufLen := data.length % ulongSize }))
    (hhist : ∃ pre, (∀ o ∈ pre, o.NoReceive) ∧ w'.history = pre ++ w.history) : Receives s w' := by
  obtain ⟨pre, hpre, hhist⟩ := hhist
  obtain ⟨hdel, hat, hrec⟩ := noReceive_append s hpre w.history
  rw [← hhist] at hdel hat hrec
  refine h.posts [] hfresh hpost hheap ?_ ?_ hrec (fun _ _ => List.nil_sublist _) fun _ => rfl
  · rw [hdel, List.append_nil]
  · rw [hat, List.append_nil]

/-- The kernel finishes a pending operation: what a receive has received is queued, and not handed over. -/
theorem completes (h : Receives s w) {a : Addr} {result : Finished} {op : IoOperation}
    (hcomplete : w.kernel.complete a result = some w'.kernel)
    (hheap : w'.heap = Function.update w.heap a (some op)) (hhist : w'.history = w.history) :
    Receives s w' := by
  obtain ⟨socket, kind, key, hpending, hallows, hkey, hk⟩ := Kernel.complete_cases hcomplete
  have hself : (w'.heap a).isSome := by
    rw [hheap, Function.update_self]
    rfl
  have hwaiting : waiting s w'.kernel =
      waiting s w.kernel ++ (Packet.receipt s ⟨key, some a, result⟩).toList := by
    exact waiting_append (by rw [hk]; rfl)
  have hpend : ∀ a', w'.kernel.pending a' ≠ none → w.kernel.pending a' ≠ none := by
    intro a' ha'
    rw [hk] at ha'
    by_cases heq : a' = a
    · subst heq
      exact absurd (Function.update_self ..) ha'
    · simpa [Function.update_of_ne heq] using ha'
  refine h.extend [] (Packet.receipt s ⟨key, some a, result⟩) ?_ ?_ ?_ ?_ (List.nil_sublist _) ?_
    (allocated_update hheap) fun a' ha' => Or.inl (hpend a' ha')
  · rw [hk]
    exact h.keys
  · rw [hhist, List.append_nil]
  · rw [hhist, List.append_nil]
  · rw [receipts, receipts, hhist, hwaiting, List.append_assoc]
  · intro r hr
    rw [Packet.receipt_fst hr]
    refine ⟨fun r' hr' heq => ?_, hself, ?_⟩
    · have hnone := (h.finished r' hr').2
      rw [heq, hpending] at hnone
      cases hnone
    · rw [hk]
      exact Function.update_self ..

theorem effect (h : Receives s w) (he : Effect w w') : Receives s w' := by
  cases he with
  | quiet hheap hqueue hpending hkeys hhist =>
    obtain ⟨pre, hpre, hhist⟩ := hhist
    refine h.of_unrelated ?_ ⟨pre, fun o ho => (hpre o ho).noReceive, hhist⟩ ?_ ?_ ?_
    · intro s' key hkey
      rcases hkeys s' key hkey with hold | heq
      · exact h.keys s' key hold
      · exact heq
    · rw [waiting, waiting, hqueue]
    · intro a ha
      rw [hheap]
      exact ha
    · intro a ha
      rw [hpending] at ha
      exact Or.inl ha
  | receives socket a answer hfresh hpost hheap hhist => exact h.receives hfresh hpost hheap hhist
  | sends socket data a answer hfresh hpost hheap hhist =>
    obtain ⟨o, ho, hhist⟩ := hhist
    refine h.sends hfresh hpost hheap
      ⟨[o, .wsaSend socket a (data.take (data.length % ulongSize)) answer], ?_, hhist⟩
    rcases ho with ⟨rfl, -⟩ | ⟨rfl, -⟩
    all_goals simp [Obs.NoReceive]
  | completes a result op hop hcomplete hheap hhist =>
    obtain ⟨buffer, hheap⟩ := hheap
    exact h.completes hcomplete hheap hhist
  | arrives key overlapped hkernel hheap hhist =>
    refine h.of_unrelated ?_ ⟨[], by simp, hhist⟩ ?_ ?_ ?_
    · rw [hkernel]
      exact h.keys
    · have hqueue : w'.kernel.queue = w.kernel.queue ++ [⟨key, overlapped, .other⟩] := by
        rw [hkernel]
        rfl
      rw [waiting_append hqueue]
      cases overlapped <;> exact List.append_nil _
    · intro a ha
      rw [hheap]
      exact ha
    · intro a ha
      rw [hkernel] at ha
      exact Or.inl ha

theorem step (h : Receives s w) (hs : Outcome w act w') : Receives s w' := by
  cases hs with
  | calls hact heffect => exact h.effect heffect
  | dequeues p rest accept io hact hloop hqueue hhandle heffect => exact (h.take hqueue).effect heffect

/-- What is delivered once is what was handed over and dequeued. -/
theorem deliveredOnce_iff (h : Receives s w) :
    DeliveredOnce s w.history ↔ atOnce s w.history = received s w.history := by
  have hnodup : (receipts s w).Nodup := h.nodup.of_map
  constructor
  · rintro ⟨-, honce⟩
    rw [h.delivered] at honce
    exact (Transfer.perm_iff_of_sublist_append h.queued hnodup).mp honce
  · intro heq
    refine ⟨?_, ?_⟩
    · rw [h.delivered, heq]
    · rw [h.delivered, heq]

end Receives

section Run

/-- After a run the bytes of a connection have been delivered once exactly when every receive whose packet
    was dequeued had been finished at once, while a receive callback was set, and no packet of such a
    receive is still in the queue. -/
theorem bytes_delivered_once_iff (hstart : Fresh w₀) (hrun : machine.run w₀ as = some w) :
    DeliveredOnce s w.history ↔
      (∀ r ∈ received s w.history, r ∈ atOnce s w.history) ∧
        ∀ r ∈ waiting s w.kernel, r ∉ atOnce s w.history := by
  have hstep : ∀ v act v', Receives s v → machine.step v act = some v' → Receives s v' :=
    fun v act v' hv hact => hv.step (step_outcome hact)
  have h := Machine.run_preserves hstep hstart.receives hrun
  rw [h.deliveredOnce_iff]
  exact Transfer.eq_iff_of_sublist_append h.queued h.nodup.of_map

/-- A connection on which a byte is sent; the packet of the send makes the event loop post a receive. -/
def connected : List Action :=
  [.connect "127.0.0.1" 502 ⟨6, true, true⟩, .setReceiveCallback (some 1) 0,
    .send 6 [9] ⟨some 16, .atOnce (.sent 1)⟩, .run, .test]

/-- The receive is finished at once. -/
def receivedAtOnce : List Action :=
  connected ++ [.dequeue {} ⟨some 32, .atOnce (.received [1, 2])⟩, .test, .dequeue {} ⟨some 48, .pending⟩]

/-- The receive is finished later. -/
def receivedLater : List Action :=
  connected ++ [.dequeue {} ⟨some 32, .pending⟩, .complete 32 (.received [1, 2]), .test,
    .dequeue {} ⟨some 48, .pending⟩]

theorem fresh_start : Fresh {} := ⟨rfl, fun _ => rfl, rfl, fun _ => rfl, nofun⟩

theorem receivedAtOnce_delivered :
    ∃ w, machine.run {} receivedAtOnce = some w ∧ DeliveredOnce 6 w.history := by
  have hsome : (machine.run {} receivedAtOnce).isSome = true := rfl
  have hrun := (Option.some_get hsome).symm
  have hreceived : ∀ r ∈ ([(32, [1, 2])] : List Receipt), r ∈ ([(32, [1, 2])] : List Receipt) := by simp
  exact ⟨_, hrun, (bytes_delivered_once_iff fresh_start hrun).mpr ⟨hreceived, nofun⟩⟩

/-- What a receive receives later is lost. -/
theorem receivedLater_lost : ¬ ∀ w₀ as w s, Fresh w₀ → machine.run w₀ as = some w →
    DeliveredOnce s w.history := by
  intro h
  have hsome : (machine.run {} receivedLater).isSome = true := rfl
  have hrun := (Option.some_get hsome).symm
  have hbytes : ([] : List Byte) = [1, 2] := (h _ _ _ 6 fresh_start hrun).bytes
  cases hbytes

end Run

end TagSim.Iocp
