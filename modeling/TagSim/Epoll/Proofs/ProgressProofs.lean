import TagSim.Epoll.Proofs.SendStreamProofs
import TagSim.Runs.Proofs.AccountProofs

/-!
# Proofs: a send comes to its end

Whatever happens in between, a send is completed once the writes of the event loop have taken something as often
as there were bytes left. A write that fails, or takes nothing, leaves what remains as it was. This is so for one
event loop: one that is nested in a send-complete callback would free the request of the outer one.
-/

namespace TagSim.Epoll

open TagSim.Transfer

variable {K : KernelRules} {w₀ w w' v v' : World} {a : Action} {as bs : List Action} {c c' : Channel Byte}
  {payloads : List (List Byte)}

section Channel

/-- What left the slot is not taken back. -/
theorem finished_mono (h : Relation.ReflTransGen Channel.Step c c') : c.finished <+: c'.finished := by
  induction h with
  | refl => exact List.prefix_rfl
  | tail _ hstep ih =>
    cases hstep with
    | finish => exact ih.trans (List.prefix_append ..)
    | _ => exact ih

/-- What was accepted stays accepted. -/
theorem accepted_mono (h : Relation.ReflTransGen Channel.Step c c') : c.accepted <+: c'.accepted := by
  induction h with
  | refl => exact List.prefix_rfl
  | tail _ hstep ih =>
    cases hstep with
    | accept =>
      rw [Channel.accepted_accept]
      exact ih.trans (List.prefix_append ..)
    | deliver => rwa [Channel.accepted_deliver]
    | finish => rwa [Channel.accepted_finish]

end Channel

section Steps

theorem writesLeft_of_pending {req : SendRequest} (h : pendingRequest w = some req) :
    writesLeft w = max 1 req.count := by
  rw [writesLeft, h, Option.elim_some]

theorem completed_of_idle (h : pendingRequest w = none) : completed w = accepted w.history := by
  rw [completed, h]

theorem effectiveWrites_cons_silent (o : Obs) (h : List Obs) (ho : o.Silent) :
    effectiveWrites (o :: h) = effectiveWrites h := by
  cases o with
  | write | setSendComplete | sendReturned | sendCompleteCallback => exact ho.elim
  | _ => rfl

theorem effectiveWrites_failed {fd : Fd} {buf : List Byte} {h : List Obs} :
    effectiveWrites (.perror "write" :: .write fd buf (-1) :: h) = effectiveWrites h := by
  have hne : ¬ min 1 (buf.length : Int) ≤ -1 := by omega
  simp [effectiveWrites, hne]

/-- The payloads have been accepted, and the state carries a channel until the process exits. -/
def Accepted (payloads : List (List Byte)) (w : World) : Prop :=
  w.exited = true ∨ ∃ c, Carries w c ∧ payloads <+: c.accepted

/-- The payloads have been written out, unless the process has exited. -/
def Finished (payloads : List (List Byte)) (w : World) : Prop :=
  w.exited = true ∨ payloads <+: completed w

theorem Accepted.step (h : Accepted payloads v) (hs : (machine K).step v a = some v') :
    Accepted payloads v' := by
  rcases h with hexit | ⟨c, hc, hp⟩
  · exact absurd ((step_outcome hs).1.symm.trans hexit) nofun
  · obtain ⟨c', hc', hexit | hnext⟩ := step_carries (Or.inr hc) hs
    · exact Or.inl hexit
    · exact Or.inr ⟨c', hnext, hp.trans (accepted_mono hc')⟩

/-- Where no send is pending everything that was accepted has been written out. -/
theorem Accepted.finished (h : Accepted payloads v) (hidle : pendingRequest v = none) :
    Finished payloads v := by
  rcases h with hexit | ⟨c, hc, hp⟩
  · exact Or.inl hexit
  · refine Or.inr ?_
    rw [completed_of_idle hidle, hc.accepted_eq]
    exact hp

theorem Accepted.writesLeft_pos (h : Accepted payloads v) (hnot : ¬ Finished payloads v) :
    0 < writesLeft v := by
  cases hreq : pendingRequest v with
  | none => exact absurd (h.finished hreq) hnot
  | some req =>
    rw [writesLeft_of_pending hreq]
    exact Nat.lt_of_lt_of_le Nat.one_pos (Nat.le_max_left ..)

theorem Finished.step (hacc : Accepted payloads v) (h : Finished payloads v)
    (hs : (machine K).step v a = some v') : Finished payloads v' := by
  have halive := (step_outcome hs).1
  rcases h with hexit | hp
  · exact absurd (halive.symm.trans hexit) nofun
  · obtain ⟨c, hc, -⟩ := hacc.resolve_left (by rw [halive]; simp)
    obtain ⟨c', hc', hexit | hnext⟩ := step_carries (Or.inr hc) hs
    · exact Or.inl hexit
    · refine Or.inr ?_
      rw [hc.completed_eq] at hp
      rw [hnext.completed_eq]
      exact hp.trans (finished_mono hc')

theorem uses_up {n k rest : Nat} (hrest : rest + k = n) (hpos : 0 < rest) :
    max 1 rest + (if min 1 (n : Int) ≤ k then 1 else 0) ≤ max 1 n := by
  split_ifs <;> omega

/-- A write of a part of what is left uses up as many bytes as it takes, and leaves some. -/
theorem writesLeft_partial {ans : EventAnswers} {ev : Event} {rest : List Event} {req : SendRequest} {k : Nat}
    (hc : Carries v c) (hwr : Writes v a ans ev rest req) (hk : k ≤ req.count)
    (hlt : (req.offset + k) % sizeMax < req.length) :
    max 1 (SendRequest.count { req with offset := (req.offset + k) % sizeMax }) +
      (if min 1 (req.unsent.length : Int) ≤ k then 1 else 0) ≤ max 1 req.count := by
  obtain ⟨t, -, hold⟩ := hc.transit_of_writes hwr
  have hnext : SendRequest.count { req with offset := (req.offset + k) % sizeMax } =
      req.length - (req.offset + k) % sizeMax :=
    (hold.advance hk (by rwa [hold.length_remaining])).count_eq
  have hcount := hold.count_eq
  have hlen : req.unsent.length = req.count := by rw [hold.unsent_eq, hold.length_remaining]
  rw [hold.offset_add hk] at hlt hnext ⊢
  rw [hnext, hlen, hcount]
  rw [hcount] at hk
  exact uses_up (by omega) (by omega)

/-- A step that does not complete the sends makes no more progress than it uses up. -/
theorem step_progress (hacc : Accepted payloads v) (hnot : ¬ Finished payloads v)
    (hs : (machine K).step v a = some v') :
    Finished payloads v' ∨
      writesLeft v' + effectiveWrites v'.history ≤ writesLeft v + effectiveWrites v.history := by
  have hacc' := hacc.step hs
  obtain ⟨c, hc, -⟩ := hacc.resolve_left fun hexit => hnot (Or.inl hexit)
  cases step_sendOutcome hs with
  | quiet hq =>
    obtain ⟨pre, hpre, hhist⟩ := hq.silent
    rw [writesLeft, writesLeft, hq.pending, hhist, append_silent effectiveWrites_cons_silent hpre]
    exact Or.inr (Nat.le_refl _)
  | exit hexit hno hsilent => exact Or.inl (Or.inl hexit)
  | rejected socket data ans ha hbusy hw' =>
    subst hw'
    exact Or.inr (Nat.le_refl _)
  | accepted socket data ans ha hidle hlen hreq hcb hset hhist =>
    have hpend : pendingRequest v = none := by
      have hp := hc.pending
      rw [hc.transit_of_idle hidle] at hp
      generalize pendingRequest v = pending at hp
      cases hp
      rfl
    exact absurd (hacc.finished hpend) hnot
  | setCallback func userData ha hw' =>
    subst hw'
    exact Or.inr (Nat.le_refl _)
  | writeFailed ans ev rest req hwr hret hw' =>
    have hpend : writesLeft v' = writesLeft v := by rw [hw']; rfl
    have hsame : effectiveWrites v'.history = effectiveWrites v.history := by
      rw [hw']
      exact effectiveWrites_failed
    rw [hpend, hsame]
    exact Or.inr (Nat.le_refl _)
  | writePartial ans ev rest req k hwr hret hk hlt hw' =>
    have hcb := hwr.2.1.callback
    have hbefore : writesLeft v = max 1 req.count :=
      writesLeft_of_pending (by rw [pendingRequest, hcb]; exact hwr.2.2)
    have hafter : writesLeft v' = max 1 (SendRequest.count { req with offset := (req.offset + k) % sizeMax }) :=
      writesLeft_of_pending (by rw [hw', pendingRequest, hcb])
    have huses := writesLeft_partial hc hwr hk hlt
    refine Or.inr ?_
    rw [hbefore, hafter, hw', effectiveWrites]
    omega
  | writeFinished ans ev rest req k hwr hret hk hge hfunc hw' =>
    exact Or.inl (hacc'.finished (by rw [hw', pendingRequest, hwr.2.1.callback]))
  | writeCallback ans ev rest req k func hwr hret hk hge hfunc hw' =>
    exact Or.inl (hacc'.finished (by rw [hw', pendingRequest]))
  | returned fd hcb hno hw' => exact absurd (hacc.finished (by rw [pendingRequest, hcb])) hnot

end Steps

section Run

/-- A send is completed once as many writes have taken something as there were bytes left of it, whatever the
    application and the event loop do in between. -/
theorem sends_come_to_end (hstart : Started K w₀) (hrun : (machine K).run w₀ as = some w)
    (hrun' : (machine K).run w bs = some w') (hexit : w'.exited = false)
    (heffective : writesLeft w + effectiveWrites w.history ≤ effectiveWrites w'.history) :
    accepted w.history <+: completed w' := by
  have hacc : Accepted (accepted w.history) w := by
    obtain ⟨c, -, hexited | hc⟩ := run_carries hstart hrun
    · exact Or.inl hexited
    · refine Or.inr ⟨c, hc, ?_⟩
      rw [hc.accepted_eq]
  have hgoal : Finished (accepted w.history) w' :=
    Machine.reaches_of_progress (M := machine K) (I := Accepted (accepted w.history)) (V := writesLeft)
      (P := fun v => effectiveWrites v.history) (fun _ _ _ h hs => h.step hs)
      (fun _ _ _ h hfin hs => hfin.step h hs) (fun _ _ _ h hnot hs => step_progress h hnot hs)
      (fun _ h hnot => h.writesLeft_pos hnot) hacc hrun' heffective
  exact hgoal.resolve_left (by rw [hexit]; simp)

/-- Three bytes are sent. -/
def threeBytes : List Action := [.connect "127.0.0.1" 502 ⟨6, true, true⟩, .send 6 [1, 2, 3] {}]

/-- The bytes go out one at a time, with a failed write between them. -/
def slowPeer : List Action :=
  [.run, .wait (.events [⟨6, EPOLLOUT⟩]), .event { write := 1 }, .wait (.events [⟨6, EPOLLOUT⟩]),
    .event { write := -1 }, .wait (.events [⟨6, EPOLLOUT⟩]), .event { write := 1 },
    .wait (.events [⟨6, EPOLLOUT⟩]), .event { write := 1 }]

theorem sends_come_to_end_slowPeer : ∃ w w', (machine documented).run stdioStart threeBytes = some w ∧
    (machine documented).run w slowPeer = some w' ∧ writesLeft w = 3 ∧
    accepted w.history = [[1, 2, 3]] ∧ accepted w.history <+: completed w' := by
  have hsome : ((machine documented).run stdioStart threeBytes).isSome = true := rfl
  have hrun := (Option.some_get hsome).symm
  have hsome' :
      ((machine documented).run (((machine documented).run stdioStart threeBytes).get hsome) slowPeer).isSome =
        true := rfl
  have hrun' := (Option.some_get hsome').symm
  have hleft : writesLeft (((machine documented).run stdioStart threeBytes).get hsome) = 3 := rfl
  have hnone : effectiveWrites (((machine documented).run stdioStart threeBytes).get hsome).history = 0 := rfl
  have hthree : effectiveWrites (((machine documented).run
      (((machine documented).run stdioStart threeBytes).get hsome) slowPeer).get hsome').history = 3 := rfl
  exact ⟨_, _, hrun, hrun', hleft, rfl,
    sends_come_to_end stdioStart_documented hrun hrun' rfl (by rw [hleft, hnone, hthree])⟩

end Run

end TagSim.Epoll
