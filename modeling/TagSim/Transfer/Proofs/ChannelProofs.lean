import TagSim.Transfer.Channel

/-!
# Properties of the ordered transfer

What the operations of a channel do to the payloads accepted, to those that are out and to the one in the
slot.
-/

namespace TagSim.Transfer

universe u

variable {α : Type u}

namespace Transit

@[simp] theorem start_payload (p : List α) : (start p).payload = p := rfl

@[simp] theorem advance_payload (t : Transit α) (k : Nat) (hk : k ≤ t.remaining.length) :
    (t.advance k hk).payload = t.payload := rfl

theorem length_remaining (t : Transit α) : t.remaining.length = t.payload.length - t.offset :=
  List.length_drop

end Transit

namespace Channel

@[simp] theorem accepted_accept (c : Channel α) (p : List α) (h : c.transit = none) :
    (c.accept p h).accepted = c.accepted ++ [p] := by
  simp [accepted, accept, h]

@[simp] theorem accepted_deliver (c : Channel α) (t : Transit α) (h : c.transit = some t) (k : Nat)
    (hk : k ≤ t.remaining.length) : (c.deliver t h k hk).accepted = c.accepted := by
  simp [accepted, deliver, h]

@[simp] theorem deliver_transit (c : Channel α) (t : Transit α) (h : c.transit = some t) (k : Nat)
    (hk : k ≤ t.remaining.length) : (c.deliver t h k hk).transit = some (t.advance k hk) := rfl

@[simp] theorem deliver_finished (c : Channel α) (t : Transit α) (h : c.transit = some t) (k : Nat)
    (hk : k ≤ t.remaining.length) : (c.deliver t h k hk).finished = c.finished := rfl

@[simp] theorem finish_finished (c : Channel α) (t : Transit α) (h : c.transit = some t)
    (hfull : t.offset = t.payload.length) : (c.finish t h hfull).finished = c.finished ++ [t.payload] :=
  rfl

@[simp] theorem accepted_finish (c : Channel α) (t : Transit α) (h : c.transit = some t)
    (hfull : t.offset = t.payload.length) : (c.finish t h hfull).accepted = c.accepted := by
  simp [accepted, finish, h]

end Channel

end TagSim.Transfer
