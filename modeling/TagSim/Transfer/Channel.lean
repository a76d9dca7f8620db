import Mathlib.Data.List.Basic

/-!
# An ordered transfer through one slot

The abstract purpose of a sender that holds one payload at a time: payloads are accepted into an empty
slot, their elements come out a few at a time, and a payload that is out completely leaves the slot. The
law that relates the output to the payloads is a field of `Channel`, so that a channel that loses,
repeats or reorders elements cannot be built.
-/

namespace TagSim.Transfer

universe u

/-- A payload in the slot, with the number of its elements that are already out. -/
structure Transit (α : Type u) where
  payload : List α
  offset : Nat
  offset_le : offset ≤ payload.length

namespace Transit

variable {α : Type u}

def delivered (t : Transit α) : List α := t.payload.take t.offset

def remaining (t : Transit α) : List α := t.payload.drop t.offset

/-- A payload of which nothing is out. -/
def start (p : List α) : Transit α := ⟨p, 0, Nat.zero_le _⟩

/-- The next `k` elements come out. -/
def advance (t : Transit α) (k : Nat) (hk : k ≤ t.remaining.length) : Transit α where
  payload := t.payload
  offset := t.offset + k
  offset_le := by
    have := t.offset_le
    rw [remaining, List.length_drop] at hk
    omega

end Transit

/-- What is out, the payloads that are out completely, and the one in the slot. -/
structure Channel (α : Type u) where
  output : List α
  finished : List (List α)
  transit : Option (Transit α)
  output_eq : output = finished.flatten ++ transit.elim [] Transit.delivered

namespace Channel

variable {α : Type u}

/-- The payloads accepted so far, in order. -/
def accepted (c : Channel α) : List (List α) := c.finished ++ (c.transit.map Transit.payload).toList

def empty : Channel α := ⟨[], [], none, rfl⟩

/-- A payload is accepted into the empty slot. -/
def accept (c : Channel α) (p : List α) (h : c.transit = none) : Channel α where
  output := c.output
  finished := c.finished
  transit := some (.start p)
  output_eq := by
    rw [c.output_eq, h]
    simp [Transit.delivered, Transit.start]

/-- The next `k` elements of the payload in the slot come out. -/
def deliver (c : Channel α) (t : Transit α) (h : c.transit = some t) (k : Nat)
    (hk : k ≤ t.remaining.length) : Channel α where
  output := c.output ++ t.remaining.take k
  finished := c.finished
  transit := some (t.advance k hk)
  output_eq := by
    rw [c.output_eq, h]
    simp [Transit.delivered, Transit.remaining, Transit.advance, List.take_add]

/-- A payload that is out completely leaves the slot. -/
def finish (c : Channel α) (t : Transit α) (h : c.transit = some t)
    (hfull : t.offset = t.payload.length) : Channel α where
  output := c.output
  finished := c.finished ++ [t.payload]
  transit := none
  output_eq := by
    rw [c.output_eq, h]
    simp [Transit.delivered, hfull]

/-- The steps of a channel. -/
inductive Step : Channel α → Channel α → Prop
  | accept (c p) (h : c.transit = none) : Step c (c.accept p h)
  | deliver (c t) (h : c.transit = some t) (k hk) : Step c (c.deliver t h k hk)
  | finish (c t) (h : c.transit = some t) (hfull) : Step c (c.finish t h hfull)

end Channel

end TagSim.Transfer
