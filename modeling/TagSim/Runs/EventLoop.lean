import TagSim.Runs.Account

/-!
# Event loops

The skeleton of an event loop: it tests a flag, waits for a batch of events, handles them one by one, and
goes back to the test. Anyone may raise the flag at any time, and nobody lowers it.
-/

namespace TagSim

universe u v

/-- Where an event loop stands: not called or returned, waiting, or with some events still to be handled. -/
inductive LoopPoint where
  | returned
  | waiting
  | batch (n : Nat)
  deriving DecidableEq, Repr

/-- The flag, and where the loop stands. -/
structure EventLoop where
  stop : Bool
  point : LoopPoint
  deriving DecidableEq, Repr

namespace EventLoop

/-- The steps of an event loop and of those who stop it; `halt` is the end of the process. -/
inductive Action where
  | enter
  | raise
  | test
  | fetch (n : Nat)
  | interrupt
  | handle
  | halt
  deriving DecidableEq, Repr

/-- One step. A batch has `capacity` events at most. -/
def step (capacity : Nat) (l : EventLoop) : Action → Option EventLoop
  | .enter => if l.point = .returned then some { l with point := .batch 0 } else none
  | .raise => some { l with stop := true }
  | .test =>
    if l.point = .batch 0 then some { l with point := if l.stop then .returned else .waiting } else none
  | .fetch n => if l.point = .waiting ∧ n ≤ capacity then some { l with point := .batch n } else none
  | .interrupt => if l.point = .waiting then some { l with point := .batch 0 } else none
  | .handle =>
    match l.point with
    | .batch (n + 1) => some { l with point := .batch n }
    | _ => none
  | .halt => some ⟨true, .returned⟩

/-- Event loops as a machine. -/
def machine (capacity : Nat) : Machine EventLoop Action := ⟨step capacity⟩

/-- An event is handled. -/
def handles (_ : EventLoop) (a : Action) : Nat := if a = .handle then 1 else 0

/-- The loop begins to wait. -/
def waits (l : EventLoop) (a : Action) : Nat := if a = .test ∧ l.stop = false then 1 else 0

/-- The events that may still be handled when the flag is up. -/
def left (capacity : Nat) (l : EventLoop) : Nat :=
  match l.point with
  | .returned => 0
  | .waiting => capacity
  | .batch n => n

/-- A machine whose steps are those of an event loop, as `view` sees its states and `actions` its steps: what
    it handles and when it waits is no more than what the event loop does. -/
structure Implements {σ : Type u} {α : Type v} (M : Machine σ α) (capacity : Nat) (I : σ → Prop)
    (view : σ → EventLoop) (actions : σ → α → List Action) (handled waited : σ → α → Nat) : Prop where
  keeps : ∀ s a s', I s → M.step s a = some s' → I s'
  simulates : ∀ s a s', I s → M.step s a = some s' →
    (machine capacity).run (view s) (actions s a) = some (view s')
  handled_le : ∀ s a s', I s → M.step s a = some s' →
    handled s a ≤ (machine capacity).total handles (view s) (actions s a)
  waited_le : ∀ s a s', I s → M.step s a = some s' →
    waited s a ≤ (machine capacity).total waits (view s) (actions s a)

end EventLoop

end TagSim
