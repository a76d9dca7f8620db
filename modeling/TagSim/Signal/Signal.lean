import Mathlib.Data.Set.Insert

/-!
# A flag and a channel of tokens

A waiter tests a flag and, when it is down, waits for a token. Any number of parties put tokens, and a party
that raises the flag puts a token afterwards. The waiter takes a token only when it has been told of one,
whoever put it.
-/

namespace TagSim

universe u

/-- The flag, the tokens that have not been taken, and where the waiter and the parties stand. -/
structure Signal (ι : Type u) where
  raised : Bool
  tokens : Nat
  /-- The waiter has seen the flag down and waits. -/
  waiting : Bool
  /-- The waiter has been told of a token that it has not taken yet. -/
  promised : Bool
  /-- The parties that have raised the flag and not put their token yet. -/
  owing : Set ι

namespace Signal

variable {ι : Type u}

/-- Nothing has happened yet. -/
def start : Signal ι := ⟨false, 0, false, false, ∅⟩

/-- The steps of the parties and of the waiter. -/
inductive Step : Signal ι → Signal ι → Prop
  | raise (s) (i) : Step s { s with raised := true, owing := insert i s.owing }
  | put (s) (i) : Step s { s with tokens := s.tokens + 1, owing := s.owing \ {i} }
  | wait (s) (hdown : s.raised = false) (hdone : s.promised = false) : Step s { s with waiting := true }
  | interrupt (s) : Step s { s with waiting := false }
  | wake (s) (told : Bool) (htold : told = true → 0 < s.tokens) :
      Step s { s with waiting := false, promised := told }
  | take (s) (htold : s.promised = true) (htoken : 0 < s.tokens) :
      Step s { s with tokens := s.tokens - 1, promised := false }

/-- The invariant: a waiter that has missed the flag has a token to come, and one that has been told of a
    token finds one. -/
structure Sound (s : Signal ι) : Prop where
  idle : s.waiting = true → s.promised = false
  heard : s.waiting = true → s.raised = true → 0 < s.tokens ∨ s.owing.Nonempty
  kept : s.promised = true → 0 < s.tokens

end Signal

end TagSim
