import TagSim.Runs.Transducer

/-!
# Atomic integers

The atomic operations of `shims.h`, once as the macros for Windows and once as those for C11. The thread that
executes them has one atomic integer and a variable `expected`. Arithmetic wraps around. A macro is given the text
of its operand, which matters where the text is not put into parentheses.
-/

namespace TagSim.Shims

abbrev Word := BitVec 32

/-- The atomic integer and the variable that compare-exchanges are given. -/
structure Cell where
  atomic : Word
  expected : Word
  deriving DecidableEq, Repr

/-- The text of an operand. A value is a variable, a literal, or anything else that a minus sign before it applies to
    as a whole, such as an expression in parentheses. -/
inductive Operand where
  | value (value : Word)
  | binary (op : Word → Word → Word) (left right : Operand)
  | conditional (condition left right : Operand)

namespace Operand

/-- The value of an operand. -/
def eval : Operand → Word
  | value v => v
  | binary op left right => op left.eval right.eval
  | conditional condition left right => if condition.eval ≠ 0 then left.eval else right.eval

/-- The value of an operand with a minus sign before it: every other operator binds less tightly, so that the sign
    is that of the first value in the text. -/
def negated : Operand → Word
  | value v => -v
  | binary op left right => op left.negated right.eval
  | conditional condition left right => if condition.negated ≠ 0 then left.eval else right.eval

end Operand

/-- The macros of a platform. Each gives the contents that it leaves, and its return value. -/
structure Macros where
  atomicLoad : Word → Word
  atomicStore : Word → Operand → Word
  atomicFetchAdd : Word → Operand → Word × Word
  atomicFetchSub : Word → Operand → Word × Word
  atomicCompareExchangeStrong : Cell → Operand → Cell × Word

namespace Windows

/-- `_InterlockedAdd` returns the contents after the addition. -/
def interlockedAdd (ptr value : Word) : Word × Word := (ptr + value, ptr + value)

/-- `InterlockedCompareExchange` returns the contents before the exchange. -/
def interlockedCompareExchange (ptr exchange comperand : Word) : Word × Word :=
  (if ptr = comperand then exchange else ptr, ptr)

def macros : Macros where
  atomicLoad ptr := ptr
  atomicStore _ value := value.eval
  atomicFetchAdd ptr value := interlockedAdd ptr value.eval
  atomicFetchSub ptr value := interlockedAdd ptr value.negated
  atomicCompareExchangeStrong c desired :=
    let exchanged := interlockedCompareExchange c.atomic desired.eval c.expected
    ({ c with atomic := exchanged.1 }, if exchanged.2 = c.expected then 1 else 0)

end Windows

namespace C11

/-- `atomic_fetch_add_explicit` returns the contents before the addition. -/
def atomicFetchAddExplicit (ptr value : Word) : Word × Word := (ptr + value, ptr)

def atomicFetchSubExplicit (ptr value : Word) : Word × Word := (ptr - value, ptr)

/-- `atomic_compare_exchange_strong_explicit` writes the contents to `expected` when they are something else. -/
def atomicCompareExchangeStrongExplicit (c : Cell) (desired : Word) : Cell × Word :=
  if c.atomic = c.expected then ({ c with atomic := desired }, 1) else ({ c with expected := c.atomic }, 0)

def macros : Macros where
  atomicLoad ptr := ptr
  atomicStore _ value := value.eval
  atomicFetchAdd ptr value := atomicFetchAddExplicit ptr value.eval
  atomicFetchSub ptr value := atomicFetchSubExplicit ptr value.eval
  atomicCompareExchangeStrong c desired := atomicCompareExchangeStrongExplicit c desired.eval

end C11

/-- An operation with its operand. -/
inductive Op where
  | load
  | store (value : Operand)
  | fetchAdd (value : Operand)
  | fetchSub (value : Operand)
  | compareExchangeStrong (desired : Operand)

/-- The cell after an operation, and what the operation returns. A store returns nothing. -/
def Macros.step (m : Macros) (c : Cell) : Op → Cell × Option Word
  | .load => (c, some (m.atomicLoad c.atomic))
  | .store value => ({ c with atomic := m.atomicStore c.atomic value }, none)
  | .fetchAdd value =>
    ({ c with atomic := (m.atomicFetchAdd c.atomic value).1 }, some (m.atomicFetchAdd c.atomic value).2)
  | .fetchSub value =>
    ({ c with atomic := (m.atomicFetchSub c.atomic value).1 }, some (m.atomicFetchSub c.atomic value).2)
  | .compareExchangeStrong desired =>
    ((m.atomicCompareExchangeStrong c desired).1, some (m.atomicCompareExchangeStrong c desired).2)

/-- The thread on Windows. -/
def windows : Transducer Cell Op (Option Word) := ⟨Windows.macros.step⟩

/-- The thread on a platform with C11. -/
def c11 : Transducer Cell Op (Option Word) := ⟨C11.macros.step⟩

/-- The operation adds nothing, or it finds what it expects. -/
def Op.Portable (c : Cell) : Op → Prop
  | .load => True
  | .store _ => True
  | .fetchAdd value => value.eval = 0
  | .fetchSub value => value.eval = 0 ∧ value.negated = 0
  | .compareExchangeStrong _ => c.atomic = c.expected

/-- The minus sign that `atomic_fetch_sub` writes before its operand applies to the whole of it. -/
def Op.NegatedWhole : Op → Prop
  | .fetchSub value => value.negated = -value.eval
  | _ => True

end TagSim.Shims
