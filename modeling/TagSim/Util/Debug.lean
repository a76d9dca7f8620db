import TagSim.Text.CString

/-!
# Logging

The functions of `debug.c`, and `ptr_before` of `time_utils.h`. What a function prints to `stderr` is a text.
`debug_dump_ptr` keeps a record of its calls of `snprintf` and of the addresses that it reads. Integers wrap
around.
-/

namespace TagSim.Debug

open Bytes Text

/-- What the C standard leaves to the compiler. -/
structure Platform where
  /-- The bits of a pointer, of an `intptr_t` and of a `size_t`. -/
  bits : Nat
  sixteen_le : 16 ≤ bits
  le_sixtyFour : bits ≤ 64
  /-- An enumeration without negative enumerators is an `unsigned int`, not an `int`. -/
  enumUnsigned : Bool

/-- A platform of 64 bits, whose compiler takes an `unsigned int` for such an enumeration. -/
def Platform.lp64 : Platform := ⟨64, by decide, by decide, true⟩

/-- The conversion of an integer to `debug_level_t`. -/
def Platform.toLevel (P : Platform) (n : Int) : Int :=
  if P.enumUnsigned then n % 4294967296 else n.bmod 4294967296

def debugWarn : Int := 1

def debugInfo : Int := 2

def debugDetail : Int := 3

def debugFlood : Int := 4

def debugError : Int := 1000

/-- The level that is kept of the one asked for. -/
def debugSetLevel (level : Int) : Int :=
  if level < debugWarn then debugWarn
  else if level > debugFlood then debugFlood
  else level

/-- The word that a line of the log starts with. -/
def levelPrefix (level : Int) : String :=
  if level = debugWarn then "WARN"
  else if level = debugInfo then "INFO"
  else if level = debugDetail then "DETAIL"
  else if level = debugFlood then "FLOOD"
  else if level = debugError then "ERROR"
  else "UNKNOWN"

/-- `message` is what `vfprintf` makes of the template and its arguments. -/
def debugImpl (debugLevel : Int) (func : String) (line level : Int) (message : String) : List Char :=
  if level ≤ debugLevel ∨ level = debugError then
    (levelPrefix level).toList ++ [' '] ++ func.toList ++ [':'] ++ (toString line).toList ++ [' '] ++
      message.toList ++ ['\n']
  else []

def warn (debugLevel : Int) (func : String) (line : Int) (message : String) : List Char :=
  debugImpl debugLevel func line debugWarn message

/-- `ROW_BUF_SIZE` -/
def rowBufSize : Nat := 300

/-- `COLUMNS` -/
def columns : Nat := 16

/-- A call of `snprintf` on the row buffer: where it writes, the size it is given, and the length of the text
    it has to write. -/
structure Print where
  rowOffset : Nat
  size : Nat
  needed : Nat
  deriving DecidableEq, Repr

/-- The variables of `debug_dump_ptr`, what it has printed, and the record of what it has done. -/
structure Dump (w : Nat) where
  curBuf : BitVec w
  offset : BitVec w
  rowOffset : BitVec w
  rowBuf : List Char
  stderr : List Char
  prints : List Print
  reads : List (BitVec w)

section Rows

variable {w : Nat} (mem : BitVec w → Byte) (endBuf : BitVec w)

def ptrBefore (ptr endPtr : BitVec w) : Bool :=
  decide (ptr ≠ 0 ∧ endPtr ≠ 0 ∧ ptr.toInt < endPtr.toInt)

/-- `snprintf` into the row buffer from `row_offset` on, which then moves behind the text. -/
def Dump.print (d : Dump w) (size : BitVec w) (text : List Char) : Dump w :=
  let written := snprintf d.rowBuf d.rowOffset.toNat size.toNat text
  { d with
    rowBuf := written.1
    rowOffset := d.rowOffset + BitVec.ofNat w written.2
    prints := d.prints ++ [⟨d.rowOffset.toNat, size.toNat, written.2⟩] }

/-- The offset of a row is printed, and the columns start behind it. -/
def startRow (row : BitVec w) (d : Dump w) : Dump w :=
  let offset := row * BitVec.ofNat w columns
  { d with offset := offset, rowOffset := 0 }.print (BitVec.ofNat w (rowBufSize + 1)) (padded 10 4 offset.toNat)

/-- The body and the step of the inner loop. -/
def column (d : Dump w) : Dump w :=
  let d := { d with reads := d.reads ++ [d.curBuf] }.print (BitVec.ofNat w rowBufSize - d.rowOffset)
    (' ' :: padded 16 2 (mem d.curBuf).toNat)
  { d with curBuf := d.curBuf + 1, offset := d.offset + 1 }

/-- The inner loop, with `n` columns left. -/
def columnLoop : Nat → Dump w → Dump w
  | 0, d => d
  | n + 1, d =>
    if ptrBefore d.curBuf endBuf ∧ d.rowOffset < BitVec.ofNat w (rowBufSize + 1) then
      columnLoop n (column mem d)
    else d

/-- The row buffer is printed as a line. -/
def endRow (d : Dump w) : Dump w := { d with stderr := d.stderr ++ (cString d.rowBuf ++ ['\n']) }

/-- The outer loop, with `n` rows left. -/
def rowLoop : Nat → BitVec w → Dump w → Dump w
  | 0, _, d => d
  | n + 1, row, d => rowLoop n (row + 1) (endRow (columnLoop mem endBuf columns (startRow row d)))

/-- The variables at the start of a call. -/
def Dump.start (startBuf : BitVec w) : Dump w where
  curBuf := startBuf
  offset := 0
  rowOffset := 0
  rowBuf := List.replicate (rowBufSize + 1) '\x00'
  stderr := []
  prints := []
  reads := []

end Rows

/-- `debug_dump_ptr` on the contents `mem` of the memory. -/
def debugDumpPtr {w : Nat} (mem : BitVec w → Byte) (debugLevel level : Int) (startBuf endBuf : BitVec w) :
    Dump w :=
  let d := Dump.start startBuf
  if level ≤ debugLevel then d
  else if startBuf = 0 ∨ endBuf = 0 then
    { d with stderr := warn debugLevel "debug_dump_ptr" 94 "Called with null pointer(s) to data!" }
  else
    let dataLen := endBuf - startBuf
    if dataLen.toInt ≤ 0 then
      { d with
        stderr := warn debugLevel "debug_dump_ptr" 101
          "Called with no data to print or start_buf buffer > end_buf buffer!" }
    else
      let maxRow := (dataLen + (BitVec.ofNat w columns - 1)) / BitVec.ofNat w columns
      rowLoop mem endBuf maxRow.toNat 0 d

/-- A logging call of the program. -/
inductive Call (P : Platform) where
  | impl (func : String) (line level : Int) (message : String)
  | dump (level : Int) (mem : BitVec P.bits → Byte) (startBuf endBuf : BitVec P.bits)

variable {P : Platform}

/-- What a call prints. -/
def Call.output (debugLevel : Int) : Call P → List Char
  | .impl func line level message => debugImpl debugLevel func line (P.toLevel level) message
  | .dump level mem startBuf endBuf =>
    (debugDumpPtr mem debugLevel (P.toLevel level) startBuf endBuf).stderr

/-- What the calls print, one after the other, after `debug_set_level(a)`. -/
def outputs (a : Int) (calls : List (Call P)) : List (List Char) :=
  calls.map (Call.output (debugSetLevel (P.toLevel a)))

/-- Every call that prints something in the run `before` prints the same in the run `after`. -/
def Retains (before after : List (List Char)) : Prop := List.Forall₂ (fun x y => x ≠ [] → y = x) before after

/-- Neither filter turns a call down that it let pass: the level of a message does not lie above `b` and up to
    `a`, and the level of a dump does not lie above `a` and up to `b`. -/
def Call.Kept (a b : Int) : Call P → Prop
  | .impl _ _ level _ =>
    ¬ (debugInfo ≤ P.toLevel level ∧ P.toLevel level ≤ debugFlood ∧
      P.toLevel b < P.toLevel level ∧ P.toLevel level ≤ P.toLevel a)
  | .dump level _ _ _ =>
    ¬ (debugInfo ≤ P.toLevel level ∧ P.toLevel level ≤ debugFlood ∧
      P.toLevel a < P.toLevel level ∧ P.toLevel level ≤ P.toLevel b)

end TagSim.Debug
