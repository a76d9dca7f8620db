import TagSim.Text.CString

/-!
# Hex dumps

A hex dump shows sixteen bytes a line: the decimal offset of the first one, with at least four digits, and
two lower-case hex digits for each byte, after a space. Reading checks the offset of every line.
-/

namespace TagSim.Text

open Bytes

/-- The two digits of a byte. -/
def hexDigits (b : Byte) : List Char := [Nat.digitChar (b.toNat / 16), Nat.digitChar (b.toNat % 16)]

/-- The bytes of a line, each after a space. -/
def hexBytes (bytes : List Byte) : List Char := bytes.flatMap fun b => ' ' :: hexDigits b

/-- The line of the bytes that start at an offset. -/
def dumpLine (offset : Nat) (bytes : List Byte) : List Char := padded 10 4 offset ++ hexBytes bytes

/-- The bytes that line `r` shows. -/
def rowBytes (bytes : List Byte) (r : Nat) : List Byte := slice bytes (16 * r) 16

/-- The lines of `n` rows from row `r` on. -/
def dumpRows (bytes : List Byte) (r n : Nat) : List (List Char) :=
  (List.range' r n).map fun i => dumpLine (16 * i) (rowBytes bytes i)

/-- The rows that the bytes take. -/
def rowCount (n : Nat) : Nat := (n + 15) / 16

/-- The lines of the whole dump. -/
def dumpLines (bytes : List Byte) : List (List Char) := dumpRows bytes 0 (rowCount bytes.length)

/-- The lower-case hex digits, each at the position of its value. -/
def hexAlphabet : List Char :=
  ['0', '1', '2', '3', '4', '5', '6', '7', '8', '9', 'a', 'b', 'c', 'd', 'e', 'f']

/-- The value of a hex digit. -/
def readHexDigit (c : Char) : Option Nat := hexAlphabet.idxOf? c

/-- The bytes of a line are read back. -/
def readHexBytes : List Char → Option (List Byte)
  | [] => some []
  | ' ' :: high :: low :: text => do
    let high ← readHexDigit high
    let low ← readHexDigit low
    let bytes ← readHexBytes text
    some (BitVec.ofNat 8 (16 * high + low) :: bytes)
  | _ => none

/-- The offset of a line and its bytes. -/
def readLine (line : List Char) : Option (Nat × List Byte) := do
  let digits := line.takeWhile (· ≠ ' ')
  let bytes ← readHexBytes (line.dropWhile (· ≠ ' '))
  if digits.all Char.isDigit then some (Nat.ofDigitChars 10 digits 0, bytes) else none

/-- The bytes of lines that start at an offset. -/
def readLines : Nat → List (List Char) → Option (List Byte)
  | _, [] => some []
  | offset, line :: lines => do
    let (start, bytes) ← readLine line
    let rest ← readLines (offset + bytes.length) lines
    if start = offset then some (bytes ++ rest) else none

/-- The bytes of a dump. -/
def readDump (text : List Char) : Option (List Byte) := readLines 0 (lines text)

end TagSim.Text
