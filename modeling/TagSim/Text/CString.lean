import TagSim.Bytes.LittleEndian

/-!
# Character arrays and formatted text

A character array holds a string, which ends before its first null character. `snprintf` writes as much of a
text as a part of the array has room for, ends it with a null character, and returns the length of the whole
text, so that a caller can tell that the text has been cut off.
-/

namespace TagSim.Text

open Bytes

/-- The string that a character array holds. -/
def cString (buf : List Char) : List Char := buf.takeWhile (· ≠ '\x00')

/-- `snprintf` of `text` into the `size` characters from position `p` of `buf` on. -/
def snprintf (buf : List Char) (p size : Nat) (text : List Char) : List Char × Nat :=
  if size = 0 then (buf, text.length)
  else (splice buf p (text.take (size - 1) ++ ['\x00']), text.length)

/-- The array holds the string `text`, which its null character ends. -/
def Holds (buf text : List Char) : Prop :=
  '\x00' ∉ text ∧ ∃ rest, buf = text ++ '\x00' :: rest

/-- The digits of `n` in base `b`, at least `w` of them. -/
def padded (b w n : Nat) : List Char := (Nat.toDigits b n).leftpad w '0'

/-- A text of lines, each with its line feed. -/
def unlines (lines : List (List Char)) : List Char := lines.flatMap (· ++ ['\n'])

/-- The lines of a text. -/
def lines (text : List Char) : List (List Char) := (text.splitOn '\n').dropLast

end TagSim.Text
