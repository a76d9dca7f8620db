import Mathlib.Data.Nat.Digits.Defs

/-!
# Byte strings and little-endian numbers

A number in a fixed number of bytes, the least significant byte first, and a segment of a list that is
written over or cut out.
-/

namespace TagSim.Bytes

universe u

abbrev Byte := BitVec 8

/-- The number that the bytes are the digits of, the least significant one first. -/
def natLE (bs : List Byte) : Nat := Nat.ofDigits 256 (bs.map BitVec.toNat)

/-- The `w` least significant bytes of a number. -/
def bytesLE : Nat → Nat → List Byte
  | 0, _ => []
  | w + 1, x => BitVec.ofNat 8 x :: bytesLE w (x / 256)

variable {α : Type u}

/-- `bs` written over `buf` from position `p` on. -/
def splice (buf : List α) (p : Nat) (bs : List α) : List α :=
  buf.take p ++ bs ++ buf.drop (p + bs.length)

/-- The `n` elements of `buf` from position `p` on. -/
def slice (buf : List α) (p n : Nat) : List α := (buf.drop p).take n

end TagSim.Bytes
