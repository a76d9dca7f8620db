import TagSim.Bytes.LittleEndian

/-!
# The little-endian codec

The functions of `buf.h` on a buffer and a position in it. A store or a load outside of the buffer has no
result. A `uint16_t` is promoted to `int`, which is 32 bits wide and which the values here never fill.
-/

namespace TagSim.Buf

open Bytes

/-- `buf[i] = b` -/
def store (buf : List Byte) (i : Nat) (b : Byte) : Option (List Byte) :=
  if i < buf.length then some (buf.set i b) else none

/-- `buf[i]` -/
def load (buf : List Byte) (i : Nat) : Option Byte := buf[i]?

def encodeUint16Le (buf : List Byte) (p : Nat) (value : BitVec 16) : Option (List Byte) := do
  let promoted : BitVec 32 := value.setWidth 32
  let buf ← store buf p ((promoted &&& 0xFF).setWidth 8)
  store buf (p + 1) (((promoted >>> 8) &&& 0xFF).setWidth 8)

def decodeUint16Le (buf : List Byte) (p : Nat) : Option (BitVec 16) := do
  let b₀ ← load buf p
  let b₁ ← load buf (p + 1)
  let promoted : BitVec 32 := (b₀.setWidth 16).setWidth 32 ||| (b₁.setWidth 16).setWidth 32 <<< 8
  some (promoted.setWidth 16)

def encodeUint32Le (buf : List Byte) (p : Nat) (value : BitVec 32) : Option (List Byte) := do
  let buf ← store buf p ((value &&& 0xFF).setWidth 8)
  let buf ← store buf (p + 1) (((value >>> 8) &&& 0xFF).setWidth 8)
  let buf ← store buf (p + 2) (((value >>> 16) &&& 0xFF).setWidth 8)
  store buf (p + 3) (((value >>> 24) &&& 0xFF).setWidth 8)

def decodeUint32Le (buf : List Byte) (p : Nat) : Option (BitVec 32) := do
  let b₀ ← load buf p
  let b₁ ← load buf (p + 1)
  let b₂ ← load buf (p + 2)
  let b₃ ← load buf (p + 3)
  some (b₀.setWidth 32 ||| b₁.setWidth 32 <<< 8 ||| b₂.setWidth 32 <<< 16 ||| b₃.setWidth 32 <<< 24)

def encodeUint64Le (buf : List Byte) (p : Nat) (value : BitVec 64) : Option (List Byte) := do
  let buf ← store buf p ((value &&& 0xFF).setWidth 8)
  let buf ← store buf (p + 1) (((value >>> 8) &&& 0xFF).setWidth 8)
  let buf ← store buf (p + 2) (((value >>> 16) &&& 0xFF).setWidth 8)
  let buf ← store buf (p + 3) (((value >>> 24) &&& 0xFF).setWidth 8)
  let buf ← store buf (p + 4) (((value >>> 32) &&& 0xFF).setWidth 8)
  let buf ← store buf (p + 5) (((value >>> 40) &&& 0xFF).setWidth 8)
  let buf ← store buf (p + 6) (((value >>> 48) &&& 0xFF).setWidth 8)
  store buf (p + 7) (((value >>> 56) &&& 0xFF).setWidth 8)

def decodeUint64Le (buf : List Byte) (p : Nat) : Option (BitVec 64) := do
  let b₀ ← load buf p
  let b₁ ← load buf (p + 1)
  let b₂ ← load buf (p + 2)
  let b₃ ← load buf (p + 3)
  let b₄ ← load buf (p + 4)
  let b₅ ← load buf (p + 5)
  let b₆ ← load buf (p + 6)
  let b₇ ← load buf (p + 7)
  some (b₀.setWidth 64 ||| b₁.setWidth 64 <<< 8 ||| b₂.setWidth 64 <<< 16 ||| b₃.setWidth 64 <<< 24 |||
    b₄.setWidth 64 <<< 32 ||| b₅.setWidth 64 <<< 40 ||| b₆.setWidth 64 <<< 48 ||| b₇.setWidth 64 <<< 56)

/-- The types of the fields of a record. -/
inductive Width where
  | uint16 | uint32 | uint64
  deriving DecidableEq, Repr

/-- `sizeof` -/
def Width.bytes : Width → Nat
  | .uint16 => 2
  | .uint32 => 4
  | .uint64 => 8

/-- A field of a record. -/
inductive Field where
  | uint16 (value : BitVec 16)
  | uint32 (value : BitVec 32)
  | uint64 (value : BitVec 64)
  deriving DecidableEq, Repr

namespace Field

def width : Field → Width
  | .uint16 _ => .uint16
  | .uint32 _ => .uint32
  | .uint64 _ => .uint64

def value : Field → Nat
  | .uint16 value => value.toNat
  | .uint32 value => value.toNat
  | .uint64 value => value.toNat

def encode (buf : List Byte) (p : Nat) : Field → Option (List Byte)
  | .uint16 value => encodeUint16Le buf p value
  | .uint32 value => encodeUint32Le buf p value
  | .uint64 value => encodeUint64Le buf p value

def decode (buf : List Byte) (p : Nat) : Width → Option Field
  | .uint16 => (decodeUint16Le buf p).map .uint16
  | .uint32 => (decodeUint32Le buf p).map .uint32
  | .uint64 => (decodeUint64Le buf p).map .uint64

end Field

/-- The number of bytes that fields of these widths take. -/
def size (ws : List Width) : Nat := (ws.map Width.bytes).sum

/-- Fields are encoded back to back. -/
def encodeFields (buf : List Byte) (p : Nat) : List Field → Option (List Byte)
  | [] => some buf
  | f :: fs => do
    let buf ← f.encode buf p
    encodeFields buf (p + f.width.bytes) fs

/-- Fields are decoded back to back. -/
def decodeFields (buf : List Byte) (p : Nat) : List Width → Option (List Field)
  | [] => some []
  | w :: ws => do
    let f ← Field.decode buf p w
    let fs ← decodeFields buf (p + w.bytes) ws
    some (f :: fs)

end TagSim.Buf
