import TagSim.Bytes.Proofs.LittleEndianProofs
import TagSim.Util.Buf

/-!
# The codec is little-endian

Each encoder writes the bytes of its value and each decoder reads a number from the bytes, in little-endian
order. Fields that are encoded back to back are one write, so they are read back as they were, and a byte
string is the encoding of what is read from it.
-/

namespace TagSim.Buf

open Bytes

variable {buf bs : List Byte} {p : Nat}

section Stores

theorem store_first {b : Byte} (h : p < buf.length) : store buf p b = some (splice buf p [b]) := by
  rw [store, if_pos h, splice_singleton h]

/-- A store right after what has been written. -/
theorem store_splice {i : Nat} {b : Byte} (hi : i = p + bs.length) (h : i < buf.length) :
    store (splice buf p bs) i b = some (splice buf p (bs ++ [b])) := by
  have hlen : (splice buf p bs).length = buf.length := length_splice (by omega)
  rw [store, hlen, if_pos h, ← splice_singleton (by rw [hlen]; exact h), hi, splice_splice (by omega)]

theorem load_eq (h : p < buf.length) : load buf p = some buf[p] := List.getElem?_eq_getElem h

/-- A store right after what has been written, and what follows it. -/
theorem store_bind {i : Nat} {b : Byte} {next : List Byte → Option (List Byte)} {result : Option (List Byte)}
    (hi : i = p + bs.length) (h : i < buf.length) (hnext : next (splice buf p (bs ++ [b])) = result) :
    store (splice buf p bs) i b >>= next = result := by
  rw [store_splice hi h]
  exact hnext

end Stores

section Encode

theorem encodeUint16Le_eq (v : BitVec 16) (h : p + 2 ≤ buf.length) :
    encodeUint16Le buf p v = some (splice buf p (bytesLE 2 v.toNat)) := by
  have hpromoted : (v.setWidth 32).toNat = v.toNat := by
    have hv := v.isLt
    rw [BitVec.toNat_setWidth]
    omega
  unfold encodeUint16Le
  rw [← hpromoted, bytesLE_word 2 _ (by decide)]
  show (store buf p _ >>= _) = _
  rw [store_first (by omega)]
  exact store_splice rfl (by omega)

theorem encodeUint32Le_eq (v : BitVec 32) (h : p + 4 ≤ buf.length) :
    encodeUint32Le buf p v = some (splice buf p (bytesLE 4 v.toNat)) := by
  unfold encodeUint32Le
  rw [bytesLE_word 4 _ (by decide), store_first (by omega)]
  refine store_bind rfl (by omega) ?_
  refine store_bind rfl (by omega) ?_
  exact store_splice rfl (by omega)

theorem encodeUint64Le_eq (v : BitVec 64) (h : p + 8 ≤ buf.length) :
    encodeUint64Le buf p v = some (splice buf p (bytesLE 8 v.toNat)) := by
  unfold encodeUint64Le
  rw [bytesLE_word 8 _ (by decide), store_first (by omega)]
  refine store_bind rfl (by omega) ?_
  refine store_bind rfl (by omega) ?_
  refine store_bind rfl (by omega) ?_
  refine store_bind rfl (by omega) ?_
  refine store_bind rfl (by omega) ?_
  refine store_bind rfl (by omega) ?_
  exact store_splice rfl (by omega)

end Encode

section Decode

theorem toNat_first {n : Nat} (b : Byte) (hn : 8 ≤ n) : (b.setWidth n).toNat = natLE [b] := by
  have hb : b.toNat < 2 ^ n := Nat.lt_of_lt_of_le b.isLt (Nat.pow_le_pow_right (by decide) hn)
  rw [BitVec.toNat_setWidth, Nat.mod_eq_of_lt hb, natLE_cons, natLE_nil, Nat.mul_zero, Nat.add_zero]

/-- A word with the value of some bytes. -/
theorem eq_ofNat_natLE {n : Nat} {x : BitVec n} (hx : x.toNat = natLE bs) : x = BitVec.ofNat n (natLE bs) := by
  rw [← hx, BitVec.ofNat_toNat, BitVec.setWidth_eq]

theorem decodeUint16Le_eq (h : p + 2 ≤ buf.length) :
    decodeUint16Le buf p = some (BitVec.ofNat 16 (natLE (slice buf p 2))) := by
  have hslice : slice buf p 2 = [buf[p], buf[p + 1]] := by
    rw [slice_succ (by omega), slice_succ (by omega)]
    rfl
  have hcast : ∀ b : Byte, (b.setWidth 16).setWidth 32 = b.setWidth 32 := by
    intro b
    have hb := b.isLt
    apply BitVec.eq_of_toNat_eq
    simp only [BitVec.toNat_setWidth]
    omega
  unfold decodeUint16Le
  rw [load_eq (by omega), load_eq (by omega), hslice]
  have h₀ := toNat_first buf[p] (by decide : 8 ≤ 32)
  have h₁ := toNat_or_natLE 8 buf[p + 1] h₀ rfl (by decide)
  show some (BitVec.setWidth 16 (_ ||| _)) = _
  rw [hcast, hcast, eq_ofNat_natLE h₁, BitVec.setWidth_ofNat_of_le (by decide)]
  rfl

theorem decodeUint32Le_eq (h : p + 4 ≤ buf.length) :
    decodeUint32Le buf p = some (BitVec.ofNat 32 (natLE (slice buf p 4))) := by
  have hslice : slice buf p 4 = [buf[p], buf[p + 1], buf[p + 2], buf[p + 3]] := by
    rw [slice_succ (by omega), slice_succ (by omega), slice_succ (by omega), slice_succ (by omega)]
    rfl
  unfold decodeUint32Le
  rw [load_eq (by omega), load_eq (by omega), load_eq (by omega), load_eq (by omega), hslice]
  have h₀ := toNat_first buf[p] (by decide : 8 ≤ 32)
  have h₁ := toNat_or_natLE 8 buf[p + 1] h₀ rfl (by decide)
  have h₂ := toNat_or_natLE 16 buf[p + 2] h₁ rfl (by decide)
  have h₃ := toNat_or_natLE 24 buf[p + 3] h₂ rfl (by decide)
  exact congrArg some (eq_ofNat_natLE h₃)

theorem decodeUint64Le_eq (h : p + 8 ≤ buf.length) :
    decodeUint64Le buf p = some (BitVec.ofNat 64 (natLE (slice buf p 8))) := by
  have hslice : slice buf p 8 = [buf[p], buf[p + 1], buf[p + 2], buf[p + 3], buf[p + 4], buf[p + 5],
      buf[p + 6], buf[p + 7]] := by
    rw [slice_succ (by omega), slice_succ (by omega), slice_succ (by omega), slice_succ (by omega),
      slice_succ (by omega), slice_succ (by omega), slice_succ (by omega), slice_succ (by omega)]
    rfl
  unfold decodeUint64Le
  rw [load_eq (by omega), load_eq (by omega), load_eq (by omega), load_eq (by omega), load_eq (by omega),
    load_eq (by omega), load_eq (by omega), load_eq (by omega), hslice]
  have h₀ := toNat_first buf[p] (by decide : 8 ≤ 64)
  have h₁ := toNat_or_natLE 8 buf[p + 1] h₀ rfl (by decide)
  have h₂ := toNat_or_natLE 16 buf[p + 2] h₁ rfl (by decide)
  have h₃ := toNat_or_natLE 24 buf[p + 3] h₂ rfl (by decide)
  have h₄ := toNat_or_natLE 32 buf[p + 4] h₃ rfl (by decide)
  have h₅ := toNat_or_natLE 40 buf[p + 5] h₄ rfl (by decide)
  have h₆ := toNat_or_natLE 48 buf[p + 6] h₅ rfl (by decide)
  have h₇ := toNat_or_natLE 56 buf[p + 7] h₆ rfl (by decide)
  exact congrArg some (eq_ofNat_natLE h₇)

end Decode

/-! ## Fields -/

namespace Field

/-- The bytes of a field. -/
def bytes (f : Field) : List Byte := bytesLE f.width.bytes f.value

/-- The field of a width that has a number for its value. -/
def ofNat (n : Nat) : Width → Field
  | .uint16 => .uint16 (BitVec.ofNat 16 n)
  | .uint32 => .uint32 (BitVec.ofNat 32 n)
  | .uint64 => .uint64 (BitVec.ofNat 64 n)

@[simp] theorem length_bytes (f : Field) : f.bytes.length = f.width.bytes := length_bytesLE ..

@[simp] theorem width_ofNat (n : Nat) (w : Width) : (ofNat n w).width = w := by
  cases w <;> rfl

theorem value_lt (f : Field) : f.value < 256 ^ f.width.bytes := by
  cases f with
  | uint16 value => exact value.isLt
  | uint32 value => exact value.isLt
  | uint64 value => exact value.isLt

theorem natLE_bytes (f : Field) : natLE f.bytes = f.value := natLE_bytesLE f.value_lt

theorem ofNat_value (f : Field) : ofNat f.value f.width = f := by
  cases f with
  | uint16 value => exact congrArg Field.uint16 (by simp [Field.value])
  | uint32 value => exact congrArg Field.uint32 (by simp [Field.value])
  | uint64 value => exact congrArg Field.uint64 (by simp [Field.value])

theorem value_ofNat {n : Nat} {w : Width} (h : n < 256 ^ w.bytes) : (ofNat n w).value = n := by
  cases w with
  | uint16 => exact Nat.mod_eq_of_lt h
  | uint32 => exact Nat.mod_eq_of_lt h
  | uint64 => exact Nat.mod_eq_of_lt h

/-- The bytes of a field that was read are those that were read. -/
theorem bytes_ofNat {bs : List Byte} {w : Width} (h : bs.length = w.bytes) : (ofNat (natLE bs) w).bytes = bs := by
  have hlt : natLE bs < 256 ^ w.bytes := h ▸ natLE_lt bs
  rw [bytes, width_ofNat, value_ofNat hlt, ← h, bytesLE_natLE]

theorem encode_eq (f : Field) (h : p + f.width.bytes ≤ buf.length) :
    f.encode buf p = some (splice buf p f.bytes) := by
  cases f with
  | uint16 value => exact encodeUint16Le_eq value h
  | uint32 value => exact encodeUint32Le_eq value h
  | uint64 value => exact encodeUint64Le_eq value h

theorem decode_eq (w : Width) (h : p + w.bytes ≤ buf.length) :
    decode buf p w = some (ofNat (natLE (slice buf p w.bytes)) w) := by
  cases w with
  | uint16 => exact congrArg (Option.map _) (decodeUint16Le_eq h)
  | uint32 => exact congrArg (Option.map _) (decodeUint32Le_eq h)
  | uint64 => exact congrArg (Option.map _) (decodeUint64Le_eq h)

end Field

/-! ## Records -/

section Records

variable {f : Field} {fs : List Field} {w : Width} {ws : List Width}

theorem size_cons : size (w :: ws) = w.bytes + size ws := by
  simp [size]

/-- The bytes of fields back to back. -/
def record (fs : List Field) : List Byte := fs.flatMap Field.bytes

theorem length_record (fs : List Field) : (record fs).length = size (fs.map Field.width) := by
  induction fs with
  | nil => rfl
  | cons f fs ih =>
    rw [record, List.flatMap_cons, List.length_append, List.map_cons, size_cons, Field.length_bytes, ← ih, record]

/-- Encoding fields back to back is one write. -/
theorem encodeFields_eq (h : p + size (fs.map Field.width) ≤ buf.length) :
    encodeFields buf p fs = some (splice buf p (record fs)) := by
  induction fs generalizing buf p with
  | nil => rw [encodeFields, record, List.flatMap_nil, splice_nil]
  | cons f fs ih =>
    rw [List.map_cons, size_cons] at h
    have hfirst : f.encode buf p = some (splice buf p f.bytes) := f.encode_eq (by omega)
    have hlen : (splice buf p f.bytes).length = buf.length :=
      length_splice (by rw [Field.length_bytes]; omega)
    have hrest : encodeFields (splice buf p f.bytes) (p + f.width.bytes) fs =
        some (splice (splice buf p f.bytes) (p + f.width.bytes) (record fs)) := ih (by omega)
    have hjoin : splice (splice buf p f.bytes) (p + f.width.bytes) (record fs) =
        splice buf p (record (f :: fs)) := by
      rw [← f.length_bytes, splice_splice (by omega), record, record, List.flatMap_cons]
    rw [encodeFields, hfirst]
    exact hrest.trans (congrArg some hjoin)

/-- What decoding fields back to back reads. -/
theorem decodeFields_eq (ws : List Width) (p : Nat) (h : p + size ws ≤ buf.length) :
    ∃ fs, decodeFields buf p ws = some fs ∧ fs.map Field.width = ws ∧ record fs = slice buf p (size ws) := by
  induction ws generalizing p with
  | nil => exact ⟨[], rfl, rfl, rfl⟩
  | cons w ws ih =>
    rw [size_cons] at h
    obtain ⟨fs, hdecode, hwidths, hrecord⟩ := ih (p + w.bytes) (by omega)
    have hlen : (slice buf p w.bytes).length = w.bytes := by
      rw [slice, List.length_take, List.length_drop]
      omega
    refine ⟨Field.ofNat (natLE (slice buf p w.bytes)) w :: fs, ?_, ?_, ?_⟩
    · rw [decodeFields, Field.decode_eq w (by omega), hdecode]
      rfl
    · rw [List.map_cons, Field.width_ofNat, hwidths]
    · rw [record, List.flatMap_cons, Field.bytes_ofNat hlen, size_cons, slice_append, ← hrecord, record]

/-- Fields are told by their widths and their bytes. -/
theorem record_injective {gs : List Field} (hwidths : fs.map Field.width = gs.map Field.width)
    (hrecord : record fs = record gs) : fs = gs := by
  induction fs generalizing gs with
  | nil =>
    cases gs with
    | nil => rfl
    | cons g gs => cases hwidths
  | cons f fs ih =>
    cases gs with
    | nil => cases hwidths
    | cons g gs =>
      obtain ⟨hwidth, hwidths⟩ := List.cons.inj hwidths
      rw [record, record, List.flatMap_cons, List.flatMap_cons] at hrecord
      have hlen : f.bytes.length = g.bytes.length := by
        rw [Field.length_bytes, Field.length_bytes, hwidth]
      obtain ⟨hbytes, hrecord⟩ := List.append_inj hrecord hlen
      have hvalue : f.value = g.value := by
        rw [← f.natLE_bytes, ← g.natLE_bytes, hbytes]
      rw [ih hwidths hrecord, ← f.ofNat_value, ← g.ofNat_value, hvalue, hwidth]

theorem record_append (fs gs : List Field) : record (fs ++ gs) = record fs ++ record gs := by
  rw [record, List.flatMap_append, record, record]

/-- Fields that have been written are decoded as they were. -/
theorem decodeFields_splice (h : p + size (fs.map Field.width) ≤ buf.length) :
    decodeFields (splice buf p (record fs)) p (fs.map Field.width) = some fs := by
  have hlength := length_record fs
  have hspliced : (splice buf p (record fs)).length = buf.length := length_splice (by omega)
  obtain ⟨gs, hdecode, hwidths, hrecord⟩ := decodeFields_eq (fs.map Field.width) p (h.trans hspliced.ge)
  have hcut : slice (splice buf p ([] ++ record fs ++ [])) (p + 0) (record fs).length = record fs :=
    slice_splice (by omega)
  rw [List.nil_append, List.append_nil, Nat.add_zero, hlength] at hcut
  rw [hdecode, record_injective hwidths (hrecord.trans hcut)]

/-- A field that has been written is the little-endian number of its bytes. -/
theorem value_eq_sum (h : p + size (fs.map Field.width) ≤ buf.length) (pre post : List Field)
    (hfs : fs = pre ++ f :: post) : f.value = ∑ i ∈ Finset.range f.width.bytes,
      ((splice buf p (record fs)).getD (p + size (pre.map Field.width) + i) 0).toNat * 256 ^ i := by
  have hrecord : record fs = record pre ++ f.bytes ++ record post := by
    rw [hfs, record_append, List.append_assoc]
    rfl
  have hcut : slice (splice buf p (record fs)) (p + size (pre.map Field.width)) f.width.bytes = f.bytes := by
    rw [hrecord, ← length_record pre, ← f.length_bytes]
    exact slice_splice (by omega)
  rw [← f.natLE_bytes, natLE_eq_sum, f.length_bytes]
  refine Finset.sum_congr rfl fun i hi => ?_
  rw [← getD_slice (Finset.mem_range.mp hi), hcut]

/-- A byte string that fields are decoded from is what encoding them makes. -/
theorem encodeFields_decodeFields {bytes : List Byte} (h : bytes.length = size ws) :
    ∃ fs, decodeFields bytes 0 ws = some fs ∧ fs.map Field.width = ws ∧
      ∀ buf, buf.length = bytes.length → encodeFields buf 0 fs = some bytes := by
  obtain ⟨fs, hdecode, hwidths, hrecord⟩ := decodeFields_eq ws 0 (by omega : 0 + size ws ≤ bytes.length)
  have hall : record fs = bytes := by
    rw [hrecord, slice, List.drop_zero, ← h, List.take_length]
  refine ⟨fs, hdecode, hwidths, fun buf hbuf => ?_⟩
  rw [encodeFields_eq (by rw [hwidths]; omega), hall, splice_all hbuf]

/-- The codec on whole records. Fields that are encoded back to back, from any position of a buffer with
    enough room, are decoded as they were, every field is the little-endian number of its bytes, and nothing
    else in the buffer changes. A byte string that fields are decoded from is what encoding them makes. -/
theorem codec :
    (∀ (fs : List Field) (buf : List Byte) (p : Nat), p + size (fs.map Field.width) ≤ buf.length →
      ∃ buf', encodeFields buf p fs = some buf' ∧ decodeFields buf' p (fs.map Field.width) = some fs ∧
        (∀ pre f post, fs = pre ++ f :: post → f.value = ∑ i ∈ Finset.range f.width.bytes,
          (buf'.getD (p + size (pre.map Field.width) + i) 0).toNat * 256 ^ i) ∧
        buf'.length = buf.length ∧
        ∀ i, i < p ∨ p + size (fs.map Field.width) ≤ i → buf'[i]? = buf[i]?) ∧
    ∀ (ws : List Width) (bytes : List Byte), bytes.length = size ws →
      ∃ fs, decodeFields bytes 0 ws = some fs ∧ fs.map Field.width = ws ∧
        ∀ buf, buf.length = bytes.length → encodeFields buf 0 fs = some bytes := by
  refine ⟨fun fs buf p hroom => ?_, fun ws bytes hlength => encodeFields_decodeFields hlength⟩
  have hroom' : p + (record fs).length ≤ buf.length := by
    rw [length_record]
    exact hroom
  refine ⟨splice buf p (record fs), encodeFields_eq hroom, decodeFields_splice hroom,
    fun pre f post hfs => value_eq_sum hroom pre post hfs, length_splice hroom', fun i hi => ?_⟩
  rw [← length_record] at hi
  exact getElem?_splice_of_outside hroom' hi

/-- A command, a length and a session handle in the middle of a buffer. -/
example : (encodeFields (List.replicate 10 0xFF) 1 [.uint16 0x65, .uint16 4, .uint32 0x1234]) =
    some [0xFF, 0x65, 0, 4, 0, 0x34, 0x12, 0, 0, 0xFF] := by
  rfl

theorem codec_header : ∃ buf', encodeFields (List.replicate 10 0xFF) 1
    [.uint16 0x65, .uint16 4, .uint32 0x1234] = some buf' ∧
    decodeFields buf' 1 [.uint16, .uint16, .uint32] = some [.uint16 0x65, .uint16 4, .uint32 0x1234] := by
  obtain ⟨buf', hencode, hdecode, -⟩ := codec.1 [.uint16 0x65, .uint16 4, .uint32 0x1234]
    (List.replicate 10 0xFF) 1 (by decide)
  exact ⟨buf', hencode, hdecode⟩

end Records

end TagSim.Buf
