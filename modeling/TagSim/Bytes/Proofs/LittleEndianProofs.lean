import Mathlib.Algebra.BigOperators.Ring.Finset
import Mathlib.Tactic.Ring
import TagSim.Bytes.LittleEndian

/-!
# Laws of byte strings and little-endian numbers

The two directions between a number and its bytes, writes one after another, and what a write leaves alone.
-/

namespace TagSim.Bytes

universe u

section Numbers

variable {b : Byte} {as bs : List Byte}

@[simp] theorem natLE_nil : natLE [] = 0 := rfl

@[simp] theorem natLE_cons : natLE (b :: bs) = b.toNat + 256 * natLE bs := by
  simp [natLE, Nat.ofDigits_cons]

@[simp] theorem length_bytesLE (w x : Nat) : (bytesLE w x).length = w := by
  induction w generalizing x with
  | zero => rfl
  | succ w ih => rw [bytesLE, List.length_cons, ih]

theorem natLE_lt (bs : List Byte) : natLE bs < 256 ^ bs.length := by
  induction bs with
  | nil => exact Nat.one_pos
  | cons b bs ih =>
    have hb := b.isLt
    rw [natLE_cons, List.length_cons, Nat.pow_succ]
    omega

/-- A number is that of its bytes, if it has no more of them. -/
theorem natLE_bytesLE {w x : Nat} (h : x < 256 ^ w) : natLE (bytesLE w x) = x := by
  induction w generalizing x with
  | zero =>
    rw [Nat.pow_zero] at h
    rw [bytesLE, natLE_nil]
    omega
  | succ w ih =>
    rw [Nat.pow_succ] at h
    have hrest : x / 256 < 256 ^ w := by omega
    rw [bytesLE, natLE_cons, ih hrest, BitVec.toNat_ofNat]
    omega

/-- Bytes are those of their number. -/
theorem bytesLE_natLE (bs : List Byte) : bytesLE bs.length (natLE bs) = bs := by
  induction bs with
  | nil => rfl
  | cons b bs ih =>
    have hb := b.isLt
    have hdiv : (b.toNat + 256 * natLE bs) / 256 = natLE bs := by omega
    have hmod : BitVec.ofNat 8 (b.toNat + 256 * natLE bs) = b := by
      apply BitVec.eq_of_toNat_eq
      rw [BitVec.toNat_ofNat]
      omega
    rw [List.length_cons, bytesLE, natLE_cons, hdiv, hmod, ih]

theorem natLE_append (as bs : List Byte) : natLE (as ++ bs) = natLE as + 256 ^ as.length * natLE bs := by
  simp [natLE, Nat.ofDigits_append]

/-- Every byte is that of the number without the less significant ones. -/
theorem bytesLE_eq_map (w x : Nat) :
    bytesLE w x = (List.range w).map fun i => BitVec.ofNat 8 (x / 2 ^ (8 * i)) := by
  induction w generalizing x with
  | zero => rfl
  | succ w ih =>
    have hshift : ∀ i, x / 256 / 2 ^ (8 * i) = x / 2 ^ (8 * (i + 1)) := by
      intro i
      rw [Nat.div_div_eq_div_mul, Nat.mul_succ, Nat.pow_add, Nat.mul_comm]
    rw [bytesLE, ih, List.range_succ_eq_map, List.map_cons, List.map_map]
    simp [hshift, Function.comp_def]

/-- Every byte counts with its power of 256. -/
theorem natLE_eq_sum (bs : List Byte) :
    natLE bs = ∑ i ∈ Finset.range bs.length, (bs.getD i 0).toNat * 256 ^ i := by
  induction bs with
  | nil => rfl
  | cons b bs ih =>
    rw [natLE_cons, ih, List.length_cons, Finset.sum_range_succ', Finset.mul_sum, Nat.add_comm]
    simp only [List.getD_cons_zero, List.getD_cons_succ, Nat.pow_zero, Nat.mul_one]
    congr 1
    refine Finset.sum_congr rfl fun i _ => ?_
    rw [Nat.pow_succ]
    ring

end Numbers

section Words

variable {n : Nat}

/-- The least significant byte of a word that has been shifted to the right. -/
theorem setWidth_ushiftRight (v : BitVec n) (k : Nat) (hn : 8 ≤ n) :
    ((v >>> k) &&& BitVec.ofNat n 255).setWidth 8 = BitVec.ofNat 8 (v.toNat / 2 ^ k) := by
  have hmask : 255 % 2 ^ n = 2 ^ 8 - 1 :=
    Nat.mod_eq_of_lt (Nat.lt_of_lt_of_le (by decide) (Nat.pow_le_pow_right (by decide) hn))
  apply BitVec.eq_of_toNat_eq
  rw [BitVec.toNat_setWidth, BitVec.toNat_and, BitVec.toNat_ofNat, BitVec.toNat_ofNat,
    BitVec.toNat_ushiftRight, hmask, Nat.and_two_pow_sub_one_eq_mod, Nat.shiftRight_eq_div_pow, Nat.mod_mod]

/-- The bytes of a word are cut out by shifting and masking. -/
theorem bytesLE_word (w : Nat) (v : BitVec n) (hn : 8 ≤ n) : bytesLE w v.toNat =
    (List.range w).map fun i => ((v >>> (8 * i)) &&& BitVec.ofNat n 255).setWidth 8 := by
  rw [bytesLE_eq_map]
  simp only [setWidth_ushiftRight v _ hn]

/-- A byte joined to a word above all bits that are set. -/
theorem toNat_or_shiftLeft {x : BitVec n} {k : Nat} (b : Byte) (hx : x.toNat < 2 ^ k) (hk : k + 8 ≤ n) :
    (x ||| b.setWidth n <<< k).toNat = x.toNat + 2 ^ k * b.toNat := by
  have hb : b.toNat < 2 ^ 8 := b.isLt
  have hpow : 2 ^ (k + 8) ≤ 2 ^ n := Nat.pow_le_pow_right (by decide) hk
  have hwide : b.toNat < 2 ^ n :=
    Nat.lt_of_lt_of_le hb (Nat.pow_le_pow_right (by decide) (by omega))
  have hfits : b.toNat * 2 ^ k < 2 ^ n := by
    rw [Nat.pow_add] at hpow
    have := Nat.mul_lt_mul_of_pos_right hb (Nat.two_pow_pos k)
    rw [Nat.mul_comm (2 ^ 8)] at this
    omega
  rw [BitVec.toNat_or, BitVec.toNat_shiftLeft, BitVec.toNat_setWidth, Nat.mod_eq_of_lt hwide,
    Nat.shiftLeft_eq, Nat.mod_eq_of_lt hfits, Nat.mul_comm, Nat.or_comm,
    ← Nat.two_pow_add_eq_or_of_lt hx, Nat.add_comm]

/-- The next byte of a number is joined to a word. -/
theorem toNat_or_natLE {x : BitVec n} {bs : List Byte} (k : Nat) (b : Byte) (hx : x.toNat = natLE bs)
    (hk : k = 8 * bs.length) (hn : k + 8 ≤ n) : (x ||| b.setWidth n <<< k).toNat = natLE (bs ++ [b]) := by
  have hpow : 256 ^ bs.length = 2 ^ k := by
    rw [hk, Nat.pow_mul]
  have hlt : x.toNat < 2 ^ k := by
    rw [hx, ← hpow]
    exact natLE_lt bs
  rw [toNat_or_shiftLeft b hlt hn, hx, natLE_append, hpow, natLE_cons, natLE_nil, Nat.mul_zero, Nat.add_zero]

end Words

section Segments

variable {α : Type u} {buf as bs cs : List α} {p : Nat}

@[simp] theorem splice_nil (buf : List α) (p : Nat) : splice buf p [] = buf := by
  simp [splice]

theorem length_splice (h : p + bs.length ≤ buf.length) : (splice buf p bs).length = buf.length := by
  simp only [splice, List.length_append, List.length_take, List.length_drop]
  omega

/-- Two writes, the second one where the first one ends. -/
theorem splice_splice (h : p ≤ buf.length) :
    splice (splice buf p as) (p + as.length) bs = splice buf p (as ++ bs) := by
  have hlen : (buf.take p ++ as).length = p + as.length := by simp [h]
  have htake : (splice buf p as).take (p + as.length) = buf.take p ++ as := by
    rw [splice, ← hlen, List.take_left]
  have hdrop : (splice buf p as).drop (p + as.length + bs.length) =
      buf.drop (p + (as ++ bs).length) := by
    rw [splice, ← hlen, List.drop_length_add_append, List.drop_drop, hlen, List.length_append, Nat.add_assoc]
  rw [splice, htake, hdrop, splice]
  simp

/-- A write of one element. -/
theorem splice_singleton {b : α} (h : p < buf.length) : splice buf p [b] = buf.set p b := by
  rw [splice, List.set_eq_take_append_cons_drop, if_pos h]
  simp

/-- A write leaves everything else alone. -/
theorem getElem?_splice_of_outside {i : Nat} (h : p + bs.length ≤ buf.length)
    (hi : i < p ∨ p + bs.length ≤ i) : (splice buf p bs)[i]? = buf[i]? := by
  have hlen : (buf.take p).length = p := by
    rw [List.length_take]
    omega
  rcases hi with hi | hi
  · rw [splice, List.append_assoc, List.getElem?_append_left (by omega), List.getElem?_take_of_lt hi]
  · rw [splice, List.getElem?_append_right (by simp [hlen]; omega), List.getElem?_drop]
    congr 1
    rw [List.length_append, hlen]
    omega

/-- What was written can be cut out. -/
theorem slice_splice (h : p ≤ buf.length) :
    slice (splice buf p (as ++ bs ++ cs)) (p + as.length) bs.length = bs := by
  have hlen : (buf.take p ++ as).length = p + as.length := by simp [h]
  have hparts : splice buf p (as ++ bs ++ cs) =
      (buf.take p ++ as) ++ (bs ++ (cs ++ buf.drop (p + (as ++ bs ++ cs).length))) := by
    simp [splice]
  rw [slice, hparts, ← hlen, List.drop_left, List.take_left]

theorem slice_succ {n : Nat} (h : p < buf.length) : slice buf p (n + 1) = buf[p] :: slice buf (p + 1) n := by
  rw [slice, List.drop_eq_getElem_cons h, List.take_succ_cons, slice]

theorem slice_append {m n : Nat} : slice buf p (m + n) = slice buf p m ++ slice buf (p + m) n := by
  rw [slice, List.take_add, List.drop_drop, slice, slice]

/-- A write over a list of the same length. -/
theorem splice_all (h : buf.length = bs.length) : splice buf 0 bs = bs := by
  simp [splice, ← h]

theorem getD_slice {d : α} {n i : Nat} (h : i < n) : (slice buf p n).getD i d = buf.getD (p + i) d := by
  rw [List.getD_eq_getElem?_getD, List.getD_eq_getElem?_getD, slice, List.getElem?_take_of_lt h,
    List.getElem?_drop]

end Segments

end TagSim.Bytes
