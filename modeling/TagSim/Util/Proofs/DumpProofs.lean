import TagSim.Util.Debug
import TagSim.Text.Proofs.HexDumpProofs

/-!
# The hex dump of a buffer

The invariant of the loops of `debug_dump_ptr` says what is left of the buffer behind the cursor and what has
been printed. Within a row, the row buffer also holds the text of the row so far, and `row_offset` is its
length. Every column takes one byte off what is left, so that the sixteen columns of a row take sixteen bytes
or all of them.
-/

namespace TagSim.Debug

open Bytes Text

variable {w : Nat}

/-! ## Numbers of the width of a pointer -/

theorem toNat_small {k : Nat} (hw : 16 ≤ w) (hk : k < 65536) : (BitVec.ofNat w k).toNat = k := by
  have hpow : 2 ^ 16 ≤ 2 ^ w := Nat.pow_le_pow_right (by decide) hw
  rw [BitVec.toNat_ofNat, Nat.mod_eq_of_lt (by omega)]

theorem toNat_add_small {x : BitVec w} {k : Nat} (hw : 16 ≤ w) (h : x.toNat + k < 65536) :
    (x + BitVec.ofNat w k).toNat = x.toNat + k := by
  have hpow : 2 ^ 16 ≤ 2 ^ w := Nat.pow_le_pow_right (by decide) hw
  rw [BitVec.toNat_add, toNat_small hw (by omega), Nat.mod_eq_of_lt (by omega)]

/-- `1` -/
theorem toNat_one (hw : 16 ≤ w) : (1 : BitVec w).toNat = 1 := toNat_small hw (by decide)

/-- `COLUMNS` -/
theorem toNat_columns (hw : 16 ≤ w) : (BitVec.ofNat w columns).toNat = 16 := toNat_small hw (by decide)

/-- `sizeof(row_buf)` -/
theorem toNat_sizeof (hw : 16 ≤ w) : (BitVec.ofNat w (rowBufSize + 1)).toNat = rowBufSize + 1 :=
  toNat_small hw (by decide)

theorem toInt_bounds (x : BitVec w) : -((2 ^ w : Nat) : Int) ≤ x.toInt * 2 ∧ x.toInt * 2 < (2 ^ w : Nat) := by
  have hlow := BitVec.le_two_mul_toInt (x := x)
  have hhigh := BitVec.two_mul_toInt_lt (x := x)
  have hcast : ((2 ^ w : Nat) : Int) = 2 ^ w := Int.natCast_pow 2 w
  omega

/-- The address after one that is not the last. -/
theorem toInt_succ {x y : BitVec w} (hw : 16 ≤ w) (h : x.toInt < y.toInt) : (x + 1).toInt = x.toInt + 1 := by
  have hone : (1 : BitVec w).toInt = 1 := BitVec.toInt_one (by omega)
  have hx := toInt_bounds x
  have hy := toInt_bounds y
  rw [BitVec.toInt_add, hone, Int.bmod_eq_of_le_mul_two (by omega) (by omega)]

/-- The distance of two addresses that are not too far apart. -/
theorem toNat_sub_of_toInt {x y : BitVec w} {n : Nat} (hn : y.toInt - x.toInt = n)
    (hside : x.toInt < 0 ↔ y.toInt < 0) : (y - x).toInt = n ∧ (y - x).toNat = n := by
  have hint : (y - x).toInt = n := by
    have hx := toInt_bounds x
    have hy := toInt_bounds y
    rw [BitVec.toInt_sub, hn, Int.bmod_eq_of_le_mul_two (by omega) (by omega)]
  refine ⟨hint, ?_⟩
  have hlt := (y - x).isLt
  rw [BitVec.toInt_eq_toNat_cond] at hint
  split at hint <;> omega

/-! ## The cursor -/

/-- The bytes `rest` are left between the cursor and the end, which are on one side of address 0. -/
structure Cursor (mem : BitVec w → Byte) (endBuf : BitVec w) (rest : List Byte) (cur : BitVec w) : Prop where
  distance : cur.toInt + rest.length = endBuf.toInt
  sameSide : 0 < cur.toInt ∨ endBuf.toInt < 0
  bytes : ∀ i (h : i < rest.length), mem (cur + BitVec.ofNat w i) = rest[i]

section Cursor

variable {mem : BitVec w → Byte} {endBuf cur : BitVec w} {b : Byte} {rest : List Byte}

theorem toInt_ne_zero {x : BitVec w} (h : x.toInt ≠ 0) : x ≠ 0 := by
  rintro rfl
  exact h BitVec.toInt_zero

theorem Cursor.ptrBefore_iff (h : Cursor mem endBuf rest cur) : ptrBefore cur endBuf = true ↔ rest ≠ [] := by
  have hdistance := h.distance
  have hside := h.sameSide
  have hcur : cur ≠ 0 := toInt_ne_zero (by omega)
  have hend : endBuf ≠ 0 := toInt_ne_zero (by omega)
  rw [ptrBefore, decide_eq_true_iff, ← List.length_pos_iff]
  constructor
  · rintro ⟨-, -, hlt⟩
    omega
  · intro hpos
    exact ⟨hcur, hend, by omega⟩

theorem Cursor.head (h : Cursor mem endBuf (b :: rest) cur) : mem cur = b := by
  have hbyte := h.bytes 0 (by simp)
  rwa [BitVec.add_zero] at hbyte

theorem Cursor.lt (h : Cursor mem endBuf (b :: rest) cur) : cur.toInt < endBuf.toInt := by
  have hdistance := h.distance
  rw [List.length_cons] at hdistance
  omega

theorem Cursor.tail (hw : 16 ≤ w) (h : Cursor mem endBuf (b :: rest) cur) :
    Cursor mem endBuf rest (cur + 1) where
  distance := by
    have hdistance := h.distance
    rw [List.length_cons] at hdistance
    rw [toInt_succ hw h.lt]
    omega
  sameSide := by
    have hside := h.sameSide
    rw [toInt_succ hw h.lt]
    omega
  bytes := by
    intro i hi
    have hnext : cur + 1 + BitVec.ofNat w i = cur + BitVec.ofNat w (i + 1) := by
      rw [BitVec.add_assoc, BitVec.ofNat_add, BitVec.add_comm (BitVec.ofNat w i)]
      rfl
    rw [hnext, h.bytes (i + 1) (by simpa using hi), List.getElem_cons_succ]

end Cursor

/-! ## What the loops keep -/

/-- The text fits into the part of the row buffer that the call was given, and the part into the buffer. -/
def Print.Fits (p : Print) : Prop :=
  p.rowOffset + p.needed < rowBufSize ∧ p.needed < p.size ∧ p.rowOffset + p.size ≤ rowBufSize + 1

/-- Between rows: the bytes `rest` are left, `out` has been printed, every call of `snprintf` had room, and
    every address that was read is one of the buffer. -/
structure Dumping (mem : BitVec w → Byte) (startBuf endBuf : BitVec w) (rest : List Byte) (out : List Char)
    (d : Dump w) : Prop where
  room : d.rowBuf.length = rowBufSize + 1
  stderr : d.stderr = out
  cursor : Cursor mem endBuf rest d.curBuf
  started : startBuf.toInt ≤ d.curBuf.toInt
  prints : ∀ p ∈ d.prints, p.Fits
  reads : ∀ a ∈ d.reads, startBuf.toInt ≤ a.toInt ∧ a.toInt < endBuf.toInt

/-- Within a row: the row buffer holds the text of the row so far. -/
structure InRow (mem : BitVec w → Byte) (startBuf endBuf : BitVec w) (text : List Char) (rest : List Byte)
    (out : List Char) (d : Dump w) : Prop extends Dumping mem startBuf endBuf rest out d where
  holds : Holds d.rowBuf text
  position : d.rowOffset.toNat = text.length

variable {mem : BitVec w → Byte} {startBuf endBuf : BitVec w} {text new : List Char} {rest : List Byte}
  {out : List Char} {d : Dump w}

/-- A text for which there is room is printed behind the text of the row. -/
theorem print_inRow (size : BitVec w) (hw : 16 ≤ w) (h : Dumping mem startBuf endBuf rest out d)
    (htake : d.rowBuf.take d.rowOffset.toNat = text) (htext : '\x00' ∉ text)
    (hpos : d.rowOffset.toNat = text.length) (hnew : '\x00' ∉ new)
    (hroom : text.length + new.length < rowBufSize) (hsize : new.length < size.toNat)
    (hpart : text.length + size.toNat ≤ rowBufSize + 1) :
    InRow mem startBuf endBuf (text ++ new) rest out (d.print size new) where
  room := by
    show (snprintf _ _ _ _).1.length = _
    rw [length_snprintf hsize (by rw [h.room]; omega), h.room]
  stderr := h.stderr
  cursor := h.cursor
  started := h.started
  prints := by
    intro p hp
    rcases List.mem_append.mp hp with hp | hp
    · exact h.prints p hp
    · obtain rfl := List.mem_singleton.mp hp
      rw [Print.Fits, hpos, snprintf_snd]
      exact ⟨hroom, hsize, hpart⟩
  reads := h.reads
  holds := holds_snprintf htake htext hnew hsize
  position := by
    have hlen : rowBufSize = 300 := rfl
    show (d.rowOffset + BitVec.ofNat w (snprintf _ _ _ _).2).toNat = _
    rw [snprintf_snd, toNat_add_small hw (by omega), hpos, List.length_append]

theorem nul_not_mem_hexBytes (bytes : List Byte) : '\x00' ∉ hexBytes bytes := by
  intro hc
  exact absurd (mem_hexBytes hc) (by decide)

/-! ## One row -/

/-- A column prints the next byte. -/
theorem column_inRow {b : Byte} (hw : 16 ≤ w) (h : InRow mem startBuf endBuf text (b :: rest) out d)
    (hroom : text.length + 3 < rowBufSize) :
    InRow mem startBuf endBuf (text ++ hexBytes [b]) rest out (column mem d) := by
  have hlt : d.curBuf.toInt < endBuf.toInt := h.cursor.lt
  have hnew : (' ' :: padded 16 2 (mem d.curBuf).toNat) = hexBytes [b] := by
    rw [h.cursor.head, padded_hex]
    rfl
  have hsize : (BitVec.ofNat w rowBufSize - d.rowOffset).toNat = rowBufSize - text.length := by
    have hbuf : (BitVec.ofNat w rowBufSize).toNat = rowBufSize := toNat_small hw (by decide)
    rw [BitVec.toNat_sub_of_le, hbuf, h.position]
    rw [BitVec.le_def, hbuf, h.position]
    omega
  have hread : Dumping mem startBuf endBuf (b :: rest) out { d with reads := d.reads ++ [d.curBuf] } :=
    { h.toDumping with
      reads := by
        intro a ha
        rcases List.mem_append.mp ha with ha | ha
        · exact h.reads a ha
        · rw [List.mem_singleton.mp ha]
          exact ⟨h.started, hlt⟩ }
  have hprint := print_inRow (BitVec.ofNat w rowBufSize - d.rowOffset) hw hread
    (h.position ▸ h.holds.take_eq) h.holds.1 h.position (nul_not_mem_hexBytes [b])
    (by simpa using hroom) (by rw [hsize, length_hexBytes]; simp; omega) (by rw [hsize]; omega)
  rw [column, hnew]
  exact {
    room := hprint.room
    stderr := hprint.stderr
    cursor := h.cursor.tail hw
    started := by
      have hstarted := h.started
      show startBuf.toInt ≤ (d.curBuf + 1).toInt
      rw [toInt_succ hw hlt]
      omega
    prints := hprint.prints
    reads := hprint.reads
    holds := hprint.holds
    position := hprint.position }

/-- The inner loop prints as many bytes as there are columns left, or all of them. -/
theorem columnLoop_inRow (n : Nat) (hw : 16 ≤ w) (h : InRow mem startBuf endBuf text rest out d)
    (hroom : text.length + 3 * n < rowBufSize) :
    InRow mem startBuf endBuf (text ++ hexBytes (rest.take n)) (rest.drop n) out
      (columnLoop mem endBuf n d) := by
  induction n generalizing text rest d with
  | zero =>
    rw [columnLoop, List.take_zero, List.drop_zero]
    simpa [hexBytes] using h
  | succ n ih =>
    rw [columnLoop]
    have hlt : d.rowOffset < BitVec.ofNat w (rowBufSize + 1) := by
      rw [BitVec.lt_def, toNat_sizeof hw, h.position]
      omega
    cases rest with
    | nil =>
      have hstop : ¬ ptrBefore d.curBuf endBuf = true := fun hgo => h.cursor.ptrBefore_iff.mp hgo rfl
      rw [if_neg fun hgo => hstop hgo.1]
      simpa [hexBytes] using h
    | cons b rest =>
      rw [if_pos ⟨h.cursor.ptrBefore_iff.mpr (List.cons_ne_nil b rest), hlt⟩, List.take_succ_cons,
        List.drop_succ_cons, ← List.singleton_append, hexBytes_append, ← List.append_assoc]
      refine ih (column_inRow hw h (by omega)) ?_
      rw [List.length_append, length_hexBytes, List.length_singleton]
      omega

/-- A `size_t` has at most twenty digits. -/
theorem length_padded_size {k : Nat} (hw' : w ≤ 64) (hk : k < 2 ^ w) : (padded 10 4 k).length ≤ 20 := by
  have hpow : 2 ^ w ≤ 2 ^ 64 := Nat.pow_le_pow_right (by decide) hw'
  have hten : 2 ^ 64 < 10 ^ 20 := by norm_num
  exact length_padded_le (by decide) (by decide) (by decide) (by omega)

/-- The offset of a row starts its text. -/
theorem startRow_inRow {row : BitVec w} {r : Nat} (hw : 16 ≤ w) (hw' : w ≤ 64)
    (hrow : (row * BitVec.ofNat w columns).toNat = 16 * r) (h : Dumping mem startBuf endBuf rest out d) :
    InRow mem startBuf endBuf (padded 10 4 (16 * r)) rest out (startRow row d) := by
  have hlt : 16 * r < 2 ^ w := by
    rw [← hrow]
    exact (row * BitVec.ofNat w columns).isLt
  have hdigits := length_padded_size hw' hlt
  have hnul : '\x00' ∉ padded 10 4 (16 * r) := fun hc => absurd (isDigit_of_mem_padded hc) (by decide)
  have hzero : (0 : BitVec w).toNat = 0 := BitVec.toNat_zero
  have hbuf : (BitVec.ofNat w (rowBufSize + 1)).toNat = rowBufSize + 1 := toNat_sizeof hw
  have hlen : rowBufSize = 300 := rfl
  have hstart : Dumping mem startBuf endBuf rest out
      { d with offset := row * BitVec.ofNat w columns, rowOffset := 0 } :=
    ⟨h.room, h.stderr, h.cursor, h.started, h.prints, h.reads⟩
  have hprint : InRow mem startBuf endBuf ([] ++ padded 10 4 (16 * r)) rest out (Dump.print _ _ _) :=
    print_inRow (BitVec.ofNat w (rowBufSize + 1)) hw hstart (by rw [hzero, List.take_zero])
      List.not_mem_nil hzero hnul (by rw [List.length_nil]; omega) (by omega) (by rw [List.length_nil]; omega)
  rw [startRow, hrow]
  exact hprint

/-- The text of the row is printed as a line. -/
theorem endRow_dumping (h : InRow mem startBuf endBuf text rest out d) :
    Dumping mem startBuf endBuf rest (out ++ (text ++ ['\n'])) (endRow d) where
  room := h.room
  stderr := by
    show d.stderr ++ (cString d.rowBuf ++ ['\n']) = _
    rw [h.stderr, h.holds.cString_eq]
  cursor := h.cursor
  started := h.started
  prints := h.prints
  reads := h.reads

/-- A row prints its line, of the next sixteen bytes or of all that are left. -/
theorem row_dumping {bytes : List Byte} {row : BitVec w} {r : Nat} (hw : 16 ≤ w) (hw' : w ≤ 64)
    (hrow : (row * BitVec.ofNat w columns).toNat = 16 * r)
    (h : Dumping mem startBuf endBuf (bytes.drop (16 * r)) out d) :
    Dumping mem startBuf endBuf (bytes.drop (16 * (r + 1)))
      (out ++ (dumpLine (16 * r) (rowBytes bytes r) ++ ['\n']))
      (endRow (columnLoop mem endBuf columns (startRow row d))) := by
  have hlt : 16 * r < 2 ^ w := by
    rw [← hrow]
    exact (row * BitVec.ofNat w columns).isLt
  have hdigits := length_padded_size hw' hlt
  have hroom : (padded 10 4 (16 * r)).length + 3 * columns < rowBufSize := by
    show _ + 3 * 16 < 300
    omega
  have hline := columnLoop_inRow columns hw (startRow_inRow hw hw' hrow h) hroom
  rw [List.drop_drop] at hline
  exact endRow_dumping hline

/-! ## All rows -/

/-- The rows from `r` on print the rest of the dump. -/
theorem rowLoop_dumping {bytes : List Byte} {row : BitVec w} {r : Nat} (n : Nat) (hw : 16 ≤ w) (hw' : w ≤ 64)
    (hfits : 16 * (r + n) < 2 ^ w) (hrow : row.toNat = r)
    (h : Dumping mem startBuf endBuf (bytes.drop (16 * r)) out d) :
    Dumping mem startBuf endBuf (bytes.drop (16 * (r + n))) (out ++ unlines (dumpRows bytes r n))
      (rowLoop mem endBuf n row d) := by
  induction n generalizing row r out d with
  | zero => simpa [rowLoop, dumpRows, unlines] using h
  | succ n ih =>
    have hoffset : (row * BitVec.ofNat w columns).toNat = 16 * r := by
      rw [BitVec.toNat_mul, toNat_columns hw, hrow, Nat.mod_eq_of_lt (by omega), Nat.mul_comm]
    have hnext : (row + 1).toNat = r + 1 := by
      rw [BitVec.toNat_add, toNat_one hw, hrow, Nat.mod_eq_of_lt (by omega)]
    have hloop := ih (by omega) hnext (row_dumping hw hw' hoffset h)
    have hindex : r + (n + 1) = r + 1 + n := by omega
    have hout : out ++ unlines (dumpRows bytes r (n + 1)) =
        out ++ (dumpLine (16 * r) (rowBytes bytes r) ++ ['\n']) ++ unlines (dumpRows bytes (r + 1) n) := by
      rw [dumpRows_succ, unlines_cons]
      exact (List.append_assoc ..).symm
    rw [rowLoop, hindex, hout]
    exact hloop

/-- The variables before the first row. -/
theorem start_dumping (h : Cursor mem endBuf rest startBuf) :
    Dumping mem startBuf endBuf rest [] (Dump.start startBuf) where
  room := List.length_replicate
  stderr := rfl
  cursor := h
  started := le_refl _
  prints := by simp [Dump.start]
  reads := by simp [Dump.start]

theorem cursor_start {bytes : List Byte} (hstart : startBuf ≠ 0) (hside : startBuf.toInt < 0 ↔ endBuf.toInt < 0)
    (hlen : endBuf.toInt - startBuf.toInt = bytes.length)
    (hbytes : ∀ i (h : i < bytes.length), mem (startBuf + BitVec.ofNat w i) = bytes[i]) :
    Cursor mem endBuf bytes startBuf where
  distance := by omega
  sameSide := by
    have hne : startBuf.toInt ≠ 0 := fun hzero =>
      hstart (BitVec.eq_of_toInt_eq (hzero.trans BitVec.toInt_zero.symm))
    omega
  bytes := hbytes

/-- The number of rows of a buffer. -/
theorem toNat_maxRow {x : BitVec w} {n : Nat} (hw : 16 ≤ w) (hn : x.toNat = n) (hfits : 2 * n < 2 ^ w) :
    ((x + (BitVec.ofNat w columns - 1)) / BitVec.ofNat w columns).toNat = rowCount n := by
  have hpow : 2 ^ 16 ≤ 2 ^ w := Nat.pow_le_pow_right (by decide) hw
  have hadd : (BitVec.ofNat w columns - 1).toNat = 15 := by
    rw [BitVec.toNat_sub_of_le, toNat_columns hw, toNat_one hw]
    rw [BitVec.le_def, toNat_columns hw, toNat_one hw]
    decide
  rw [BitVec.toNat_udiv, BitVec.toNat_add, hadd, toNat_columns hw, hn, Nat.mod_eq_of_lt (by omega)]
  rfl

/-- Whenever the level, the pointers and the length let it, a call dumps the whole buffer. -/
theorem debugDumpPtr_dumping {debugLevel level : Int} {bytes : List Byte} (hw : 16 ≤ w) (hw' : w ≤ 64)
    (hlevel : debugLevel < level) (hstart : startBuf ≠ 0) (hend : endBuf ≠ 0)
    (hside : startBuf.toInt < 0 ↔ endBuf.toInt < 0) (hlen : endBuf.toInt - startBuf.toInt = bytes.length)
    (hpos : 0 < bytes.length)
    (hbytes : ∀ i (h : i < bytes.length), mem (startBuf + BitVec.ofNat w i) = bytes[i]) :
    ∃ rest, Dumping mem startBuf endBuf rest (unlines (dumpLines bytes))
      (debugDumpPtr mem debugLevel level startBuf endBuf) := by
  obtain ⟨hint, hnat⟩ := toNat_sub_of_toInt hlen hside
  have hfits : 2 * bytes.length < 2 ^ w := by
    have hbounds := toInt_bounds (endBuf - startBuf)
    omega
  have hpow : 2 ^ 16 ≤ 2 ^ w := Nat.pow_le_pow_right (by decide) hw
  have hrows := toNat_maxRow hw hnat hfits
  have hzero : (0 : BitVec w).toNat = 0 := BitVec.toNat_zero
  have hfirst : Dumping mem startBuf endBuf (bytes.drop (16 * 0)) [] (Dump.start startBuf) :=
    start_dumping (cursor_start hstart hside hlen hbytes)
  have hall := rowLoop_dumping (rowCount bytes.length) hw hw' (by rw [rowCount]; omega) hzero hfirst
  refine ⟨bytes.drop (16 * (0 + rowCount bytes.length)), ?_⟩
  rw [debugDumpPtr]
  simp only [if_neg (not_le.mpr hlevel), if_neg (not_or.mpr ⟨hstart, hend⟩), hint, hrows]
  rw [if_neg (by omega)]
  exact hall

/-- The text of `debug_dump_ptr` is the hex dump of the buffer, line by line, from which the buffer is read
    back. Every text fits into the row buffer, and nothing but the buffer is read. -/
theorem debugDumpPtr_renders (P : Platform) (debugLevel level : Int) (mem : BitVec P.bits → Byte)
    (startBuf endBuf : BitVec P.bits) (bytes : List Byte) (hlevel : debugLevel < level)
    (hstart : startBuf ≠ 0) (hend : endBuf ≠ 0) (hside : startBuf.toInt < 0 ↔ endBuf.toInt < 0)
    (hlen : endBuf.toInt - startBuf.toInt = bytes.length) (hpos : 1 ≤ bytes.length)
    (hbytes : ∀ i (h : i < bytes.length), mem (startBuf + BitVec.ofNat P.bits i) = bytes[i]) :
    let d := debugDumpPtr mem debugLevel level startBuf endBuf
    d.stderr = unlines (lines d.stderr) ∧ (lines d.stderr).length = (bytes.length + 15) / 16 ∧
      (∀ r < (bytes.length + 15) / 16, (lines d.stderr)[r]? = some
        ((Nat.toDigits 10 (16 * r)).leftpad 4 '0' ++
          ((bytes.drop (16 * r)).take 16).flatMap fun b =>
            [' ', Nat.digitChar (b.toNat / 16), Nat.digitChar (b.toNat % 16)])) ∧
      readDump d.stderr = some bytes ∧
      (∀ p ∈ d.prints, p.rowOffset + p.needed < rowBufSize ∧ p.needed < p.size ∧
        p.rowOffset + p.size ≤ rowBufSize + 1) ∧
      ∀ a ∈ d.reads, startBuf.toInt ≤ a.toInt ∧ a.toInt < endBuf.toInt := by
  intro d
  obtain ⟨rest, hdump⟩ :=
    debugDumpPtr_dumping P.sixteen_le P.le_sixtyFour hlevel hstart hend hside hlen hpos hbytes
  have hlines : lines d.stderr = dumpLines bytes := by
    rw [hdump.stderr, lines_dump]
  refine ⟨?_, ?_, ?_, ?_, hdump.prints, hdump.reads⟩
  · rw [hlines, hdump.stderr]
  · rw [hlines, length_dumpLines, rowCount]
  · intro r hr
    rw [hlines, getElem?_dumpLines hr]
    rfl
  · rw [hdump.stderr, readDump_dump]

/-- Seventeen bytes take a full row and a row of one byte. -/
theorem debugDumpPtr_renders_two_rows :
    readDump (debugDumpPtr (fun a : BitVec Platform.lp64.bits => a.setWidth 8) 1 2 4336 4353).stderr =
      some ((List.range 17).map fun i => BitVec.ofNat 8 (240 + i)) := by
  have hdump := debugDumpPtr_renders Platform.lp64 1 2 (fun a => a.setWidth 8) 4336 4353
    ((List.range 17).map fun i => BitVec.ofNat 8 (240 + i)) (by decide) (by decide) (by decide) (by decide)
    (by decide) (by decide) (by decide)
  exact hdump.2.2.2.1

end TagSim.Debug
