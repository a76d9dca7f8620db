import TagSim.Text.HexDump
import TagSim.Text.Proofs.CStringProofs

/-!
# Reading a hex dump back

The characters of a line are digits and spaces, so that a line is neither cut by a null character nor broken
by a line feed. The reader undoes the writer digit by digit, byte by byte and line by line.
-/

namespace TagSim.Text

open Bytes

/-! ## Digits -/

theorem readHexDigit_digitChar {n : Nat} (hn : n < 16) : readHexDigit (Nat.digitChar n) = some n := by
  revert n
  decide

theorem digitChar_mem {n : Nat} (hn : n < 16) : Nat.digitChar n ∈ hexAlphabet := by
  revert n
  decide

theorem byte_lt (b : Byte) : b.toNat / 16 < 16 ∧ b.toNat % 16 < 16 := by
  have := b.isLt
  omega

theorem padded_hex (b : Byte) : padded 16 2 b.toNat = hexDigits b := padded_byte b.isLt

@[simp] theorem length_hexBytes (bytes : List Byte) : (hexBytes bytes).length = 3 * bytes.length := by
  induction bytes with
  | nil => rfl
  | cons b bytes ih =>
    rw [hexBytes, List.flatMap_cons, List.length_append, ← hexBytes, ih]
    simp only [hexDigits, List.length_cons, List.length_nil]
    omega

theorem hexBytes_append (as bs : List Byte) : hexBytes (as ++ bs) = hexBytes as ++ hexBytes bs :=
  List.flatMap_append

/-- The characters of the bytes of a line are spaces and hex digits. -/
theorem mem_hexBytes {bytes : List Byte} {c : Char} (hc : c ∈ hexBytes bytes) :
    c ∈ ' ' :: hexAlphabet := by
  obtain ⟨b, -, hc⟩ := List.mem_flatMap.mp hc
  obtain ⟨hhigh, hlow⟩ := byte_lt b
  rcases List.mem_cons.mp hc with rfl | hc
  · exact List.mem_cons_self
  · refine List.mem_cons_of_mem _ ?_
    rcases List.mem_cons.mp hc with rfl | hc
    · exact digitChar_mem hhigh
    · rw [List.mem_singleton.mp hc]
      exact digitChar_mem hlow

/-- A character that is neither a digit nor a letter of a hex digit nor a space is not in a line. -/
theorem not_mem_dumpLine {offset : Nat} {bytes : List Byte} {c : Char} (hdigit : c.isDigit = false)
    (hhex : c ∉ ' ' :: hexAlphabet) : c ∉ dumpLine offset bytes := by
  intro hc
  rcases List.mem_append.mp hc with hc | hc
  · rw [isDigit_of_mem_padded hc] at hdigit
    cases hdigit
  · exact hhex (mem_hexBytes hc)

/-! ## Lines -/

theorem readHexBytes_hexBytes (bytes : List Byte) : readHexBytes (hexBytes bytes) = some bytes := by
  induction bytes with
  | nil => rfl
  | cons b bytes ih =>
    obtain ⟨hhigh, hlow⟩ := byte_lt b
    have hbyte : BitVec.ofNat 8 (16 * (b.toNat / 16) + b.toNat % 16) = b := by
      rw [Nat.div_add_mod, BitVec.ofNat_toNat, BitVec.setWidth_eq]
    have htext : hexBytes (b :: bytes) =
        ' ' :: Nat.digitChar (b.toNat / 16) :: Nat.digitChar (b.toNat % 16) :: hexBytes bytes := rfl
    rw [htext, readHexBytes, readHexDigit_digitChar hhigh, readHexDigit_digitChar hlow, ih]
    simp [hbyte]

/-- The digits of the offset end at the first space. -/
theorem readLine_dumpLine (offset : Nat) (bytes : List Byte) :
    readLine (dumpLine offset bytes) = some (offset, bytes) := by
  have hdigits : ∀ c ∈ padded 10 4 offset, decide (c ≠ ' ') = true := by
    intro c hc
    have hdigit := isDigit_of_mem_padded hc
    simp only [decide_eq_true_eq]
    rintro rfl
    cases hdigit
  have htake : (dumpLine offset bytes).takeWhile (· ≠ ' ') = padded 10 4 offset := by
    rw [dumpLine, List.takeWhile_append_of_pos hdigits]
    cases bytes <;> simp [hexBytes]
  have hdrop : (dumpLine offset bytes).dropWhile (· ≠ ' ') = hexBytes bytes := by
    rw [dumpLine, List.dropWhile_append_of_pos hdigits]
    cases bytes <;> simp [hexBytes]
  have hall : (padded 10 4 offset).all Char.isDigit = true :=
    List.all_eq_true.mpr fun c hc => isDigit_of_mem_padded hc
  rw [readLine, htake, hdrop, readHexBytes_hexBytes]
  simp only [Option.bind_eq_bind, Option.bind_some, hall, if_true, ofDigitChars_padded]

/-! ## Dumps -/

theorem dumpRows_succ (bytes : List Byte) (r n : Nat) :
    dumpRows bytes r (n + 1) = dumpLine (16 * r) (rowBytes bytes r) :: dumpRows bytes (r + 1) n := by
  rw [dumpRows, List.range'_succ, List.map_cons, ← dumpRows]

@[simp] theorem length_dumpLines (bytes : List Byte) : (dumpLines bytes).length = rowCount bytes.length := by
  simp [dumpLines, dumpRows]

/-- Line `r` shows the bytes from offset `16 * r` on. -/
theorem getElem?_dumpLines {bytes : List Byte} {r : Nat} (hr : r < rowCount bytes.length) :
    (dumpLines bytes)[r]? = some (dumpLine (16 * r) (rowBytes bytes r)) := by
  simp [dumpLines, dumpRows, hr]

theorem rowBytes_append_drop (bytes : List Byte) (r : Nat) :
    rowBytes bytes r ++ bytes.drop (16 * (r + 1)) = bytes.drop (16 * r) := by
  rw [rowBytes, slice, Nat.mul_succ, ← List.drop_drop, List.take_append_drop]

/-- Every row but the last one is full, so that the offsets the reader expects are those of the lines. -/
theorem readLines_dumpRows (bytes : List Byte) (r n : Nat) (hn : r + n = rowCount bytes.length) :
    readLines (16 * r) (dumpRows bytes r n) = some (bytes.drop (16 * r)) := by
  induction n generalizing r with
  | zero =>
    have hall : bytes.length ≤ 16 * r := by
      rw [rowCount] at hn
      omega
    rw [List.drop_of_length_le hall]
    rfl
  | succ n ih =>
    have hrest : readLines (16 * r + (rowBytes bytes r).length) (dumpRows bytes (r + 1) n) =
        some (bytes.drop (16 * (r + 1))) := by
      rcases Nat.eq_zero_or_pos n with rfl | hpos
      · -- the last row: nothing is left to read
        have hall : bytes.length ≤ 16 * (r + 1) := by
          rw [rowCount] at hn
          omega
        rw [List.drop_of_length_le hall]
        rfl
      · have hfull : (rowBytes bytes r).length = 16 := by
          rw [rowCount] at hn
          rw [rowBytes, slice, List.length_take, List.length_drop]
          omega
        rw [hfull, ← Nat.mul_succ]
        exact ih (r + 1) (by omega)
    rw [dumpRows_succ, readLines, readLine_dumpLine]
    simp only [Option.bind_eq_bind, Option.bind_some, hrest, if_true, rowBytes_append_drop]

theorem newline_not_mem_dumpRows {bytes : List Byte} {r n : Nat} :
    ∀ l ∈ dumpRows bytes r n, '\n' ∉ l := by
  intro l hl
  obtain ⟨i, -, rfl⟩ := List.mem_map.mp hl
  exact not_mem_dumpLine rfl (by decide)

theorem lines_dump (bytes : List Byte) : lines (unlines (dumpLines bytes)) = dumpLines bytes :=
  lines_unlines newline_not_mem_dumpRows

/-- The bytes of a dump are read back. -/
theorem readDump_dump (bytes : List Byte) : readDump (unlines (dumpLines bytes)) = some bytes := by
  rw [readDump, lines_dump]
  exact readLines_dumpRows bytes 0 _ (Nat.zero_add _)

end TagSim.Text
