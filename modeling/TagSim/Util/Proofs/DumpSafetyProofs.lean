import TagSim.Util.Proofs.DumpProofs

/-!
# What a dump reads, whatever it is called with

For any two pointers `debug_dump_ptr` reads the bytes between them in order, each one once and none outside,
and never prints beyond its row buffer. It stops early when it comes to address 0 or to the middle of the
address space, where the pointers are compared as numbers of different signs.
-/

namespace TagSim.Debug

open Bytes Text

variable {w : Nat} {mem : BitVec w → Byte} {startBuf endBuf row : BitVec w} {d : Dump w} {k n : Nat}

/-- The address that is `k` bytes after the start. -/
def address (startBuf : BitVec w) (k : Nat) : BitVec w := startBuf + BitVec.ofNat w k

/-- The first `k` bytes have been read, and `debug_dump_ptr` went on before each of them. -/
structure HasRead (startBuf endBuf : BitVec w) (k : Nat) (d : Dump w) : Prop where
  room : d.rowBuf.length = rowBufSize + 1
  cursor : d.curBuf = address startBuf k
  reads : d.reads = (List.range k).map (address startBuf)
  before : ∀ i < k, ptrBefore (address startBuf i) endBuf = true
  prints : ∀ p ∈ d.prints, p.Fits

/-- The bytes from `k` on are read, up to `m`, unless the cursor comes to a stop before. -/
def ReadsOn (startBuf endBuf : BitVec w) (k m : Nat) (d : Dump w) : Prop :=
  ∃ k', k ≤ k' ∧ k' ≤ m ∧ HasRead startBuf endBuf k' d ∧
    (k' = m ∨ ptrBefore (address startBuf k') endBuf = false)

section Rows

/-- A text for which there is room moves the position behind it. -/
theorem print_hasRead (size : BitVec w) (text : List Char) (hw : 16 ≤ w) (h : HasRead startBuf endBuf k d)
    (hroom : d.rowOffset.toNat + text.length < rowBufSize) (hsize : text.length < size.toNat)
    (hpart : d.rowOffset.toNat + size.toNat ≤ rowBufSize + 1) :
    HasRead startBuf endBuf k (d.print size text) ∧
      (d.print size text).rowOffset.toNat = d.rowOffset.toNat + text.length := by
  have hlen : rowBufSize = 300 := rfl
  refine ⟨⟨?_, h.cursor, h.reads, h.before, fun p hp => ?_⟩, ?_⟩
  · show (snprintf _ _ _ _).1.length = _
    rw [length_snprintf hsize (by rw [h.room]; omega), h.room]
  · rcases List.mem_append.mp hp with hp | hp
    · exact h.prints p hp
    · obtain rfl := List.mem_singleton.mp hp
      rw [Print.Fits, snprintf_snd]
      exact ⟨hroom, hsize, hpart⟩
  · show (d.rowOffset + BitVec.ofNat w (snprintf _ _ _ _).2).toNat = _
    rw [snprintf_snd, toNat_add_small hw (by omega)]

/-- A column reads the next byte. -/
theorem column_hasRead (hw : 16 ≤ w) (h : HasRead startBuf endBuf k d)
    (hgoes : ptrBefore d.curBuf endBuf = true) (hroom : d.rowOffset.toNat + 3 < rowBufSize) :
    HasRead startBuf endBuf (k + 1) (column mem d) ∧
      (column mem d).rowOffset.toNat = d.rowOffset.toNat + 3 := by
  have hlength : (' ' :: padded 16 2 (mem d.curBuf).toNat).length = 3 := by
    rw [padded_hex]
    rfl
  have hsize : (BitVec.ofNat w rowBufSize - d.rowOffset).toNat = rowBufSize - d.rowOffset.toNat := by
    have hbuf : (BitVec.ofNat w rowBufSize).toNat = rowBufSize := toNat_small hw (by decide)
    rw [BitVec.toNat_sub_of_le, hbuf]
    rw [BitVec.le_def, hbuf]
    omega
  obtain ⟨hprint, hoffset⟩ := print_hasRead (BitVec.ofNat w rowBufSize - d.rowOffset)
    (' ' :: padded 16 2 (mem d.curBuf).toNat) hw h (by rw [hlength]; exact hroom)
    (by rw [hlength, hsize]; omega) (by rw [hsize]; omega)
  rw [hlength] at hoffset
  refine ⟨⟨hprint.room, ?_, ?_, fun i hi => ?_, hprint.prints⟩, hoffset⟩
  · show d.curBuf + 1 = address startBuf (k + 1)
    rw [h.cursor, address, address, BitVec.ofNat_add, BitVec.add_assoc]
    rfl
  · show d.reads ++ [d.curBuf] = _
    rw [h.reads, h.cursor, List.range_succ, List.map_append]
    rfl
  · rcases Nat.lt_succ_iff_lt_or_eq.mp hi with hi | rfl
    · exact h.before i hi
    · rw [← h.cursor]
      exact hgoes

/-- The inner loop reads on for as many columns as there are left. -/
theorem columnLoop_readsOn (n : Nat) (hw : 16 ≤ w) (h : HasRead startBuf endBuf k d)
    (hroom : d.rowOffset.toNat + 3 * n < rowBufSize) :
    ReadsOn startBuf endBuf k (k + n) (columnLoop mem endBuf n d) := by
  induction n generalizing k d with
  | zero => exact ⟨k, le_refl k, le_refl k, h, Or.inl rfl⟩
  | succ n ih =>
    have hlt : d.rowOffset < BitVec.ofNat w (rowBufSize + 1) := by
      rw [BitVec.lt_def, toNat_sizeof hw]
      omega
    rw [columnLoop]
    by_cases hgoes : ptrBefore d.curBuf endBuf = true
    · obtain ⟨hcolumn, hoffset⟩ : HasRead startBuf endBuf (k + 1) (column mem d) ∧ _ :=
        column_hasRead hw h hgoes (by omega)
      obtain ⟨k', hle, hle', hread, hend⟩ := ih hcolumn (by rw [hoffset]; omega)
      rw [if_pos ⟨hgoes, hlt⟩]
      refine ⟨k', by omega, by omega, hread, ?_⟩
      rcases hend with hend | hstop
      · exact Or.inl (by omega)
      · exact Or.inr hstop
    · rw [if_neg fun hgo => hgoes hgo.1]
      refine ⟨k, le_refl k, by omega, h, Or.inr ?_⟩
      rw [← h.cursor]
      simpa using hgoes

/-- The offset of a row fits into the row buffer. -/
theorem startRow_hasRead (hw : 16 ≤ w) (hw' : w ≤ 64) (h : HasRead startBuf endBuf k d) :
    HasRead startBuf endBuf k (startRow row d) ∧ (startRow row d).rowOffset.toNat ≤ 20 := by
  let offset := row * BitVec.ofNat w columns
  have hdigits : (padded 10 4 offset.toNat).length ≤ 20 := length_padded_size hw' offset.isLt
  have hzero : (0 : BitVec w).toNat = 0 := BitVec.toNat_zero
  have hbuf : (BitVec.ofNat w (rowBufSize + 1)).toNat = rowBufSize + 1 := toNat_sizeof hw
  have hlen : rowBufSize = 300 := rfl
  have hstart : HasRead startBuf endBuf k { d with offset := offset, rowOffset := 0 } :=
    ⟨h.room, h.cursor, h.reads, h.before, h.prints⟩
  obtain ⟨hprint, hoffset⟩ := print_hasRead (BitVec.ofNat w (rowBufSize + 1)) (padded 10 4 offset.toNat) hw hstart
    (by rw [hzero]; omega) (by omega) (by rw [hzero]; omega)
  refine ⟨hprint, ?_⟩
  rw [startRow, hoffset, hzero]
  omega

/-- The rows read on, sixteen bytes each. -/
theorem rowLoop_readsOn (n : Nat) (hw : 16 ≤ w) (hw' : w ≤ 64) (h : HasRead startBuf endBuf k d) :
    ReadsOn startBuf endBuf k (k + 16 * n) (rowLoop mem endBuf n row d) := by
  induction n generalizing k row d with
  | zero => exact ⟨k, le_refl k, le_refl k, h, Or.inl rfl⟩
  | succ n ih =>
    obtain ⟨hstart, hoffset⟩ : HasRead startBuf endBuf k (startRow row d) ∧ _ := startRow_hasRead hw hw' h
    have hroom : (startRow row d).rowOffset.toNat + 3 * columns < rowBufSize := by
      show _ + 3 * 16 < 300
      omega
    obtain ⟨k₁, hle₁, hle₁', hrow, hend₁⟩ :
        ReadsOn startBuf endBuf k (k + columns) (columnLoop mem endBuf columns (startRow row d)) :=
      columnLoop_readsOn columns hw hstart hroom
    have hcolumns : columns = 16 := rfl
    have hline : HasRead startBuf endBuf k₁ (endRow (columnLoop mem endBuf columns (startRow row d))) :=
      ⟨hrow.room, hrow.cursor, hrow.reads, hrow.before, hrow.prints⟩
    obtain ⟨k', hle, hle', hread, hend⟩ : ReadsOn startBuf endBuf k₁ (k₁ + 16 * n)
        (rowLoop mem endBuf n (row + 1) (endRow (columnLoop mem endBuf columns (startRow row d)))) := ih hline
    rw [rowLoop]
    refine ⟨k', by omega, by omega, hread, ?_⟩
    rcases hend₁ with hend₁ | hstop
    · rcases hend with hend | hstop
      · exact Or.inl (by omega)
      · exact Or.inr hstop
    · -- the cursor has come to a stop, and stays there in all rows that follow
      have hstays : k' = k₁ := by
        by_contra hne
        have hgoes := hread.before k₁ (by omega)
        rw [hstop] at hgoes
        cases hgoes
      exact Or.inr (hstays ▸ hstop)

end Rows

section Addresses

theorem start_hasRead (startBuf endBuf : BitVec w) : HasRead startBuf endBuf 0 (Dump.start startBuf) where
  room := List.length_replicate
  cursor := (BitVec.add_zero startBuf).symm
  reads := rfl
  before := nofun
  prints := by simp [Dump.start]

/-- The end comes after all bytes between the pointers. -/
theorem address_length : address startBuf (endBuf - startBuf).toNat = endBuf := by
  rw [address, BitVec.ofNat_toNat, BitVec.setWidth_eq, BitVec.add_comm, BitVec.sub_add_cancel]

/-- `debug_dump_ptr` does not go on at the end. -/
theorem HasRead.le_length (h : HasRead startBuf endBuf k d) : k ≤ (endBuf - startBuf).toNat := by
  by_contra hlt
  have hgoes := h.before (endBuf - startBuf).toNat (by omega)
  rw [address_length, ptrBefore, decide_eq_true_iff] at hgoes
  exact absurd hgoes.2.2 (lt_irrefl _)

/-- An address that does not overflow. -/
theorem toInt_address (h : 2 * (startBuf.toInt + k) < (2 ^ w : Nat)) :
    (address startBuf k).toInt = startBuf.toInt + k := by
  have hbounds := toInt_bounds startBuf
  rw [address, BitVec.toInt_add, BitVec.toInt_ofNat', Int.add_bmod_bmod,
    Int.bmod_eq_of_le_mul_two (by omega) (by omega)]

/-- The distance of two pointers whose difference is positive. -/
theorem length_of_pos (hpos : 0 < (endBuf - startBuf).toInt) :
    (endBuf - startBuf).toInt = (endBuf - startBuf).toNat ∧ 2 * (endBuf - startBuf).toNat < 2 ^ w := by
  have hlt := (endBuf - startBuf).isLt
  rw [BitVec.toInt_eq_toNat_cond] at hpos ⊢
  split_ifs at hpos ⊢ with hsmall
  · exact ⟨rfl, hsmall⟩
  · omega

/-- Where both pointers are on one side of address 0, `debug_dump_ptr` goes on before every byte. -/
theorem goes_of_sameSide (hpos : 0 < (endBuf - startBuf).toInt) (hstart : startBuf ≠ 0) (hend : endBuf ≠ 0)
    (hside : startBuf.toInt < 0 ↔ endBuf.toInt < 0) (hk : k < (endBuf - startBuf).toNat) :
    ptrBefore (address startBuf k) endBuf = true := by
  obtain ⟨hlength, hsmall⟩ := length_of_pos hpos
  have hstartBounds := toInt_bounds startBuf
  have hendBounds := toInt_bounds endBuf
  have hdistance : (endBuf - startBuf).toInt = endBuf.toInt - startBuf.toInt := by
    rw [BitVec.toInt_sub, Int.bmod_eq_of_le_mul_two (by omega) (by omega)]
  have haddress : (address startBuf k).toInt = startBuf.toInt + k := toInt_address (by omega)
  have hne : startBuf.toInt ≠ 0 := fun hzero =>
    hstart (BitVec.eq_of_toInt_eq (hzero.trans BitVec.toInt_zero.symm))
  rw [ptrBefore, decide_eq_true_iff]
  exact ⟨toInt_ne_zero (by omega), hend, by omega⟩

/-- `debug_dump_ptr` does not get past address 0. -/
theorem HasRead.sameSide (h : HasRead startBuf endBuf (endBuf - startBuf).toNat d)
    (hpos : 0 < (endBuf - startBuf).toInt) : startBuf.toInt < 0 ↔ endBuf.toInt < 0 := by
  obtain ⟨hlength, hsmall⟩ := length_of_pos hpos
  have hbounds := toInt_bounds startBuf
  have hfirst := h.before 0 (by omega)
  rw [show address startBuf 0 = startBuf from BitVec.add_zero startBuf, ptrBefore, decide_eq_true_iff] at hfirst
  obtain ⟨-, hend, hlt⟩ := hfirst
  have hne : endBuf.toInt ≠ 0 := fun hzero =>
    hend (BitVec.eq_of_toInt_eq (hzero.trans BitVec.toInt_zero.symm))
  by_contra hside
  have hneg : startBuf.toInt < 0 := by omega
  have hlast : (address startBuf (endBuf - startBuf).toNat).toInt = startBuf.toInt + (endBuf - startBuf).toNat :=
    toInt_address (by omega)
  rw [address_length] at hlast
  -- the byte at address 0 is one of those between the pointers
  have hzero : (address startBuf (-startBuf.toInt).toNat).toInt = 0 := by
    rw [toInt_address (by omega)]
    omega
  have hgoes := h.before (-startBuf.toInt).toNat (by omega)
  rw [ptrBefore, decide_eq_true_iff] at hgoes
  exact hgoes.1 (BitVec.eq_of_toInt_eq (hzero.trans BitVec.toInt_zero.symm))

end Addresses

section Calls

/-- When a call reads everything between its pointers. -/
structure DumpsAll (debugLevel level : Int) (startBuf endBuf : BitVec w) : Prop where
  level : debugLevel < level
  start : startBuf ≠ 0
  finish : endBuf ≠ 0
  length : 0 < (endBuf - startBuf).toInt
  sameSide : startBuf.toInt < 0 ↔ endBuf.toInt < 0

/-- A call that prints no row reads nothing. -/
theorem reads_nothing {debugLevel level : Int} (hreads : d.reads = []) (hprints : d.prints = [])
    (hnot : ¬ DumpsAll debugLevel level startBuf endBuf) :
    ∃ k ≤ (endBuf - startBuf).toNat, d.reads = (List.range k).map (address startBuf) ∧
      (∀ p ∈ d.prints, p.Fits) ∧
      (startBuf ≠ endBuf → (k = (endBuf - startBuf).toNat ↔ DumpsAll debugLevel level startBuf endBuf)) := by
  refine ⟨0, Nat.zero_le _, hreads, by simp [hprints], fun hne => iff_of_false (fun hzero => hne ?_) hnot⟩
  have hend : address startBuf (endBuf - startBuf).toNat = endBuf := address_length
  rw [← hend, ← hzero]
  exact (BitVec.add_zero startBuf).symm

/-- Whatever it is called with, `debug_dump_ptr` reads the bytes from `start_buf` on in order, each once and
    none from `end_buf` on, and all its texts fit into the row buffer. It reads all the bytes exactly when its
    checks let it and the pointers are on one side of address 0. -/
theorem debugDumpPtr_reads (P : Platform) (debugLevel level : Int) (mem : BitVec P.bits → Byte)
    (startBuf endBuf : BitVec P.bits) :
    ∃ k ≤ (endBuf - startBuf).toNat,
      (debugDumpPtr mem debugLevel level startBuf endBuf).reads = (List.range k).map (address startBuf) ∧
      (∀ p ∈ (debugDumpPtr mem debugLevel level startBuf endBuf).prints, p.Fits) ∧
      (startBuf ≠ endBuf → (k = (endBuf - startBuf).toNat ↔ DumpsAll debugLevel level startBuf endBuf)) := by
  have hw := P.sixteen_le
  have hw' := P.le_sixtyFour
  unfold debugDumpPtr
  simp only
  split_ifs with hlevel hnull hlength
  · exact reads_nothing rfl rfl fun h => absurd h.level (not_lt.mpr hlevel)
  · refine reads_nothing rfl rfl fun h => ?_
    rcases hnull with hnull | hnull
    · exact h.start hnull
    · exact h.finish hnull
  · exact reads_nothing rfl rfl fun h => absurd h.length (not_lt.mpr hlength)
  · have hpos : 0 < (endBuf - startBuf).toInt := by omega
    obtain ⟨-, hsmall⟩ := length_of_pos hpos
    have hrows := toNat_maxRow hw rfl hsmall
    obtain ⟨k, -, -, hread, hend⟩ : ReadsOn startBuf endBuf 0 (0 + 16 * _) (rowLoop mem endBuf _ 0 _) :=
      rowLoop_readsOn
        ((endBuf - startBuf + (BitVec.ofNat P.bits columns - 1)) / BitVec.ofNat P.bits columns).toNat hw hw'
        (start_hasRead startBuf endBuf)
    refine ⟨k, hread.le_length, hread.reads, hread.prints, fun _ => ⟨?_, fun hall => ?_⟩⟩
    · rintro rfl
      rw [not_or] at hnull
      exact ⟨not_le.mp hlevel, hnull.1, hnull.2, hpos, hread.sameSide hpos⟩
    · rw [hrows, rowCount] at hend
      have hle := hread.le_length
      by_contra hne
      have hgoes := goes_of_sameSide hpos hall.start hall.finish hall.sameSide (k := k) (by omega)
      rcases hend with hend | hstop
      · omega
      · rw [hgoes] at hstop
        cases hstop

end Calls

end TagSim.Debug
