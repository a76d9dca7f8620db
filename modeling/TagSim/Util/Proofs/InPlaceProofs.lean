import TagSim.Util.Proofs.BufProofs

/-!
# Bounds and changes in place

The codec has a result exactly when the fields lie within the buffer. Fields of a record that is in a buffer
are changed by encoding the new ones where the old ones are.
-/

namespace TagSim.Buf

open Bytes

variable {buf buf' : List Byte} {p i : Nat} {b : Byte} {f : Field} {fs pre mid mid' post : List Field}
  {ws : List Width}

section Bounds

theorem store_some (h : store buf i b = some buf') : i < buf.length ∧ buf'.length = buf.length := by
  unfold store at h
  split_ifs at h with hi
  obtain rfl := Option.some.inj h
  exact ⟨hi, List.length_set⟩

theorem load_some (h : load buf i = some b) : i < buf.length := by
  obtain ⟨hi, -⟩ := List.getElem?_eq_some_iff.mp h
  exact hi

/-- The last byte of a field is stored within the buffer. -/
theorem Field.fits_of_encode (h : f.encode buf p = some buf') : p + f.width.bytes ≤ buf.length := by
  cases f with
  | uint16 value =>
    obtain ⟨b₁, h₁, h₂⟩ := Option.bind_eq_some_iff.mp h
    have hlast := store_some h₂
    have hfirst := store_some h₁
    simp only [Field.width, Width.bytes]
    omega
  | uint32 value =>
    obtain ⟨b₁, h₁, h⟩ := Option.bind_eq_some_iff.mp h
    obtain ⟨b₂, h₂, h⟩ := Option.bind_eq_some_iff.mp h
    obtain ⟨b₃, h₃, h⟩ := Option.bind_eq_some_iff.mp h
    have h₁ := store_some h₁
    have h₂ := store_some h₂
    have h₃ := store_some h₃
    have h₄ := store_some h
    simp only [Field.width, Width.bytes]
    omega
  | uint64 value =>
    obtain ⟨b₁, h₁, h⟩ := Option.bind_eq_some_iff.mp h
    obtain ⟨b₂, h₂, h⟩ := Option.bind_eq_some_iff.mp h
    obtain ⟨b₃, h₃, h⟩ := Option.bind_eq_some_iff.mp h
    obtain ⟨b₄, h₄, h⟩ := Option.bind_eq_some_iff.mp h
    obtain ⟨b₅, h₅, h⟩ := Option.bind_eq_some_iff.mp h
    obtain ⟨b₆, h₆, h⟩ := Option.bind_eq_some_iff.mp h
    obtain ⟨b₇, h₇, h⟩ := Option.bind_eq_some_iff.mp h
    have h₁ := store_some h₁
    have h₂ := store_some h₂
    have h₃ := store_some h₃
    have h₄ := store_some h₄
    have h₅ := store_some h₅
    have h₆ := store_some h₆
    have h₇ := store_some h₇
    have h₈ := store_some h
    simp only [Field.width, Width.bytes]
    omega

/-- The last byte of a field is loaded from the buffer. -/
theorem Field.fits_of_decode {w : Width} (h : Field.decode buf p w = some f) : p + w.bytes ≤ buf.length := by
  cases w with
  | uint16 =>
    obtain ⟨value, h, -⟩ := Option.map_eq_some_iff.mp h
    obtain ⟨b₀, -, h⟩ := Option.bind_eq_some_iff.mp h
    obtain ⟨b₁, hlast, -⟩ := Option.bind_eq_some_iff.mp h
    have hlast := load_some hlast
    simp only [Width.bytes]
    omega
  | uint32 =>
    obtain ⟨value, h, -⟩ := Option.map_eq_some_iff.mp h
    obtain ⟨b₀, -, h⟩ := Option.bind_eq_some_iff.mp h
    obtain ⟨b₁, -, h⟩ := Option.bind_eq_some_iff.mp h
    obtain ⟨b₂, -, h⟩ := Option.bind_eq_some_iff.mp h
    obtain ⟨b₃, hlast, -⟩ := Option.bind_eq_some_iff.mp h
    have hlast := load_some hlast
    simp only [Width.bytes]
    omega
  | uint64 =>
    obtain ⟨value, h, -⟩ := Option.map_eq_some_iff.mp h
    obtain ⟨b₀, -, h⟩ := Option.bind_eq_some_iff.mp h
    obtain ⟨b₁, -, h⟩ := Option.bind_eq_some_iff.mp h
    obtain ⟨b₂, -, h⟩ := Option.bind_eq_some_iff.mp h
    obtain ⟨b₃, -, h⟩ := Option.bind_eq_some_iff.mp h
    obtain ⟨b₄, -, h⟩ := Option.bind_eq_some_iff.mp h
    obtain ⟨b₅, -, h⟩ := Option.bind_eq_some_iff.mp h
    obtain ⟨b₆, -, h⟩ := Option.bind_eq_some_iff.mp h
    obtain ⟨b₇, hlast, -⟩ := Option.bind_eq_some_iff.mp h
    have hlast := load_some hlast
    simp only [Width.bytes]
    omega

/-- Fields are encoded exactly when they lie within the buffer. -/
theorem encodeFields_isSome_iff (hne : fs ≠ []) :
    (encodeFields buf p fs).isSome ↔ p + size (fs.map Field.width) ≤ buf.length := by
  constructor
  · intro h
    induction fs generalizing buf p with
    | nil => exact absurd rfl hne
    | cons f fs ih =>
      obtain ⟨buf', h⟩ := Option.isSome_iff_exists.mp h
      obtain ⟨buf₁, hfield, hrest⟩ := Option.bind_eq_some_iff.mp h
      have hfits := Field.fits_of_encode hfield
      have hlength : buf₁.length = buf.length := by
        have heq := Option.some.inj (hfield.symm.trans (Field.encode_eq f hfits))
        rw [heq, length_splice (by rw [Field.length_bytes]; exact hfits)]
      rw [List.map_cons, size_cons]
      rcases eq_or_ne fs [] with rfl | hfs
      · simpa [size] using hfits
      · have hrest' := ih hfs (Option.isSome_iff_exists.mpr ⟨buf', hrest⟩)
        omega
  · intro h
    rw [encodeFields_eq h]
    rfl

/-- Fields are decoded exactly when they lie within the buffer. -/
theorem decodeFields_isSome_iff (hne : ws ≠ []) :
    (decodeFields buf p ws).isSome ↔ p + size ws ≤ buf.length := by
  constructor
  · intro h
    induction ws generalizing p with
    | nil => exact absurd rfl hne
    | cons w ws ih =>
      obtain ⟨fs, h⟩ := Option.isSome_iff_exists.mp h
      obtain ⟨f, hfield, h⟩ := Option.bind_eq_some_iff.mp h
      obtain ⟨fs', hrest, -⟩ := Option.bind_eq_some_iff.mp h
      have hfits := Field.fits_of_decode hfield
      rw [size_cons]
      rcases eq_or_ne ws [] with rfl | hws
      · simpa [size] using hfits
      · have hrest' := ih hws (Option.isSome_iff_exists.mpr ⟨fs', hrest⟩)
        omega
  · intro h
    obtain ⟨fs, hdecode, -⟩ := decodeFields_eq ws p h
    rw [hdecode]
    rfl

end Bounds

section InPlace

/-- A part of what was written is overwritten. -/
theorem splice_inside {as bs bs' cs : List Byte} (hp : p ≤ buf.length) (hlength : bs'.length = bs.length) :
    splice (splice buf p (as ++ bs ++ cs)) (p + as.length) bs' = splice buf p (as ++ bs' ++ cs) := by
  let rest := buf.drop (p + (as ++ bs ++ cs).length)
  have hbefore : (buf.take p ++ as).length = p + as.length := by simp [hp]
  have hthrough : (buf.take p ++ as ++ bs).length = p + as.length + bs'.length := by
    rw [List.length_append, hbefore, hlength]
  have hwritten : splice buf p (as ++ bs ++ cs) = buf.take p ++ as ++ bs ++ (cs ++ rest) := by
    simp [splice, rest]
  have htake : (splice buf p (as ++ bs ++ cs)).take (p + as.length) = buf.take p ++ as := by
    rw [hwritten, List.append_assoc _ bs]
    exact List.take_left' hbefore
  have hdrop : (splice buf p (as ++ bs ++ cs)).drop (p + as.length + bs'.length) = cs ++ rest := by
    rw [hwritten]
    exact List.drop_left' hthrough
  have hrest : buf.drop (p + (as ++ bs' ++ cs).length) = rest := by
    simp only [rest, List.length_append, hlength]
  rw [splice, htake, hdrop, splice, hrest]
  simp only [List.append_assoc]

/-- Fields of a record in a buffer are changed by encoding new ones of the same widths where they are. -/
theorem encodeFields_inPlace (hwidths : mid'.map Field.width = mid.map Field.width)
    (h : encodeFields buf p (pre ++ mid ++ post) = some buf') :
    encodeFields buf' (p + size (pre.map Field.width)) mid' = encodeFields buf p (pre ++ mid' ++ post) := by
  by_cases hnil : pre ++ mid ++ post = []
  · simp only [List.append_eq_nil_iff] at hnil
    obtain ⟨⟨rfl, rfl⟩, rfl⟩ := hnil
    obtain rfl := List.map_eq_nil_iff.mp hwidths
    obtain rfl := Option.some.inj h
    rfl
  · have hfits := (encodeFields_isSome_iff hnil).mp (Option.isSome_iff_exists.mpr ⟨buf', h⟩)
    have hrecord : (record mid').length = (record mid).length := by
      rw [length_record, length_record, hwidths]
    have hsame : (pre ++ mid' ++ post).map Field.width = (pre ++ mid ++ post).map Field.width := by
      simp only [List.map_append, hwidths]
    rw [encodeFields_eq hfits] at h
    obtain rfl := Option.some.inj h
    have hlength : (splice buf p (record (pre ++ mid ++ post))).length = buf.length :=
      length_splice (by rw [length_record]; exact hfits)
    have hinside : p + size (pre.map Field.width) + size (mid'.map Field.width) ≤ buf.length := by
      simp only [size, List.map_append, List.sum_append, hwidths] at hfits ⊢
      omega
    rw [encodeFields_eq (hinside.trans hlength.ge), encodeFields_eq (hsame ▸ hfits), ← length_record pre,
      record_append, record_append, record_append, record_append, splice_inside (by omega) hrecord]

/-- The codec has a result exactly for fields that lie within the buffer, and a part of a record in a buffer is
    changed in place. -/
theorem codec_in_place :
    (∀ buf p fs, fs ≠ [] → ((encodeFields buf p fs).isSome ↔ p + size (fs.map Field.width) ≤ buf.length)) ∧
    (∀ buf p ws, ws ≠ [] → ((decodeFields buf p ws).isSome ↔ p + size ws ≤ buf.length)) ∧
    ∀ buf buf' p pre mid mid' post, mid'.map Field.width = mid.map Field.width →
      encodeFields buf p (pre ++ mid ++ post) = some buf' →
      encodeFields buf' (p + size (pre.map Field.width)) mid' = encodeFields buf p (pre ++ mid' ++ post) :=
  ⟨fun _ _ _ => encodeFields_isSome_iff, fun _ _ _ => decodeFields_isSome_iff,
    fun _ _ _ _ _ _ _ => encodeFields_inPlace⟩

/-- The length in a header is changed from 4 to 8. -/
theorem codec_in_place_header : encodeFields [0xFF, 0x65, 0, 4, 0, 0x34, 0x12, 0, 0, 0xFF] 3 [.uint16 8] =
    encodeFields (List.replicate 10 0xFF) 1 [.uint16 0x65, .uint16 8, .uint32 0x1234] :=
  codec_in_place.2.2 (List.replicate 10 0xFF) _ 1 [.uint16 0x65] [.uint16 4] [.uint16 8] [.uint32 0x1234] rfl rfl

end InPlace

end TagSim.Buf
