import TagSim.Text.CString
import TagSim.Bytes.Proofs.LittleEndianProofs

/-!
# Strings in character arrays

A call of `snprintf` behind the string that an array holds makes the string longer by the text, where there
is room for the text and the null character after it. Numbers are read back from their digits, and lines from
their text.
-/

namespace TagSim.Text

open Bytes

section Arrays

variable {buf text new : List Char} {p size : Nat}

theorem Holds.cString_eq (h : Holds buf text) : cString buf = text := by
  obtain ⟨hnul, rest, rfl⟩ := h
  rw [cString, List.takeWhile_append_of_pos]
  · simp
  · intro c hc
    simp only [decide_eq_true_eq]
    rintro rfl
    exact hnul hc

theorem Holds.take_eq (h : Holds buf text) : buf.take text.length = text := by
  obtain ⟨-, rest, rfl⟩ := h
  exact List.take_left

@[simp] theorem snprintf_snd : (snprintf buf p size text).2 = text.length := by
  rw [snprintf]
  split <;> rfl

/-- A text that there is room for is written as a whole. -/
theorem snprintf_fst (hsize : new.length < size) :
    (snprintf buf p size new).1 = splice buf p (new ++ ['\x00']) := by
  rw [snprintf, if_neg (by omega), List.take_of_length_le (by omega)]

theorem length_snprintf (hsize : new.length < size) (hroom : p + new.length < buf.length) :
    (snprintf buf p size new).1.length = buf.length := by
  rw [snprintf_fst hsize]
  apply length_splice
  rw [List.length_append, List.length_singleton]
  omega

/-- What stands before the position stays, and the text follows it. -/
theorem holds_snprintf (htake : buf.take p = text) (htext : '\x00' ∉ text) (hnew : '\x00' ∉ new)
    (hsize : new.length < size) : Holds (snprintf buf p size new).1 (text ++ new) := by
  refine ⟨by simp [htext, hnew], buf.drop (p + (new ++ ['\x00']).length), ?_⟩
  rw [snprintf_fst hsize, splice, htake]
  simp

end Arrays

section Numerals

variable {n w : Nat}

theorem isDigit_of_mem_padded {c : Char} (hc : c ∈ padded 10 w n) : c.isDigit := by
  rw [padded, List.leftpad, List.mem_append] at hc
  rcases hc with hc | hc
  · rw [List.eq_of_mem_replicate hc]
    rfl
  · exact Nat.isDigit_of_mem_toDigits (by decide) (by decide) hc

/-- A number is read back from its decimal digits. -/
theorem ofDigitChars_padded : Nat.ofDigitChars 10 (padded 10 w n) 0 = n := by
  rw [padded, List.leftpad, Nat.ofDigitChars_append, Nat.ofDigitChars_replicate_zero, Nat.mul_zero,
    Nat.ofDigitChars_ten_toDigits]

theorem length_padded_le {b k : Nat} (hb : 1 < b) (hk : 0 < k) (hw : w ≤ k) (hn : n < b ^ k) :
    (padded b w n).length ≤ k := by
  have hdigits : (Nat.toDigits b n).length ≤ k := (Nat.length_toDigits_le_iff hb hk).mpr hn
  rw [padded, List.length_leftpad]
  omega

/-- Two hex digits are enough for a byte. -/
theorem padded_byte (hn : n < 256) : padded 16 2 n = [Nat.digitChar (n / 16), Nat.digitChar (n % 16)] := by
  by_cases hsmall : n < 16
  · rw [padded, Nat.toDigits_of_lt_base hsmall, Nat.div_eq_of_lt hsmall, Nat.mod_eq_of_lt hsmall]
    rfl
  · have hhigh : n / 16 < 16 := by omega
    rw [padded, Nat.toDigits_of_base_le (by decide) (by omega), Nat.toDigits_of_lt_base hhigh]
    rfl

end Numerals

section Lines

theorem unlines_cons (l : List Char) (ls : List (List Char)) :
    unlines (l :: ls) = l ++ ['\n'] ++ unlines ls :=
  List.flatMap_cons

/-- The lines of a text are read back. -/
theorem lines_unlines {ls : List (List Char)} (hls : ∀ l ∈ ls, '\n' ∉ l) : lines (unlines ls) = ls := by
  induction ls with
  | nil => rfl
  | cons l ls ih =>
    have hne : (unlines ls).splitOn '\n' ≠ [] := List.splitOn_ne_nil _ _
    have htext : unlines (l :: ls) = l ++ '\n' :: unlines ls := by
      rw [unlines_cons, List.append_assoc]
      rfl
    rw [lines, htext, List.splitOn_append_cons_self_of_not_mem (hls l (by simp)),
      List.dropLast_cons_of_ne_nil hne]
    congr 1
    exact ih fun m hm => hls m (by simp [hm])

end Lines

end TagSim.Text
