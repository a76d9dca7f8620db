import TagSim.Util.TimeUtils
import Mathlib.Tactic.NormNum

/-!
# The two versions of the time of day

The version for POSIX tells the milliseconds since 1970-01-01. The version for Windows puts the halves of the
count together and divides it, but it never takes the years from 1601 to 1970 off.
-/

namespace TagSim.TimeUtils

/-! ## Sixty-four bits -/

/-- A number below `2 ^ 63` is a value of an `int64_t`. -/
theorem toInt_small {n : Nat} (hn : n < 9223372036854775808) : (BitVec.ofNat 64 n).toInt = n := by
  rw [BitVec.toInt_eq_toNat_cond, BitVec.toNat_ofNat, Nat.mod_eq_of_lt (by omega), if_pos (by omega)]

/-- A number from `2 ^ 63` on turns negative. -/
theorem toInt_large {n : Nat} (hn : 9223372036854775808 ≤ n) (hlt : n < 18446744073709551616) :
    (BitVec.ofNat 64 n).toInt < 0 := by
  rw [BitVec.toInt_eq_toNat_cond, BitVec.toNat_ofNat, Nat.mod_eq_of_lt (by omega), if_neg (by omega)]
  omega

/-- Division by a positive constant rounds towards zero. -/
theorem toInt_sdiv_small {x : BitVec 64} {k : Nat} (hk : k < 9223372036854775808) :
    (x.sdiv (BitVec.ofNat 64 k)).toInt = x.toInt.tdiv k := by
  have hne : BitVec.ofNat 64 k ≠ -1 := by
    intro h
    have hneg : (-1 : BitVec 64).toInt = -1 := rfl
    rw [← h, toInt_small hk] at hneg
    omega
  rw [BitVec.toInt_sdiv_of_ne_or_ne _ _ (Or.inr hne), toInt_small hk]

/-- So a number that is not negative is divided as a natural number. -/
theorem sdiv_small {n k : Nat} (hn : n < 9223372036854775808) (hk : k < 9223372036854775808) :
    (BitVec.ofNat 64 n).sdiv (BitVec.ofNat 64 k) = BitVec.ofNat 64 (n / k) := by
  have hdiv : n / k ≤ n := Nat.div_le_self n k
  apply BitVec.eq_of_toInt_eq
  rw [toInt_sdiv_small hk, toInt_small hn, toInt_small (by omega)]
  exact (Int.ofNat_tdiv n k).symm

variable (t : Instant)

/-! ## POSIX -/

/-- The seconds and the microseconds make up the milliseconds. -/
theorem posix_eq : Posix.utilTimeMs t.toTimeVal = BitVec.ofNat 64 t.ms := by
  have hms : (t.count - unixEpoch) / 10000000 * 1000 + (t.count - unixEpoch) / 10 % 1000000 / 1000 = t.ms := by
    rw [Instant.ms]
    omega
  have husec : ((t.count - unixEpoch) / 10 % 1000000) < 9223372036854775808 := by omega
  rw [← hms, BitVec.ofNat_add, BitVec.ofNat_mul, ← sdiv_small husec (by decide)]
  rfl

/-- And they fit. -/
theorem posix_toInt : (Posix.utilTimeMs t.toTimeVal).toInt = t.ms := by
  have hlt := t.lt_two_pow
  rw [posix_eq, toInt_small]
  rw [Instant.ms]
  omega

/-! ## Windows -/

/-- The halves make up the count. -/
theorem halves_eq : t.toFileTime.dwLowDateTime.setWidth 64 + t.toFileTime.dwHighDateTime.setWidth 64 <<< 32 =
    BitVec.ofNat 64 t.count := by
  have hlt := t.lt_two_pow
  have hlow : t.count % 4294967296 % 2 ^ 32 = t.count % 4294967296 := by omega
  have hhigh : t.count / 4294967296 % 2 ^ 32 = t.count / 4294967296 := by omega
  apply BitVec.eq_of_toNat_eq
  simp only [Instant.toFileTime, BitVec.toNat_add, BitVec.toNat_setWidth, BitVec.toNat_shiftLeft,
    BitVec.toNat_ofNat, Nat.shiftLeft_eq, hlow, hhigh]
  omega

/-- Up to `2 ^ 63` units the result is off by the years from 1601 to 1970. -/
theorem windows_toInt (h : t.count < 9223372036854775808) :
    (Windows.utilTimeMs t.toFileTime).toInt = t.ms + 11644473600000 := by
  have hle := t.unixEpoch_le
  have hms : t.count / 10000 = t.ms + 11644473600000 := by
    rw [Instant.ms]
    rw [unixEpoch] at hle ⊢
    omega
  rw [Windows.utilTimeMs, halves_eq]
  show ((BitVec.ofNat 64 t.count).sdiv (BitVec.ofNat 64 10000)).toInt = _
  rw [sdiv_small h (by decide), toInt_small (by omega), hms]
  norm_num

/-- From there on the count is a negative `int64_t`. -/
theorem windows_toInt_nonpos (h : 9223372036854775808 ≤ t.count) :
    (Windows.utilTimeMs t.toFileTime).toInt ≤ 0 := by
  have hneg := toInt_large h t.lt_two_pow
  rw [Windows.utilTimeMs, halves_eq]
  show ((BitVec.ofNat 64 t.count).sdiv (BitVec.ofNat 64 10000)).toInt ≤ 0
  rw [toInt_sdiv_small (by decide)]
  have hflip := Int.neg_tdiv (BitVec.ofNat 64 t.count).toInt ((10000 : Nat) : Int)
  have hpos := Int.tdiv_nonneg (a := -(BitVec.ofNat 64 t.count).toInt) (b := ((10000 : Nat) : Int))
    (by omega) (by omega)
  omega

/-! ## Both -/

/-- No instant has the same time in both versions: the one for POSIX tells it, and the one for Windows tells
    11644473600000 ms more, or a time before 1970. -/
theorem utilTimeMs_never_agreed : ¬ t.Agreed ∧ (Posix.utilTimeMs t.toTimeVal).toInt = t.ms ∧
    Windows.utilTimeMs t.toFileTime ≠ Posix.utilTimeMs t.toTimeVal := by
  have hposix := posix_toInt t
  have hwindows : (Windows.utilTimeMs t.toFileTime).toInt ≠ t.ms := by
    rcases Nat.lt_or_ge t.count 9223372036854775808 with hlt | hge
    · rw [windows_toInt t hlt]
      omega
    · have hpos : 0 < t.ms := by
        rw [Instant.ms, unixEpoch]
        omega
      have hnonpos := windows_toInt_nonpos t hge
      omega
  refine ⟨fun h => hwindows h.1, hposix, fun h => hwindows ?_⟩
  rw [h, hposix]

/-- At the start of 1970. -/
theorem utilTimeMs_unixEpoch : ∃ t : Instant, t.count = unixEpoch ∧ ¬ t.Agreed ∧
    Windows.utilTimeMs t.toFileTime = 11644473600000 ∧ Posix.utilTimeMs t.toTimeVal = 0 := by
  refine ⟨⟨unixEpoch, Nat.le_refl _, by decide⟩, rfl, ?_, by decide, by decide⟩
  rintro ⟨hwindows, -⟩
  exact absurd hwindows (by decide)

end TagSim.TimeUtils
