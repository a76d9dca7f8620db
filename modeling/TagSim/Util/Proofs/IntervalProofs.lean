import TagSim.Util.Proofs.TimeUtilsProofs

/-!
# Intervals of time on the two platforms

The years by which the version for Windows is off cancel out when two times are subtracted. A sleep is the same
on both platforms exactly when its length is not negative.
-/

namespace TagSim.TimeUtils

/-! ## Differences -/

/-- The time between two instants, up to `2 ^ 63` units, is the same in both versions. -/
theorem elapsed_agrees {t u : Instant} (ht : t.count < 9223372036854775808)
    (hu : u.count < 9223372036854775808) :
    Windows.utilTimeMs u.toFileTime - Windows.utilTimeMs t.toFileTime =
      Posix.utilTimeMs u.toTimeVal - Posix.utilTimeMs t.toTimeVal ∧
    (Posix.utilTimeMs u.toTimeVal - Posix.utilTimeMs t.toTimeVal).toInt = u.ms - t.ms := by
  have hbound : ∀ v : Instant, v.ms < 4611686018427387904 := by
    intro v
    have hlt := v.lt_two_pow
    rw [Instant.ms]
    omega
  have ht' := hbound t
  have hu' := hbound u
  constructor
  · apply BitVec.eq_of_toInt_eq
    have hcancel : (u.ms + 11644473600000 : Int) - (t.ms + 11644473600000) = u.ms - t.ms := by omega
    rw [BitVec.toInt_sub, BitVec.toInt_sub, windows_toInt t ht, windows_toInt u hu, posix_toInt, posix_toInt,
      hcancel]
  · rw [BitVec.toInt_sub, posix_toInt, posix_toInt, Int.bmod_eq_of_le_mul_two (by omega) (by omega)]

/-- A day after the start of 1970, and a year after it. -/
theorem elapsed_agrees_year : ∃ t u : Instant, t.ms = 86400000 ∧ u.ms = 31536000000 ∧
    Windows.utilTimeMs u.toFileTime - Windows.utilTimeMs t.toFileTime =
      Posix.utilTimeMs u.toTimeVal - Posix.utilTimeMs t.toTimeVal := by
  refine ⟨⟨unixEpoch + 864000000000, by decide, by decide⟩, ⟨unixEpoch + 315360000000000, by decide, by decide⟩,
    by decide, by decide, (elapsed_agrees ?_ ?_).1⟩
  all_goals decide

/-! ## Sleeps -/

section Sleeps

variable {ms : BitVec 32}

/-- `ms / 1000`, as a `time_t`. -/
theorem seconds_toInt (ms : BitVec 32) : ((ms.sdiv 1000).signExtend 64).toInt = ms.toInt.tdiv 1000 := by
  have hne : (1000 : BitVec 32) ≠ -1 := by decide
  rw [BitVec.toInt_signExtend_of_le (by decide), BitVec.toInt_sdiv_of_ne_or_ne _ _ (Or.inr hne)]
  rfl

/-- `(ms % 1000) * 1000`, which does not overflow an `int`. -/
theorem microseconds_toInt (ms : BitVec 32) :
    ((ms.srem 1000 * 1000).signExtend 64).toInt = ms.toInt.tmod 1000 * 1000 := by
  have hthousand : (1000 : BitVec 32).toInt = 1000 := rfl
  have hlow := Int.lt_tmod_of_pos ms.toInt (b := 1000) (by decide)
  have hhigh := Int.tmod_lt_of_pos ms.toInt (b := 1000) (by decide)
  rw [BitVec.toInt_signExtend_of_le (by decide), BitVec.toInt_mul, BitVec.toInt_srem, hthousand,
    Int.bmod_eq_of_le_mul_two (by omega) (by omega)]

theorem toInt_eq_toNat {w : Nat} {x : BitVec w} (h : 0 ≤ x.toInt) : x.toInt = x.toNat := by
  have hlt := x.isLt
  rw [BitVec.toInt_eq_toNat_cond] at h ⊢
  split_ifs at h ⊢ with hsmall
  · rfl
  · omega

/-- `select` is asked for the whole time, or refuses a negative one. -/
theorem posix_sleep (ms : BitVec 32) :
    Posix.utilSleepMs ms = if 0 ≤ ms.toInt then (.lasts (ms.toNat * 1000), 0) else (.refused, -1) := by
  have hsec := seconds_toInt ms
  have husec := microseconds_toInt ms
  have hdivmod := Int.mul_tdiv_add_tmod ms.toInt 1000
  have hlow := Int.lt_tmod_of_pos ms.toInt (b := 1000) (by decide)
  have hhigh := Int.tmod_lt_of_pos ms.toInt (b := 1000) (by decide)
  by_cases hms : 0 ≤ ms.toInt
  · have hdiv : 0 ≤ ms.toInt.tdiv 1000 := Int.tdiv_nonneg hms (by decide)
    have hmod : 0 ≤ ms.toInt.tmod 1000 := Int.tmod_nonneg 1000 hms
    have hsec₀ : 0 ≤ ((ms.sdiv 1000).signExtend 64).toInt := by omega
    have husec₀ : 0 ≤ ((ms.srem 1000 * 1000).signExtend 64).toInt := by omega
    have hlt : ((ms.srem 1000 * 1000).signExtend 64).toInt < 1000000 := by omega
    have hsec' := toInt_eq_toNat hsec₀
    have husec' := toInt_eq_toNat husec₀
    have hms' := toInt_eq_toNat hms
    have htotal : ((ms.sdiv 1000).signExtend 64).toNat * 1000000 +
        ((ms.srem 1000 * 1000).signExtend 64).toNat = ms.toNat * 1000 := by omega
    unfold Posix.utilSleepMs Posix.select
    rw [if_pos hms, if_pos ⟨hsec₀, husec₀, hlt⟩, htotal]
  · unfold Posix.utilSleepMs Posix.select
    rw [if_neg hms, if_neg]
    rintro ⟨hsec₀, husec₀, -⟩
    simp only at hsec₀ husec₀
    omega

/-- The platforms agree on a sleep exactly when its length is not negative, and then it is that length. They
    never agree on what is returned. -/
theorem utilSleepMs_agree_iff (ms : BitVec 32) :
    ((Windows.utilSleepMs ms).1 = (Posix.utilSleepMs ms).1 ↔ 0 ≤ ms.toInt) ∧
      (0 ≤ ms.toInt → (Posix.utilSleepMs ms).1 = .lasts (ms.toNat * 1000)) ∧
      (Windows.utilSleepMs ms).2 ≠ (Posix.utilSleepMs ms).2 := by
  have hzero : (1 : BitVec 32) ≠ 0 := by decide
  have hfailed : (1 : BitVec 32) ≠ -1 := by decide
  rw [posix_sleep]
  unfold Windows.utilSleepMs Windows.sleep
  by_cases hms : 0 ≤ ms.toInt
  · have hfinite : ms ≠ 0xFFFFFFFF := by
      rintro rfl
      exact absurd hms (by decide)
    rw [if_pos hms, if_neg hfinite]
    exact ⟨iff_of_true rfl hms, fun _ => rfl, hzero⟩
  · rw [if_neg hms]
    refine ⟨iff_of_false ?_ hms, fun h => absurd h hms, hfailed⟩
    split_ifs <;> nofun

end Sleeps

end TagSim.TimeUtils
