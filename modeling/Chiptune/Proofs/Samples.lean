import Mathlib
import Chiptune.Scalar.Exact

/-!
Times in samples, rounded to whole ones.
-/
namespace Chiptune

def nearest (samples : Rat) : Nat := (round samples).toNat

def halfSample (rate : Nat) : Rat := 1 / (2 * rate)

theorem exactCount_eq (samples : Rat) : exactCount samples = min (nearest samples) maxCount := by
  rw [nearest, round_eq]
  rfl

theorem nearest_natCast (sample : Nat) : nearest sample = sample := by
  rw [nearest, round_natCast, Int.toNat_natCast]

theorem exactCount_mono {first second : Rat} (h : first ≤ second) :
    exactCount first ≤ exactCount second := by
  rw [exactCount_eq, exactCount_eq, nearest, nearest, round_eq, round_eq]
  have hround := Int.toNat_le_toNat (Int.floor_le_floor (add_le_add_left h (1 / 2)))
  omega

/-- A time falls on a sample before another if it comes half a sample before it. -/
theorem nearest_lt_iff {rate : Nat} (hrate : 0 < rate) {time : Rat}
    (htime : 0 ≤ time + halfSample rate) (sample : Nat) :
    nearest (time * rate) < sample ↔ time + halfSample rate < sample / rate := by
  have hrate' : (0 : Rat) < rate := Nat.cast_pos.mpr hrate
  have hhalf : time * rate + 1 / 2 = (time + halfSample rate) * rate := by
    unfold halfSample
    field_simp
  have hround : 0 ≤ round (time * rate) := by
    rw [round_eq, hhalf]
    exact Int.floor_nonneg.mpr (by positivity)
  rw [nearest, Int.toNat_lt hround, round_eq, Int.floor_lt, hhalf, lt_div_iff₀ hrate']
  rfl

theorem le_exactCount {rate : Nat} (hrate : 0 < rate) {time : Rat} {sample : Nat}
    (hsample : sample < 2 ^ 64) (htime : sample / rate ≤ time + halfSample rate) :
    sample ≤ exactCount (time * rate) := by
  have hnonneg : 0 ≤ time + halfSample rate := le_trans (by positivity) htime
  have hle : sample ≤ nearest (time * rate) := by
    by_contra hlt
    exact absurd ((nearest_lt_iff hrate hnonneg sample).mp (not_le.mp hlt)) htime.not_gt
  rw [exactCount_eq, maxCount]
  omega

/-- Only a sample that a counter cannot reach is stamped otherwise than it is. -/
theorem exactCount_lt_iff {samples : Rat} {sample : Nat} (hsample : sample < 2 ^ 64) :
    exactCount samples < sample ↔ nearest samples < sample := by
  rw [exactCount_eq, maxCount]
  omega

theorem exactCount_of_lt {samples : Rat} {sample : Nat} (hsample : sample < 2 ^ 64)
    (hlt : nearest samples < sample) : exactCount samples = nearest samples := by
  rw [exactCount_eq, maxCount]
  omega

/-- What is less than half a sample away is stamped with the sample. -/
theorem exactCount_of_near {samples : Rat} {sample : Nat} (hsample : sample < 2 ^ 64)
    (hnear : |samples - sample| < 1 / 2) : exactCount samples = sample := by
  obtain ⟨hbefore, hafter⟩ := abs_lt.mp hnear
  have hround : round samples = sample := by
    rw [round_eq, Int.floor_eq_iff, Int.cast_natCast]
    constructor <;> linarith
  rw [exactCount_eq, nearest, hround, Int.toNat_natCast, maxCount]
  omega

theorem halfSample_pos {rate : Nat} (hrate : 0 < rate) : 0 < halfSample rate := by
  have hrate' : (0 : Rat) < rate := Nat.cast_pos.mpr hrate
  unfold halfSample
  positivity

end Chiptune
