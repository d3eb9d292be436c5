import Mathlib
import Chiptune.Proofs.Samples
import Chiptune.Scalar.Extended

/-!
Order and arithmetic of extended numbers.

Fractions inside the extended numbers compare and add up as they do outside.  What is at least zero is
a number, and products and quotients of such values are at least zero where they are numbers.
-/
namespace Chiptune

namespace Extended

section

variable {a b : Bool} {x y : Rat}

@[simp] theorem finite_lt_finite : (finite x : Extended) < finite y ↔ x < y := decide_eq_true_iff

@[simp] theorem finite_lt_infinite : (finite x : Extended) < infinite b ↔ b = false := by
  change (!b) = true ↔ _
  rw [Bool.not_eq_true']

@[simp] theorem infinite_lt_finite : (infinite a : Extended) < finite y ↔ a = true := Iff.rfl

@[simp] theorem infinite_lt_infinite :
    (infinite a : Extended) < infinite b ↔ a = true ∧ b = false := by
  change (a && !b) = true ↔ _
  rw [Bool.and_eq_true, Bool.not_eq_true']

@[simp] theorem not_lt_nan (z : Extended) : ¬ z < nan := by
  cases z <;> exact Bool.false_ne_true

@[simp] theorem not_nan_lt (z : Extended) : ¬ nan < z := Bool.false_ne_true

theorem le_iff {u v : Extended} : u ≤ v ↔ u < v ∨ u = v ∧ u ≠ nan := by
  change (less u v || equal u v) = true ↔ less u v = true ∨ _
  rw [Bool.or_eq_true]
  cases u <;> cases v <;> simp [equal]

@[simp] theorem finite_le_finite : (finite x : Extended) ≤ finite y ↔ x ≤ y := by
  rw [le_iff, finite_lt_finite, le_iff_lt_or_eq]
  simp

@[simp] theorem finite_le_infinite : (finite x : Extended) ≤ infinite b ↔ b = false := by
  simp [le_iff]

theorem finite_beq_finite : ((finite x : Extended) == finite y) = (x == y) := by
  change decide (finite x = finite y) = _
  rw [Bool.eq_iff_iff]
  simp

end

variable {u v : Extended}

/-- Two numbers can be compared. -/
theorem le_of_not_lt (hu : u ≠ nan) (hv : v ≠ nan) (h : ¬ u < v) : v ≤ u := by
  rw [le_iff]
  cases u with
  | nan => exact absurd rfl hu
  | finite x =>
      cases v with
      | nan => exact absurd rfl hv
      | finite y => simpa [le_iff_lt_or_eq] using h
      | infinite b => simpa using h
  | infinite a =>
      cases v with
      | nan => exact absurd rfl hv
      | finite y => simpa using h
      | infinite b => cases a <;> cases b <;> simp_all

/-- What is at least zero is a fraction or infinite. -/
theorem nonneg_iff : 0 ≤ u ↔ (∃ x : Rat, 0 ≤ x ∧ u = finite x) ∨ u = infinite false := by
  change finite 0 ≤ u ↔ _
  cases u with
  | finite x => simp
  | infinite negative => simp
  | nan => simp [le_iff]

theorem zero_le_zero : (0 : Extended) ≤ 0 := finite_le_finite.mpr le_rfl

theorem ne_nan_of_nonneg (hu : 0 ≤ u) : u ≠ nan := by
  rintro rfl
  rcases nonneg_iff.mp hu with ⟨x, _, h⟩ | h <;> simp at h

theorem le_self_of_nonneg (hu : 0 ≤ u) : u ≤ u := le_iff.mpr (.inr ⟨rfl, ne_nan_of_nonneg hu⟩)

theorem le_infinite_of_nonneg (hu : 0 ≤ u) : u ≤ infinite false := by
  rcases nonneg_iff.mp hu with ⟨x, _, rfl⟩ | rfl
  · exact finite_le_infinite.mpr rfl
  · exact le_self_of_nonneg hu

theorem eq_zero_of_le_zero (hu : 0 ≤ u) (h : u ≤ 0) : u = 0 := by
  rcases nonneg_iff.mp hu with ⟨x, hx, rfl⟩ | rfl
  · exact congrArg finite (le_antisymm (finite_le_finite.mp h) hx)
  · rcases le_iff.mp h with h | ⟨h, _⟩
    · exact absurd h Bool.false_ne_true
    · exact h

protected theorem lt_trans {u v w : Extended} (huv : u < v) (hvw : v < w) : u < w := by
  cases u <;> cases v <;> cases w <;> simp_all
  exact huv.trans hvw

protected theorem le_trans {u v w : Extended} (huv : u ≤ v) (hvw : v ≤ w) : u ≤ w := by
  rw [le_iff] at huv hvw ⊢
  rcases huv with huv | ⟨rfl, _⟩
  · rcases hvw with hvw | ⟨rfl, _⟩
    · exact .inl (Extended.lt_trans huv hvw)
    · exact .inl huv
  · exact hvw

instance : Trans (α := Extended) (· ≤ ·) (· ≤ ·) (· ≤ ·) := ⟨Extended.le_trans⟩

theorem one_eq_finite : (1 : Extended) = finite 1 := rfl

section

variable (x y : Rat)

@[simp] theorem finite_add_finite : (finite x + finite y : Extended) = finite (x + y) := rfl

@[simp] theorem finite_sub_finite : (finite x - finite y : Extended) = finite (x - y) := by
  rw [sub_eq_add_neg]
  rfl

@[simp] theorem finite_mul_finite : (finite x * finite y : Extended) = finite (x * y) := rfl

theorem finite_div_finite {y : Rat} (hy : y ≠ 0) :
    (finite x / finite y : Extended) = finite (x / y) := if_neg hy

@[simp] theorem finite_add_infinite (negative : Bool) :
    (finite x + infinite negative : Extended) = infinite negative := rfl

end

theorem two_pow_le_overflow : 2 ^ 64 ≤ overflow := by decide +kernel

/-- Samples and rates count as fractions. -/
theorem natCast_eq_finite {n : Nat} (h : n < 2 ^ 64) : (n : Extended) = finite n := by
  change ofNat n = finite n
  rw [ofNat, if_pos (h.trans_le two_pow_le_overflow)]

theorem natCast_nonneg (n : Nat) : 0 ≤ (n : Extended) := by
  change 0 ≤ ofNat n
  unfold ofNat
  split
  · exact finite_le_finite.mpr (Nat.cast_nonneg n)
  · exact finite_le_infinite.mpr rfl

theorem add_nonneg (hu : 0 ≤ u) (hv : 0 ≤ v) : 0 ≤ u + v := by
  rw [nonneg_iff] at hu hv
  rcases hu with ⟨x, hx, rfl⟩ | rfl <;> rcases hv with ⟨y, hy, rfl⟩ | rfl
  · exact finite_le_finite.mpr (by positivity)
  all_goals exact finite_le_infinite.mpr rfl

theorem le_add_of_nonneg (hu : 0 ≤ u) (hv : 0 ≤ v) : u ≤ u + v := by
  rw [nonneg_iff] at hu hv
  rcases hu with ⟨x, _, rfl⟩ | rfl <;> rcases hv with ⟨y, hy, rfl⟩ | rfl
  · exact finite_le_finite.mpr (le_add_of_nonneg_right hy)
  · exact finite_le_infinite.mpr rfl
  all_goals exact le_self_of_nonneg (nonneg_iff.mpr (.inr rfl))

/-- A product of values that are not negative is no number only if one is zero and one infinite. -/
theorem mul_nonneg_or_eq_nan (hu : 0 ≤ u) (hv : 0 ≤ v) : 0 ≤ u * v ∨ u * v = nan := by
  have hscale {x : Rat} (hx : 0 ≤ x) : 0 ≤ scale false x ∨ scale false x = nan := by
    unfold scale
    split
    · exact .inr rfl
    · rw [decide_eq_false hx.not_gt]
      exact .inl (finite_le_infinite.mpr rfl)
  rw [nonneg_iff] at hu hv
  rcases hu with ⟨x, hx, rfl⟩ | rfl <;> rcases hv with ⟨y, hy, rfl⟩ | rfl
  · exact .inl (finite_le_finite.mpr (by positivity))
  · exact hscale hx
  · exact hscale hy
  · exact .inl (finite_le_infinite.mpr rfl)

theorem div_nonneg_of_pos {x : Rat} (hx : 0 < x) (hv : 0 ≤ v) : 0 ≤ finite x / v := by
  rw [nonneg_iff] at hv
  rcases hv with ⟨y, hy, rfl⟩ | rfl
  · change 0 ≤ if y = 0 then scale false x else finite (x / y)
    split
    · unfold scale
      rw [if_neg hx.ne', decide_eq_false hx.not_gt]
      exact finite_le_infinite.mpr rfl
    · exact finite_le_finite.mpr (by positivity)
  · exact finite_le_finite.mpr le_rfl

/-- Later is later still after some time. -/
theorem lt_add_of_nonneg {x : Rat} (hu : finite x < u) (hv : 0 ≤ v) : finite x < u + v := by
  rw [nonneg_iff] at hv
  cases u with
  | nan => simp at hu
  | finite y =>
      rcases hv with ⟨z, hz, rfl⟩ | rfl
      · rw [finite_lt_finite] at hu
        exact finite_lt_finite.mpr (by linarith)
      · exact finite_lt_infinite.mpr rfl
  | infinite negative =>
      obtain rfl := finite_lt_infinite.mp hu
      rcases hv with ⟨z, hz, rfl⟩ | rfl
      · exact finite_lt_infinite.mpr rfl
      · exact finite_lt_infinite.mpr rfl

theorem nearestCount_le (u : Extended) : nearestCount u ≤ maxCount := by
  cases u with
  | finite x => exact min_le_right _ _
  | infinite negative => cases negative <;> simp [nearestCount]
  | nan => exact Nat.zero_le _

/-- Later times come at later samples. -/
theorem nearestCount_mul_mono {x rate : Rat} (hrate : 0 < rate) (h : finite x ≤ u) :
    exactCount (x * rate) ≤ nearestCount (u * finite rate) := by
  cases u with
  | finite y =>
      rw [finite_le_finite] at h
      exact exactCount_mono (mul_le_mul_of_nonneg_right h hrate.le)
  | infinite negative =>
      obtain rfl := finite_le_infinite.mp h
      have hproduct : (infinite false * finite rate : Extended) = infinite false := by
        change scale false rate = _
        rw [scale, if_neg hrate.ne', decide_eq_false hrate.not_gt]
        rfl
      rw [hproduct]
      exact min_le_right _ _
  | nan => simp [le_iff] at h

/-- At a rate that no double can hold, a time comes first or last. -/
theorem nearestCount_mul_infinite (time : Extended) :
    nearestCount (time * infinite false) = if 0 < time then maxCount else 0 := by
  cases time with
  | nan => rfl
  | infinite negative => cases negative <;> rfl
  | finite x =>
      change nearestCount (scale false x) = if finite 0 < finite x then maxCount else 0
      rcases lt_trichotomy x 0 with hneg | rfl | hpos
      · simp [scale, hneg.ne, hneg, hneg.not_gt, nearestCount]
      · simp [scale, nearestCount]
      · simp [scale, hpos.ne', hpos, hpos.not_gt, nearestCount]

/-- Samples follow the order of times at every rate. -/
theorem nearestCount_mul_le {rate : Nat} (hrate : 0 < rate) {earlier later : Extended}
    (hle : earlier ≤ later) :
    nearestCount (earlier * (rate : Extended)) ≤ nearestCount (later * (rate : Extended)) := by
  change nearestCount (earlier * ofNat rate) ≤ nearestCount (later * ofNat rate)
  unfold ofNat
  split
  · have hpos : (0 : Rat) < rate := Nat.cast_pos.mpr hrate
    cases earlier with
    | finite x => exact nearestCount_mul_mono hpos hle
    | nan => simp [le_iff] at hle
    | infinite negative =>
        cases negative with
        | false =>
            obtain rfl : later = infinite false := by
              cases later <;> simp [le_iff] at hle ⊢
              exact hle
            exact le_rfl
        | true =>
            have hfirst : infinite true * finite rate = infinite true := by
              change scale true rate = _
              simp [scale, hpos.ne', hpos.not_gt]
            rw [hfirst]
            exact Nat.zero_le _
  · rw [nearestCount_mul_infinite, nearestCount_mul_infinite]
    by_cases hpos : 0 < earlier
    · have hlater : 0 < later := by
        rcases le_iff.mp hle with hlt | ⟨rfl, _⟩
        · exact Extended.lt_trans hpos hlt
        · exact hpos
      rw [if_pos hpos, if_pos hlater]
    · rw [if_neg hpos]
      exact Nat.zero_le _

end Extended

end Chiptune
