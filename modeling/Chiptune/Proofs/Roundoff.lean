import Mathlib
import Chiptune.Scalar.Binary
import Chiptune.Scalar.Rounded

/-!
What rounding does to results, and two ways of rounding: to the nearest double, with ties to even, and
away from zero as far as a double may be off.

Main statements: what lies on one side of a quotient is at most two roundings on the other side of the
dividend when it is multiplied back; the nearest double is off by one rounding at most.
-/
namespace Chiptune

theorem roundoff_nonneg : 0 ≤ roundoff := by norm_num [roundoff]

theorem one_sub_roundoff_nonneg : 0 ≤ 1 - roundoff := by norm_num [roundoff]

theorem one_add_roundoff_nonneg : 0 ≤ 1 + roundoff := add_nonneg zero_le_one roundoff_nonneg

namespace Rounding

variable (rounding : Rounding) (operation : Operation)

theorem one_sub_le : 1 - roundoff ≤ 1 + rounding.error operation := by
  linarith [(rounding.bounded operation).1]

theorem le_one_add : 1 + rounding.error operation ≤ 1 + roundoff := by
  linarith [(rounding.bounded operation).2]

theorem one_add_error_nonneg : 0 ≤ 1 + rounding.error operation :=
  one_sub_roundoff_nonneg.trans (rounding.one_sub_le operation)

end Rounding

namespace Rounded

variable {rounding : Rounding}

/-- Whole numbers that a double holds are read exactly. -/
theorem value_natCast {n : Nat} (hn : n ≤ exactLimit) : (n : Rounded rounding).value = n := by
  change (n : Rat) * (1 + rounding.error (.whole n)) = n
  rw [rounding.whole n hn, add_zero, mul_one]

section

variable {x y z : Rounded rounding} (hx : 0 ≤ x.value) (hy : 0 < y.value)

include hx hy

/-- What is no less than a quotient falls short by two roundings at most when it is multiplied back. -/
theorem le_value_mul_of_div_le (hz : x / y ≤ z) : x.value * (1 - roundoff) ^ 2 ≤ (z * y).value := by
  have hquotient : x.value / y.value * (1 - roundoff) ≤ z.value :=
    (mul_le_mul_of_nonneg_left (rounding.one_sub_le _) (div_nonneg hx hy.le)).trans hz
  have hproduct : x.value * (1 - roundoff) ≤ z.value * y.value := by
    have hscaled := mul_le_mul_of_nonneg_right hquotient hy.le
    rwa [mul_right_comm, div_mul_cancel₀ _ hy.ne'] at hscaled
  calc x.value * (1 - roundoff) ^ 2
      = x.value * (1 - roundoff) * (1 - roundoff) := by ring
    _ ≤ x.value * (1 - roundoff) * (1 + rounding.error (.mul z.value y.value)) :=
        mul_le_mul_of_nonneg_left (rounding.one_sub_le _) (mul_nonneg hx one_sub_roundoff_nonneg)
    _ ≤ z.value * y.value * (1 + rounding.error (.mul z.value y.value)) :=
        mul_le_mul_of_nonneg_right hproduct (rounding.one_add_error_nonneg _)
    _ = (z * y).value := rfl

/-- What is no more than a quotient goes too far by two roundings at most when it is multiplied back. -/
theorem value_mul_le_of_le_div (hz : z ≤ x / y) : (z * y).value ≤ x.value * (1 + roundoff) ^ 2 := by
  have hquotient : z.value ≤ x.value / y.value * (1 + roundoff) :=
    le_trans hz (mul_le_mul_of_nonneg_left (rounding.le_one_add _) (div_nonneg hx hy.le))
  have hproduct : z.value * y.value ≤ x.value * (1 + roundoff) := by
    have hscaled := mul_le_mul_of_nonneg_right hquotient hy.le
    rwa [mul_right_comm, div_mul_cancel₀ _ hy.ne'] at hscaled
  calc (z * y).value
      = z.value * y.value * (1 + rounding.error (.mul z.value y.value)) := rfl
    _ ≤ x.value * (1 + roundoff) * (1 + rounding.error (.mul z.value y.value)) :=
        mul_le_mul_of_nonneg_right hproduct (rounding.one_add_error_nonneg _)
    _ ≤ x.value * (1 + roundoff) * (1 + roundoff) :=
        mul_le_mul_of_nonneg_left (rounding.le_one_add _) (mul_nonneg hx one_add_roundoff_nonneg)
    _ = x.value * (1 + roundoff) ^ 2 := by ring

end

end Rounded

/-- The nearest whole number, halves going to the even neighbour. -/
def roundToEven (x : Rat) : Int :=
  if Int.fract x < 1 / 2 then ⌊x⌋
  else if 1 / 2 < Int.fract x then ⌊x⌋ + 1
  else if 2 ∣ ⌊x⌋ then ⌊x⌋
  else ⌊x⌋ + 1

/-- Distance of the doubles around a value. -/
def spacing (x : Rat) : Rat := 2 ^ (Int.log 2 |x| - 52)

/-- The nearest double, with no limits to its exponent. -/
def nearestDouble (x : Rat) : Rat := roundToEven (x / spacing x) * spacing x

/-- A quotient of floats is the nearest double. -/
example :
    BinaryFloat.parts (5 / 44100 : Float) = .finite ⟨false, 8365870328212949, -66⟩ ∧
      nearestDouble (5 / 44100) = 8365870328212949 * 2 ^ (-66 : Int) := by
  decide +kernel

theorem abs_roundToEven_sub_le (x : Rat) : |roundToEven x - x| ≤ 1 / 2 := by
  have hsplit := Int.floor_add_fract x
  have hnonneg := Int.fract_nonneg x
  have hlt := Int.fract_lt_one x
  unfold roundToEven
  rw [abs_le]
  split_ifs <;> push_cast <;> constructor <;> linarith

theorem roundToEven_intCast (n : Int) : roundToEven n = n := by
  simp [roundToEven]

theorem spacing_pos (x : Rat) : 0 < spacing x := zpow_pos (by norm_num) _

/-- Half the distance to the next double is one rounding at most. -/
theorem spacing_div_two_le {x : Rat} (hx : x ≠ 0) : spacing x / 2 ≤ |x| * roundoff := by
  have hlog : (2 : Rat) ^ Int.log 2 |x| ≤ |x| := by
    exact_mod_cast Int.zpow_log_le_self (b := 2) one_lt_two (abs_pos.mpr hx)
  have hspacing : spacing x / 2 = (2 : Rat) ^ Int.log 2 |x| * roundoff := by
    rw [spacing, zpow_sub₀ two_ne_zero, roundoff]
    norm_num
    ring
  rw [hspacing]
  exact mul_le_mul_of_nonneg_right hlog roundoff_nonneg

theorem abs_nearestDouble_sub_le (x : Rat) : |nearestDouble x - x| ≤ |x| * roundoff := by
  by_cases hx : x = 0
  · subst hx
    have hzero := roundToEven_intCast 0
    rw [Int.cast_zero] at hzero
    simp [nearestDouble, hzero]
  have hpos := spacing_pos x
  have hscale : nearestDouble x - x = (roundToEven (x / spacing x) - x / spacing x) * spacing x := by
    rw [sub_mul, div_mul_cancel₀ _ hpos.ne']
    rfl
  calc |nearestDouble x - x|
      = |(roundToEven (x / spacing x) : Rat) - x / spacing x| * spacing x := by
        rw [hscale, abs_mul, abs_of_pos hpos]
    _ ≤ 1 / 2 * spacing x := mul_le_mul_of_nonneg_right (abs_roundToEven_sub_le _) hpos.le
    _ = spacing x / 2 := by ring
    _ ≤ |x| * roundoff := spacing_div_two_le hx

/-- Whole multiples of the distance to the next double are doubles. -/
theorem nearestDouble_of_eq_mul {x : Rat} {n : Int} (hx : x = n * spacing x) :
    nearestDouble x = x := by
  have hn : x / spacing x = n := (div_eq_iff (spacing_pos x).ne').mpr hx
  rw [nearestDouble, hn, roundToEven_intCast, ← hx]

theorem nearestDouble_natCast {n : Nat} (hn : n ≤ exactLimit) : nearestDouble n = n := by
  have hspacing : spacing n = 2 ^ ((Nat.log 2 n : Int) - 52) := by
    rw [spacing, Nat.abs_cast, Int.log_natCast]
  rcases hn.lt_or_eq with hlt | rfl
  · have hlog : Nat.log 2 n ≤ 52 := by
      have hlog' : Nat.log 2 n < 53 := Nat.log_lt_of_lt_pow' (by norm_num) (by rwa [exactLimit] at hlt)
      omega
    refine nearestDouble_of_eq_mul (n := n * 2 ^ (52 - Nat.log 2 n)) ?_
    rw [hspacing]
    push_cast
    rw [mul_assoc, ← zpow_natCast, ← zpow_add₀ two_ne_zero, Nat.cast_sub hlog]
    norm_num
  · -- Here the doubles are two apart.
    have hlog : Nat.log 2 exactLimit = 53 := by
      rw [show exactLimit = 2 ^ 53 from rfl, Nat.log_pow one_lt_two]
    refine nearestDouble_of_eq_mul (n := 2 ^ 52) ?_
    rw [hspacing, hlog]
    norm_num [exactLimit]

namespace Rounding

def toNearest : Rounding where
  error operation := (nearestDouble operation.exact - operation.exact) / operation.exact
  bounded operation := by
    rw [← abs_le, abs_div]
    exact div_le_of_le_mul₀ (abs_nonneg _) roundoff_nonneg
      (mul_comm |operation.exact| roundoff ▸ abs_nearestDouble_sub_le operation.exact)
  whole n hn := by
    change (nearestDouble n - n) / (n : Rat) = 0
    rw [nearestDouble_natCast hn, sub_self, zero_div]

/-- Every result that is rounded at all is off by a whole rounding, away from zero. -/
def outward : Rounding where
  error
    | .whole n => if n ≤ exactLimit then 0 else roundoff
    | _ => roundoff
  bounded operation := by
    have hnonneg := roundoff_nonneg
    cases operation with
    | whole n =>
        dsimp only
        split_ifs <;> constructor <;> linarith
    | add | sub | mul | div | decimal =>
        dsimp only
        constructor <;> linarith
  whole n hn := if_pos hn

theorem le_value_natCast_outward (n : Nat) : (n : Rat) ≤ (n : Rounded outward).value := by
  have hnonneg : 0 ≤ outward.error (.whole n) := by
    change 0 ≤ if n ≤ exactLimit then (0 : Rat) else roundoff
    split_ifs
    · exact le_rfl
    · exact roundoff_nonneg
  exact le_mul_of_one_le_right (Nat.cast_nonneg n) (le_add_of_nonneg_right hnonneg)

theorem value_div_mul_outward (x : Rounded outward) {y : Rounded outward} (hy : y.value ≠ 0) :
    (x / y * y).value = x.value * (1 + roundoff) ^ 2 := by
  change x.value / y.value * (1 + roundoff) * y.value * (1 + roundoff) = _
  field_simp

end Rounding

end Chiptune
