import Chiptune.Scalar.Basic

/-!
Exact fractions as a number type: every operation is the mathematical one, and every value is a
finite number.
-/
namespace Chiptune

/-- The nearest whole number of a fraction that is not negative, halves going up. -/
def exactCount (x : Rat) : Nat := min (x + 1 / 2).floor.toNat maxCount

instance : Scalar Rat where
  zero := 0
  one := 1
  decidableLE := inferInstance
  decidableLT := inferInstance
  isNaN _ := false
  isInfinite _ := false
  floor x := x.floor
  abs := Rat.abs
  remainder x y := x - (x / y).floor * y
  nearestCount := exactCount

instance : Narrowing Rat Rat := ⟨id⟩

end Chiptune
