import Chiptune.Scalar.Exact

/-!
Fractions under the rounding of double precision: the result of an operation is the exact one but for
a small relative error.  No value is out of range.
-/
namespace Chiptune

/-- Largest relative error of a result in double precision, `2 ^ -53`. -/
def roundoff : Rat := 1 / 0x20000000000000

/-- Up to here, `2 ^ 53`, a double holds every whole number. -/
def exactLimit : Nat := 0x20000000000000

/-- An operation with a result that may have to be rounded. -/
inductive Rounding.Operation where
  | add (x y : Rat)
  | sub (x y : Rat)
  | mul (x y : Rat)
  | div (x y : Rat)
  /-- A whole number read as a value. -/
  | whole (n : Nat)
  /-- A mantissa times a power of ten, with the sign of the exponent apart. -/
  | decimal (mantissa : Nat) (negative : Bool) (exponent : Nat)

def Rounding.Operation.exact : Rounding.Operation → Rat
  | .add x y => x + y
  | .sub x y => x - y
  | .mul x y => x * y
  | .div x y => x / y
  | .whole n => n
  | .decimal mantissa negative exponent => OfScientific.ofScientific mantissa negative exponent

/-- A way of rounding: the relative error that each operation makes. -/
structure Rounding where
  error : Rounding.Operation → Rat
  bounded : ∀ operation, -roundoff ≤ error operation ∧ error operation ≤ roundoff
  whole : ∀ n, n ≤ exactLimit → error (.whole n) = 0

/-- A fraction, in calculations that round in some way. -/
structure Rounded (rounding : Rounding) where
  value : Rat
deriving DecidableEq, Repr

namespace Rounding

def result (rounding : Rounding) (operation : Operation) : Rounded rounding :=
  ⟨operation.exact * (1 + rounding.error operation)⟩

/-- Signs, comparisons, whole parts and remainders need no rounding. -/
instance (rounding : Rounding) : Scalar (Rounded rounding) where
  zero := ⟨0⟩
  one := ⟨1⟩
  neg x := ⟨-x.value⟩
  add x y := rounding.result (.add x.value y.value)
  sub x y := rounding.result (.sub x.value y.value)
  mul x y := rounding.result (.mul x.value y.value)
  div x y := rounding.result (.div x.value y.value)
  le x y := x.value ≤ y.value
  lt x y := x.value < y.value
  beq x y := x.value == y.value
  natCast n := rounding.result (.whole n)
  ofScientific mantissa negative exponent := rounding.result (.decimal mantissa negative exponent)
  decidableLE x y := inferInstanceAs (Decidable (x.value ≤ y.value))
  decidableLT x y := inferInstanceAs (Decidable (x.value < y.value))
  isNaN _ := false
  isInfinite _ := false
  floor x := ⟨x.value.floor⟩
  abs x := ⟨x.value.abs⟩
  remainder x y := ⟨x.value - (x.value / y.value).floor * y.value⟩
  nearestCount x := exactCount x.value

end Rounding

end Chiptune
