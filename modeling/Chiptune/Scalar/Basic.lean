/-!
The number types of the library.

Time is counted in seconds and sound in levels, and every rule about them is written once over a
`Scalar`: it runs on binary floating point and can be reasoned about on exact fractions.  The
comparisons follow the usual floating-point reading, in which a value that is not a number
compares with nothing.
-/
namespace Chiptune

/-- A number type with the operations that timing and synthesis need. -/
class Scalar (α : Type) extends Zero α, One α, Neg α, Add α, Sub α, Mul α, Div α, LE α, LT α,
    BEq α, NatCast α, OfScientific α where
  decidableLE : DecidableLE α
  decidableLT : DecidableLT α
  /-- Holds of results that are no number, such as zero over zero. -/
  isNaN : α → Bool
  isInfinite : α → Bool
  floor : α → α
  abs : α → α
  /-- The rest `x - n * y` in `[0, y)` of a positive `x` over a positive finite `y`. -/
  remainder : α → α → α
  /-- The nearest whole number, halves going up, held between 0 and `2 ^ 64 - 1`; 0 for what is no
  number. -/
  nearestCount : α → Nat

namespace Scalar

variable {α : Type} [Scalar α]

instance : DecidableLE α := Scalar.decidableLE

instance : DecidableLT α := Scalar.decidableLT

def isFinite (x : α) : Bool := !isNaN x && !isInfinite x

/-- The smaller of a value and a bound; the bound if the value is no number. -/
@[inline] def atMost (bound x : α) : α := if x < bound then x else bound

/-- The larger of a value and a bound; the bound if the value is no number. -/
@[inline] def atLeast (bound x : α) : α := if bound < x then x else bound

/-- Keeps a value between two bounds; what is no number stays so. -/
@[inline] def clamp (low high x : α) : α :=
  if x < low then low else if high < x then high else x

end Scalar

/-- Seconds given as a value of one type, read as a value of another, as when a frequency on the
time line is handed to a channel. -/
class Narrowing (τ γ : Type) where
  narrow : τ → γ

export Narrowing (narrow)

/-- Largest number of samples that a stamp or a counter can hold. -/
def maxCount : Nat := 0xFFFFFFFFFFFFFFFF

end Chiptune
