import Chiptune.Record.Codec
import Chiptune.Scalar.Float

/-!
Gains as a document of settings holds them.
-/
namespace Chiptune

/-- Most places of a number before and after the point; beyond them it is infinite or zero. -/
def mostPlaces : Int := 400

/-- The nearest level to a decimal. -/
def nearestLevel (decimal : Decimal) : Float32 :=
  if decimal.significand = 0 ∨ decimal.order < -mostPlaces then 0
  else if mostPlaces < decimal.order then 1.0 / 0.0
  else Float32.ofScientific decimal.significand (decimal.exponent < 0) decimal.exponent.natAbs

namespace Config

/-- A gain of a document.  A minus before what is no number is part of the document, although it
makes no difference to the level. -/
structure Gain where
  level : Float32
  /-- Whether the gain is no number and has a minus. -/
  minus : Bool
deriving Repr

namespace Gain

def ofLevel (level : Float32) : Gain := ⟨level, false⟩

instance : OfScientific Gain where
  ofScientific significand negative exponent :=
    ofLevel (OfScientific.ofScientific significand negative exponent)

/-- Gains are compared as levels, so what is no number equals nothing. -/
instance : BEq Gain := ⟨fun first second => first.level == second.level⟩

instance : Numeral Gain where
  ofLiteral
    | .nan negative => ⟨0.0 / 0.0, negative⟩
    | .infinite negative => ofLevel (if negative then -1.0 / 0.0 else 1.0 / 0.0)
    | .decimal negative decimal =>
      ofLevel (if negative then -nearestLevel decimal else nearestLevel decimal)
  text gain :=
    let level := Decimal.text .scaled gain.level
    if gain.minus then s!"-{level}" else level

end Gain

end Config

end Chiptune
