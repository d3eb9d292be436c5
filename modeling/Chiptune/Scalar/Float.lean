import Chiptune.Scalar.Basic
import Chiptune.Scalar.Binary

/-!
Floating-point time and levels: double precision for seconds, single precision for levels.
-/
namespace Chiptune

/-- The rest of one positive finite value over another, which is always representable.  With an
infinite `x` there is none. -/
def floatRemainder (x y : Float) : Float :=
  match BinaryFloat.parts x, BinaryFloat.parts y with
  | .finite a, .finite b =>
    let rest := a.remainder b
    (Float.ofNat rest.mantissa).scaleB rest.exponent
  | _, _ => 0.0 / 0.0

def float32Remainder (x y : Float32) : Float32 :=
  match BinaryFloat.parts x, BinaryFloat.parts y with
  | .finite a, .finite b =>
    let rest := a.remainder b
    (Float32.ofNat rest.mantissa).scaleB rest.exponent
  | _, _ => 0.0 / 0.0

instance : Scalar Float where
  zero := 0.0
  one := 1.0
  natCast := Float.ofNat
  decidableLE := inferInstance
  decidableLT := inferInstance
  isNaN := Float.isNaN
  isInfinite := Float.isInf
  floor := Float.floor
  abs := Float.abs
  remainder := floatRemainder
  nearestCount x := x.round.toUInt64.toNat

instance : Scalar Float32 where
  zero := 0.0
  one := 1.0
  natCast := Float32.ofNat
  decidableLE := inferInstance
  decidableLT := inferInstance
  isNaN := Float32.isNaN
  isInfinite := Float32.isInf
  floor := Float32.floor
  abs := Float32.abs
  remainder := float32Remainder
  nearestCount x := x.round.toUInt64.toNat

instance : Narrowing Float Float32 := ⟨Float.toFloat32⟩

end Chiptune
