import Chiptune.Scalar.Basic

/-!
Exact fractions extended by two infinities and by what is no number, under the usual rules of
floating point.  Nothing is rounded, but whole numbers that no double can hold are infinite.
-/
namespace Chiptune

/-- A fraction, an infinity, or no number. -/
inductive Extended where
  | finite (value : Rat)
  | infinite (negative : Bool)
  | nan
deriving DecidableEq, Repr

namespace Extended

def neg : Extended → Extended
  | .finite x => .finite (-x)
  | .infinite negative => .infinite !negative
  | .nan => .nan

def add : Extended → Extended → Extended
  | .nan, _ | _, .nan => .nan
  | .finite x, .finite y => .finite (x + y)
  | .infinite a, .infinite b => if a = b then .infinite a else .nan
  | .infinite a, .finite _ | .finite _, .infinite a => .infinite a

/-- An infinity times a fraction; with zero there is no product. -/
def scale (negative : Bool) (x : Rat) : Extended :=
  if x = 0 then .nan else .infinite (negative != decide (x < 0))

def mul : Extended → Extended → Extended
  | .nan, _ | _, .nan => .nan
  | .finite x, .finite y => .finite (x * y)
  | .infinite a, .infinite b => .infinite (a != b)
  | .infinite a, .finite x | .finite x, .infinite a => scale a x

/-- Zero counts as positive: a positive value over zero is infinite. -/
def div : Extended → Extended → Extended
  | .nan, _ | _, .nan => .nan
  | .finite x, .finite y =>
    if y = 0 then scale false x else .finite (x / y)
  | .infinite _, .infinite _ => .nan
  | .infinite a, .finite x => .infinite (a != decide (x < 0))
  | .finite _, .infinite _ => .finite 0

/-- Whether one value is less than another; nothing is less or more than what is no number. -/
def less : Extended → Extended → Bool
  | .nan, _ | _, .nan => false
  | .finite x, .finite y => decide (x < y)
  | .infinite a, .infinite b => a && !b
  | .infinite a, .finite _ => a
  | .finite _, .infinite b => !b

/-- Whether two values are equal; what is no number is not equal to itself. -/
def equal : Extended → Extended → Bool
  | .nan, _ | _, .nan => false
  | x, y => decide (x = y)

/-- Whole numbers from here on round to infinity in double precision. -/
def overflow : Nat := Nat.pow 2 1024 - Nat.pow 2 970

def ofNat (n : Nat) : Extended := if n < overflow then .finite n else .infinite false

/-- Applies a function to a fraction; infinities stay. -/
def onFinite (f : Rat → Rat) : Extended → Extended
  | .finite x => .finite (f x)
  | .infinite negative => .infinite negative
  | .nan => .nan

def remainder : Extended → Extended → Extended
  | .finite x, .finite y => if y = 0 then .nan else .finite (x - (x / y).floor * y)
  | .finite x, .infinite _ => .finite x
  | _, _ => .nan

def nearestCount : Extended → Nat
  | .finite x => min (x + 1 / 2).floor.toNat maxCount
  | .infinite negative => if negative then 0 else maxCount
  | .nan => 0

end Extended

instance : Scalar Extended where
  zero := .finite 0
  one := .finite 1
  neg := Extended.neg
  add := Extended.add
  sub x y := Extended.add x (Extended.neg y)
  mul := Extended.mul
  div := Extended.div
  le x y := (Extended.less x y || Extended.equal x y) = true
  lt x y := Extended.less x y = true
  beq := Extended.equal
  natCast := Extended.ofNat
  ofScientific mantissa negative exponent :=
    .finite (OfScientific.ofScientific mantissa negative exponent)
  decidableLE x y := inferInstanceAs (Decidable ((Extended.less x y || Extended.equal x y) = true))
  decidableLT x y := inferInstanceAs (Decidable (Extended.less x y = true))
  isNaN x := decide (x = .nan)
  isInfinite x := match x with
    | .infinite _ => true
    | _ => false
  floor := Extended.onFinite fun x => x.floor
  abs
    | .infinite _ => .infinite false
    | x => Extended.onFinite Rat.abs x
  remainder := Extended.remainder
  nearestCount := Extended.nearestCount

end Chiptune
