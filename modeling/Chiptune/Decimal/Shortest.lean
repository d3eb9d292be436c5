import Chiptune.Decimal.Digits
import Chiptune.Scalar.Binary

/-!
The shortest decimal that reads back as a given binary value.

The reals that round to a value form an interval around it, closed if the mantissa is even.  For one
digit, two digits and so on, the two neighbours of the value on that decimal grid are tried; the
first grid with a neighbour inside the interval gives the answer, the nearer of two, and of two
equally near the larger.
-/
namespace Chiptune

/-- A decimal magnitude, `significand * 10 ^ exponent`. -/
structure Decimal where
  significand : Nat
  exponent : Int
deriving DecidableEq, Repr

namespace Decimal

/-- Position of the first digit: the magnitude is at least `10 ^ (order - 1)` and less than
`10 ^ order`. -/
def order (decimal : Decimal) : Int := decimal.exponent + (digits decimal.significand).length

/-- Drops zeros at the end of the significand. -/
def normalize : Nat → Decimal → Decimal
  | 0, decimal => decimal
  | places + 1, decimal =>
    if decimal.significand % 10 = 0 then
      normalize places ⟨decimal.significand / 10, decimal.exponent + 1⟩
    else decimal

/-- The interval of reals that round to a positive value, in units of `1 / denominator`. -/
structure Interval where
  low : Nat
  value : Nat
  high : Nat
  denominator : Nat
  /-- Whether the ends belong to the interval. -/
  closed : Bool

/-- The values halfway to the neighbours bound the interval.  Below a power of two the neighbours lie
twice as close. -/
def interval (format : BinaryFormat) (x : Binary) : Interval :=
  let quarter := x.exponent - 2
  let up := Nat.pow 2 quarter.toNat
  let atPower := x.mantissa = Nat.pow 2 format.fractionBits ∧ format.leastExponent < x.exponent
  { low := (4 * x.mantissa - if atPower then 1 else 2) * up
    value := 4 * x.mantissa * up
    high := (4 * x.mantissa + 2) * up
    denominator := Nat.pow 2 (-quarter).toNat
    closed := x.mantissa % 2 = 0 }

/-- The power of ten just above a positive fraction. -/
def orderOf (value denominator : Nat) : Int :=
  if denominator ≤ value then (digits (value / denominator)).length
  else 1 - (digits (denominator / value)).length

/-- The neighbours of the value on the grid `10 ^ exponent` that lie inside the interval; the nearer
one. -/
def onGrid (bounds : Interval) (exponent : Int) : Option Decimal :=
  let up := Nat.pow 10 (-exponent).toNat
  let unit := Nat.pow 10 exponent.toNat * bounds.denominator
  let inside (candidate : Nat) : Bool :=
    if bounds.closed then
      bounds.low * up ≤ candidate * unit && candidate * unit ≤ bounds.high * up
    else bounds.low * up < candidate * unit && candidate * unit < bounds.high * up
  let below := bounds.value * up / unit
  let rest := bounds.value * up % unit
  match inside below, inside (below + 1) with
  | true, true => some ⟨if 2 * rest < unit then below else below + 1, exponent⟩
  | true, false => some ⟨below, exponent⟩
  | false, true => some ⟨below + 1, exponent⟩
  | false, false => none

/-- Most digits that a double needs. -/
def mostDigits : Nat := 17

/-- The shortest decimal that reads back as a positive value. -/
def shortest (format : BinaryFormat) (x : Binary) : Decimal :=
  let bounds := interval format x
  let order := orderOf bounds.value bounds.denominator
  let found := (List.range mostDigits).findSome? fun n : Nat => onGrid bounds (order - (n + 1))
  normalize mostDigits (found.getD ⟨0, 0⟩)

end Decimal

end Chiptune
