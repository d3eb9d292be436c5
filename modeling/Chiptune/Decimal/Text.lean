import Chiptune.Decimal.Shortest

/-!
Floating-point values as text: shortest, with or without an exponent, or with a fixed number of
places.
-/
namespace Chiptune.Decimal

/-- How a shortest decimal is laid out. -/
structure Layout where
  /-- Whether a whole number ends in `.0`. -/
  marksWhole : Bool
  /-- Orders of magnitude that are written without an exponent. -/
  positional : Int → Bool

/-- Every magnitude is written out, and whole numbers have no point. -/
def Layout.plain : Layout := ⟨false, fun _ => true⟩

/-- Whole numbers end in `.0`; magnitudes from `10 ^ 16` on and below `10 ^ -4` have an exponent. -/
def Layout.scaled : Layout := ⟨true, fun order => -4 < order && order ≤ 16⟩

def zeros (n : Nat) : List Char := List.replicate n '0'

/-- A decimal without an exponent. -/
def writePositional (marksWhole : Bool) (decimal : Decimal) : List Char :=
  let shown := digits decimal.significand
  let order := decimal.order
  if order ≤ 0 then '0' :: '.' :: zeros (-order).toNat ++ shown
  else if order < shown.length then shown.take order.toNat ++ '.' :: shown.drop order.toNat
  else shown ++ zeros (order.toNat - shown.length) ++ if marksWhole then ['.', '0'] else []

def writeInt (n : Int) : List Char :=
  if n < 0 then '-' :: digits n.natAbs else digits n.natAbs

/-- A decimal with one digit before the point and an exponent. -/
def writeExponent (decimal : Decimal) : List Char :=
  let exponent := 'e' :: writeInt (decimal.order - 1)
  match digits decimal.significand with
  | first :: second :: rest => first :: '.' :: second :: rest ++ exponent
  | shown => shown ++ exponent

def write (layout : Layout) (decimal : Decimal) : List Char :=
  if decimal.significand = 0 then '0' :: if layout.marksWhole then ['.', '0'] else []
  else if layout.positional decimal.order then writePositional layout.marksWhole decimal
  else writeExponent decimal

def withSign (negative : Bool) (text : List Char) : String :=
  String.ofList (if negative then '-' :: text else text)

/-- Text of a value, the finite ones in a way of their own. -/
def writeParts (finite : Binary → List Char) : BinaryParts → String
  | .nan => "NaN"
  | .infinite negative => withSign negative "inf".toList
  | .finite x => withSign x.negative (finite x)

/-- The shortest text that reads back. -/
def text {α : Type} [BinaryFloat α] (layout : Layout) (x : α) : String :=
  writeParts (fun value =>
    write layout (if value.mantissa = 0 then ⟨0, 0⟩
      else shortest (BinaryFloat.format α) value)) (BinaryFloat.parts x)

/-- A quotient rounded to the nearest whole number, a half to the even one. -/
def roundDiv (n d : Nat) : Nat :=
  let below := n / d
  let rest := n % d
  if 2 * rest < d ∨ (2 * rest = d ∧ below % 2 = 0) then below else below + 1

/-- The exact value with a number of places, at least one. -/
def fixed {α : Type} [BinaryFloat α] (places : Nat) (x : α) : String :=
  writeParts (fun value =>
    let scale := Nat.pow 10 places
    let units := roundDiv (value.mantissa * Nat.pow 2 value.exponent.toNat * scale)
      (Nat.pow 2 (-value.exponent).toNat)
    let fraction := digits (units % scale)
    digits (units / scale) ++ '.' :: zeros (places - fraction.length) ++ fraction)
    (BinaryFloat.parts x)

end Chiptune.Decimal
