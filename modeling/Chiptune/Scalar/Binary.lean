/-!
Binary floating-point values taken apart.

A finite value is `mantissa * 2 ^ exponent`, with its sign apart so that a negative zero keeps it.
Reading, printing and the exact remainder start from these parts.
-/
namespace Chiptune

/-- A finite binary value: sign, whole mantissa and power of two. -/
structure Binary where
  negative : Bool
  mantissa : Nat
  exponent : Int
deriving Repr, DecidableEq

inductive BinaryParts where
  | nan
  | infinite (negative : Bool)
  | finite (value : Binary)
deriving Repr, DecidableEq

/-- Widths of the fields of a binary format: fraction bits and exponent bits. -/
structure BinaryFormat where
  fractionBits : Nat
  exponentBits : Nat
deriving Repr, DecidableEq

namespace BinaryFormat

def double : BinaryFormat := ⟨52, 11⟩

def single : BinaryFormat := ⟨23, 8⟩

/-- Exponent of the least positive value, a mantissa of one. -/
def leastExponent (format : BinaryFormat) : Int :=
  2 - (Nat.pow 2 (format.exponentBits - 1) : Int) - format.fractionBits

/-- Splits a bit pattern into sign, exponent field and fraction.  The exponent field of zeros holds
the values without a leading one, and the field of ones holds the infinities and what is no
number. -/
def parts (format : BinaryFormat) (bits : Nat) : BinaryParts :=
  let one := Nat.pow 2 format.fractionBits
  let fields := Nat.pow 2 format.exponentBits
  let fraction := bits % one
  let field := bits / one % fields
  let negative := bits / (one * fields) % 2 == 1
  if field = fields - 1 then
    if fraction = 0 then .infinite negative else .nan
  else if field = 0 then
    .finite ⟨negative, fraction, format.leastExponent⟩
  else
    .finite ⟨negative, one + fraction, format.leastExponent + field - 1⟩

end BinaryFormat

class BinaryFloat (α : Type) where
  format : BinaryFormat
  bits : α → Nat

namespace BinaryFloat

def parts {α : Type} [BinaryFloat α] (x : α) : BinaryParts :=
  (format α).parts (bits x)

instance : BinaryFloat Float := ⟨.double, fun x => x.toBits.toNat⟩

instance : BinaryFloat Float32 := ⟨.single, fun x => x.toBits.toNat⟩

end BinaryFloat

/-- The exact rest of one positive value over another, both brought to the smaller exponent. -/
def Binary.remainder (x y : Binary) : Binary :=
  let exponent := min x.exponent y.exponent
  let scaled (z : Binary) : Nat := z.mantissa <<< (z.exponent - exponent).toNat
  ⟨false, scaled x % scaled y, exponent⟩

end Chiptune
