/-!
Whole numbers in decimal digits.  Main statement: reading the digits of a number gives it back.
-/
namespace Chiptune.Decimal

def digitValue (c : Char) : Nat := c.toNat - '0'.toNat

def ofDigits (digits : List Char) : Nat :=
  digits.foldl (fun value digit => 10 * value + digitValue digit) 0

/-- The decimal digits of a number, without leading zeros; zero is one digit. -/
def digits (n : Nat) : List Char :=
  if n < 10 then [Nat.digitChar n] else digits (n / 10) ++ [Nat.digitChar (n % 10)]

def wholeText (n : Nat) : String := String.ofList (digits n)

theorem ofDigits_append_singleton (text : List Char) (c : Char) :
    ofDigits (text ++ [c]) = 10 * ofDigits text + digitValue c := by
  simp [ofDigits]

theorem digitValue_digitChar {n : Nat} (h : n < 10) : digitValue (Nat.digitChar n) = n := by
  simp [digitValue, Nat.toNat_digitChar_of_lt_ten h]

theorem ofDigits_digits (n : Nat) : ofDigits (digits n) = n := by
  induction n using digits.induct with
  | case1 n h =>
    rw [digits, if_pos h]
    simpa [ofDigits] using digitValue_digitChar h
  | case2 n h ih =>
    rw [digits, if_neg h, ofDigits_append_singleton, ih,
      digitValue_digitChar (Nat.mod_lt n (by decide))]
    omega

end Chiptune.Decimal
