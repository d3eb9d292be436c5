import Chiptune.Decimal.Digits
import Chiptune.Notation.Blank

/-!
Notation as a list of tokens.

Blanks are dropped and ASCII capitals lowered; then each token takes as many characters as it can: a
note its accidental and its digits, a drum, a rest or a setting its digits, and any other
character stands alone.
-/
namespace Chiptune.Notation

inductive Drum where
  | kick
  | snare
deriving DecidableEq, Repr

/-- A token.  A length or a value is the number that its digits spell, if there are any. -/
inductive Token where
  | note (letter : Char) (accidental : Int) (length : Option Nat)
  | drum (drum : Drum) (length : Option Nat)
  | rest (length : Option Nat)
  | tempo (value : Option Nat)
  | octave (value : Option Nat)
  | length (value : Option Nat)
  | octaveUp
  | octaveDown
  | other (character : Char)
deriving DecidableEq, Repr

/-- The characters that carry meaning: no blanks, and ASCII letters in lower case. -/
def significant (text : List Char) : List Char :=
  (text.filter fun c => !isBlank c).map Char.toLower

/-- A run of digits, which may be empty, and what follows it. -/
def takeNumber (text : List Char) : Option Nat × List Char :=
  match text.takeWhile Char.isDigit with
  | [] => (none, text)
  | digits => (some (Decimal.ofDigits digits), text.dropWhile Char.isDigit)

/-- One accidental at most, in semitones, and what follows it. -/
def takeAccidental : List Char → Int × List Char
  | '#' :: rest | '+' :: rest => (1, rest)
  | '-' :: rest => (-1, rest)
  | rest => (0, rest)

def isNoteLetter (c : Char) : Bool := 'a' ≤ c && c ≤ 'g'

def numbered (make : Option Nat → Token) (rest : List Char) : Token × List Char :=
  let (number, rest) := takeNumber rest
  (make number, rest)

/-- The token that begins with a character, and what follows it. -/
def nextToken (c : Char) (rest : List Char) : Token × List Char :=
  if isNoteLetter c then
    let (accidental, rest) := takeAccidental rest
    numbered (.note c accidental) rest
  else
    match c with
    | 'k' => numbered (.drum .kick) rest
    | 's' => numbered (.drum .snare) rest
    | 'r' => numbered .rest rest
    | 't' => numbered .tempo rest
    | 'o' => numbered .octave rest
    | 'l' => numbered .length rest
    | '>' => (.octaveUp, rest)
    | '<' => (.octaveDown, rest)
    | c => (.other c, rest)

theorem length_takeNumber_le (text : List Char) : (takeNumber text).2.length ≤ text.length := by
  unfold takeNumber
  split
  · exact Nat.le_refl _
  · exact (List.dropWhile_sublist _).length_le

theorem length_takeAccidental_le (text : List Char) :
    (takeAccidental text).2.length ≤ text.length := by
  unfold takeAccidental
  split <;> simp

theorem length_nextToken_le (c : Char) (rest : List Char) :
    (nextToken c rest).2.length ≤ rest.length := by
  have hnumbered (make : Option Nat → Token) (text : List Char) :
      (numbered make text).2.length ≤ text.length := length_takeNumber_le text
  unfold nextToken
  split
  · exact Nat.le_trans (hnumbered _ _) (length_takeAccidental_le rest)
  · split <;> simp [hnumbered]

def tokensOf : List Char → List Token
  | [] => []
  | c :: rest => (nextToken c rest).1 :: tokensOf (nextToken c rest).2
termination_by text => text.length
decreasing_by
  exact Nat.lt_succ_of_le (length_nextToken_le c rest)

def tokens (text : String) : List Token :=
  tokensOf (significant text.toList)

end Chiptune.Notation
