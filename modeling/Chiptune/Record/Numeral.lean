import Chiptune.Decimal.Text
import Chiptune.Record.Identifier
import Chiptune.Record.Quoted

/-!
Numbers in records.

Whole numbers may have a sign, a base, underscores between digits and a suffix for their width, and
may also be written as a character of one byte.  Other numbers may have a sign, a point, an
exponent, underscores and a suffix, and there are names for infinity and for what is no number.
Two points in a row end a number; they stand between the ends of a range.
-/
namespace Chiptune.Record

/-- A width of whole numbers: the suffix that names it, its least and its largest number. -/
structure Width where
  suffix : String
  least : Int
  largest : Int
deriving DecidableEq, Repr

namespace Width

def signed (bits : Nat) : Width :=
  ⟨s!"i{bits}", -(Nat.pow 2 (bits - 1) : Int), (Nat.pow 2 (bits - 1) : Int) - 1⟩

def unsigned (bits : Nat) : Width := ⟨s!"u{bits}", 0, (Nat.pow 2 bits : Int) - 1⟩

def contains (width : Width) (value : Int) : Bool :=
  width.least ≤ value && value ≤ width.largest

def all : List Width := [8, 16, 32, 64].map signed ++ [8, 16, 32, 64].map unsigned

end Width

/-- A whole number as it is written, with the width that it names, if it names one. -/
structure Whole where
  value : Int
  width : Option Width
deriving DecidableEq, Repr

/-- A character of one byte, after its opening quote. -/
def byteCharacter : Reader Nat := do
  let value ← match ← Reader.character with
    | '\\' => do
      match ← escape with
      | .byte value => pure value
      | .scalar _ => Reader.fail
    | c => if c.toNat < 128 then pure c.toNat else Reader.fail
  Reader.expect "'"
  return value

/-- The bases other than ten. -/
def base : Reader Nat := do
  if ← Reader.accept "0b" then return 2
  if ← Reader.accept "0o" then return 8
  if ← Reader.accept "0x" then return 16
  return 10

/-- Digits of a base with underscores between them; the first character is a digit. -/
def magnitude : Reader Nat := do
  let base ← base
  let digits ← Reader.takeWhile fun c => isHex c || c == '_'
  if digits.head?.all (· == '_') then Reader.fail
  let values := (digits.filter (· != '_')).filterMap hexValue?
  if values.all (· < base) then return values.foldl (fun n digit => base * n + digit) 0
  else Reader.fail

def sign : Reader Bool := do
  if ← Reader.accept "+" then return false
  Reader.accept "-"

/-- A whole number in digits.  It must fit the width that it names. -/
def signed : Reader Whole := do
  let negative ← sign
  let size ← magnitude
  let value : Int := if negative then -size else size
  let width ← oneOf (Width.all.map fun width => (width.suffix, width))
  if width.all (·.contains value) then return ⟨value, width⟩ else Reader.fail

/-- A whole number in digits or as a character, which has eight bits. -/
def integer : Reader Whole := do
  if ← Reader.accept "b'" then return ⟨← byteCharacter, some (.unsigned 8)⟩
  signed

/-- The number, if it is one of a width from zero up.  It must not name another width. -/
def Whole.natural (width : Width) (whole : Whole) : Reader Nat :=
  if whole.width.all (· = width) && 0 ≤ whole.value && width.contains whole.value then
    return whole.value.toNat
  else Reader.fail

def natural (width : Width) : Reader Nat := do (← integer).natural width

inductive Literal where
  | nan (negative : Bool)
  | infinite (negative : Bool)
  | decimal (negative : Bool) (decimal : Decimal)
deriving DecidableEq, Repr

/-- Whether the width that a suffix names may be double. -/
inductive FloatWidth where
  | single
  | any
deriving DecidableEq, Repr

def FloatWidth.suffixes : FloatWidth → List String
  | .single => ["f32"]
  | .any => ["f32", "f64"]

/-- The names of numbers that have no digits. -/
def unsignedNames : List (String × Literal) := [("inf", .infinite false), ("NaN", .nan false)]

def signedNames : List (String × Literal) :=
  [("+inf", .infinite false), ("-inf", .infinite true), ("+NaN", .nan false), ("-NaN", .nan true)]

/-- A number given by name, if there is one.  A suffix may follow its name. -/
def namedNumber (names : List (String × Literal)) (width : FloatWidth) : Reader (Option Literal) :=
  oneOf (names.flatMap fun (name, value) =>
    ("" :: width.suffixes).map fun suffix => (name ++ suffix, value))

def isFloatPart (c : Char) : Bool :=
  c.isDigit || c == 'e' || c == 'E' || c == '.' || c == '+' || c == '-' || c == '_'

/-- The characters of a number at the front of a text, added to those before them in reverse, and the
rest of the text. -/
def spanFloat (before : List Char) : List Char → List Char × List Char
  | [] => (before.reverse, [])
  | '.' :: '.' :: rest => (before.reverse, '.' :: '.' :: rest)
  | c :: rest =>
    if isFloatPart c then spanFloat (c :: before) rest else (before.reverse, c :: rest)

/-- Drops underscores; they must not come first or after a point. -/
def dropUnderscores (allowed : Bool) : List Char → Option (List Char)
  | [] => some []
  | c :: rest =>
    if c = '_' then if allowed then dropUnderscores allowed rest else none
    else
      let allowed :=
        if c.isDigit || c == 'e' || c == 'E' then true else if c == '.' then false else allowed
      (dropUnderscores allowed rest).map (c :: ·)

def splitSign : List Char → Bool × List Char
  | '-' :: rest => (true, rest)
  | '+' :: rest => (false, rest)
  | rest => (false, rest)

def exponent? : List Char → Option Int
  | [] => some 0
  | c :: rest =>
    let (negative, digits) := splitSign rest
    if (c = 'e' ∨ c = 'E') ∧ digits ≠ [] ∧ digits.all Char.isDigit then
      let size : Int := Decimal.ofDigits digits
      some (if negative then -size else size)
    else none

/-- The number that a text spells: digits with at most one point among or around them, then at most
one exponent. -/
def decimal? (text : List Char) : Option Literal := do
  let (negative, text) := splitSign text
  let whole := text.takeWhile Char.isDigit
  let text := text.dropWhile Char.isDigit
  let (fraction, text) := match text with
    | '.' :: text => (text.takeWhile Char.isDigit, text.dropWhile Char.isDigit)
    | text => ([], text)
  if whole.isEmpty && fraction.isEmpty then none
  else
    let exponent ← exponent? text
    let significand := Decimal.ofDigits (whole ++ fraction)
    return .decimal negative ⟨significand, exponent - fraction.length⟩

/-- A number that need not be whole. -/
def literal (width : FloatWidth) : Reader Literal := do
  if let some value ← namedNumber (unsignedNames ++ signedNames) width then return value
  let (digits, rest) := spanFloat [] (← Reader.rest)
  match (dropUnderscores false digits).bind decimal? with
  | none => Reader.fail
  | some value =>
    set rest
    let _ ← oneOf (width.suffixes.map fun suffix => (suffix, ()))
    return value

/-- Whether a number at the front of a text has parts that no whole number has. -/
def looksFractional (text : List Char) : Bool :=
  let text := (splitSign text).2
  (text.takeWhile fun c => isHex c || c == '_').length < (spanFloat [] text).1.length

/-- Any number.  What is no whole number of 64 bits is read as another number. -/
def skipNumber : Reader Unit := fun text =>
  let other := (literal .any text).map fun (_, rest) => ((), rest)
  if looksFractional text then other
  else
    match integer text with
    | some (whole, rest) =>
      if -0x8000000000000000 ≤ whole.value && whole.value < 0x10000000000000000 then some ((), rest)
      else other
    | none => other

/-- The points of a range, if there are any, and the number at its end.  Only a range that does not
include its end may leave it out. -/
def skipRangeEnd : Reader Unit := do
  if ← Reader.accept "..=" then skipNumber
  else if ← Reader.accept ".." then
    let _ ← Reader.tryRead skipNumber

/-- Any number, or a range of numbers. -/
def skipNumbers : Reader Unit := do
  unless "..".toList.isPrefixOf (← Reader.rest) do skipNumber
  skipRangeEnd

end Chiptune.Record
