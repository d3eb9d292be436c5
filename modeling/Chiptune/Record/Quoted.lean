import Chiptune.Record.Reader

/-!
Text in quotes.

A text holds characters, or bytes if a `b` stands before it, and may be raw.  Only a text that is not
raw has escapes.  A backslash at the end of a line joins the next line on.  Looking for the end of a
text tells a broken text from what is no text.
-/
namespace Chiptune.Record

def hexValue? (c : Char) : Option Nat :=
  if c.isDigit then some (c.toNat - '0'.toNat)
  else if 'a' ≤ c ∧ c ≤ 'f' then some (c.toNat - 'a'.toNat + 10)
  else if 'A' ≤ c ∧ c ≤ 'F' then some (c.toNat - 'A'.toNat + 10)
  else none

def isHex (c : Char) : Bool := (hexValue? c).isSome

def ofHex (digits : List Char) : Nat :=
  digits.foldl (fun value digit => 16 * value + (hexValue? digit).getD 0) 0

def hexByte : Reader Nat := do
  let high ← Reader.character
  let low ← Reader.character
  if isHex high && isHex low then return ofHex [high, low] else Reader.fail

inductive Escape where
  | byte (value : Nat)
  | scalar (value : Char)

/-- Up to six hexadecimal digits in braces, for a Unicode character. -/
def unicodeEscape : Reader Escape := fun text =>
  match text with
  | '\x7b' :: rest =>
    let digits := (rest.take 6).takeWhile (· != '\x7d')
    match rest.drop digits.length with
    | '\x7d' :: rest =>
      let value := ofHex digits
      if digits.isEmpty || !digits.all isHex || !decide value.isValidChar then none
      else some (.scalar (Char.ofNat value), rest)
    | _ => none
  | _ => none

def escape : Reader Escape := do
  match ← Reader.character with
  | '\'' => return .byte 39
  | '"' => return .byte 34
  | '\\' => return .byte 92
  | 'n' => return .byte 10
  | 'r' => return .byte 13
  | 't' => return .byte 9
  | '0' => return .byte 0
  | 'x' => return .byte (← hexByte)
  | 'u' => unicodeEscape
  | _ => Reader.fail

/-- Reads on until the bytes that began with an escape make up a character, with a number of further
escapes at most. -/
def completeCharacter : Nat → List UInt8 → Reader Unit
  | 0, _ => Reader.fail
  | more + 1, bytes => do
    Reader.expect "\\x"
    let bytes := bytes ++ [(← hexByte).toUInt8]
    if ByteArray.validateUTF8 ⟨bytes.toArray⟩ then return ()
    completeCharacter more bytes

/-- Skips an escape after its backslash.  In a text of characters, bytes beyond ASCII must make up a
character. -/
def skipEscape (ofBytes : Bool) : Reader Unit := do
  match ← escape with
  | .byte value => if 128 ≤ value && !ofBytes then completeCharacter 3 [value.toUInt8]
  | .scalar _ => return ()

/-- Skips what may follow a backslash: the end of a line, or the rest of an escape. -/
def skipEscaped (ofBytes : Bool) : Reader Unit := do
  if ← Reader.accept "\n" then return ()
  if ← Reader.accept "\r\n" then return ()
  skipEscape ofBytes

/-- What comes of looking for the end of a text. -/
inductive Ending where
  /-- The end, with what is left after it. -/
  | found (rest : List Char)
  /-- There is no closing quote, or before it an escape that stands for nothing. -/
  | broken
  /-- There is no opening quote. -/
  | notText
deriving DecidableEq, Repr

namespace Ending

/-- The ending of a text that has begun, given what is left after it. -/
def ofRest : Option (List Char) → Ending
  | some rest => .found rest
  | none => .broken

def rest? : Ending → Option (List Char)
  | .found rest => some rest
  | .broken | .notText => none

/-- What is left after a text, if there is one; only a broken text is refused. -/
def restOr (text : List Char) : Ending → Option (List Char)
  | .found rest => some rest
  | .broken => none
  | .notText => some text

end Ending

def skipQuoted (ofBytes : Bool) : Nat → List Char → Option (List Char)
  | 0, _ => none
  | fuel + 1, text =>
    match text.dropWhile fun c => c != '\\' && c != '"' with
    | '"' :: rest => some rest
    | '\\' :: rest => do
      let (_, rest) ← skipEscaped ofBytes rest
      skipQuoted ofBytes fuel rest
    | _ => none

/-- Skips text up to a quote that is followed by a number of hashes. -/
def skipRaw (closing : List Char) : List Char → Option (List Char)
  | [] => none
  | c :: rest =>
    if closing.isPrefixOf (c :: rest) then some ((c :: rest).drop closing.length)
    else skipRaw closing rest

/-- Looks for the end of a raw text, after its `r`. -/
def endRaw (text : List Char) : Ending :=
  let hashes := text.takeWhile (· == '#')
  match text.drop hashes.length with
  | '"' :: rest => .ofRest (skipRaw ('"' :: hashes) rest)
  | _ => .notText

/-- Looks for the end of a text, plain or raw, of characters or of bytes.  Every step takes a
character, so the length of the text bounds their number. -/
def ending (ofBytes : Bool) : List Char → Ending
  | '"' :: rest => .ofRest (skipQuoted ofBytes (rest.length + 1) rest)
  | 'r' :: rest => endRaw rest
  | _ => .notText

/-- Looks for the end of a text of bytes with its `b`. -/
def endingOfBytes : List Char → Ending
  | 'b' :: rest => ending true rest
  | _ => .notText

def quoted : Reader Unit := fun text => (ending false text).rest?.map fun rest => ((), rest)

def quotedBytes : Reader Unit := fun text => (endingOfBytes text).rest?.map fun rest => ((), rest)

/-- Skips an escape for a character of its own; a byte beyond ASCII is none. -/
def skipCharacterEscape : Reader Unit := do
  match ← escape with
  | .byte value => if 128 ≤ value then Reader.fail
  | .scalar _ => return ()

def quotedCharacter : Reader Unit := do
  Reader.expect "'"
  if (← Reader.character) == '\\' then skipCharacterEscape
  Reader.expect "'"

end Chiptune.Record
