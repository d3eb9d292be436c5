/-!
Readers take a value from the front of a text and leave the rest.
-/
namespace Chiptune.Record

/-- Reads a value and leaves the rest of the text, or fails. -/
abbrev Reader := StateT (List Char) Option

namespace Reader

variable {α : Type}

def fail : Reader α := fun _ => none

def peek : Reader (Option Char) := fun text => some (text.head?, text)

def rest : Reader (List Char) := fun text => some (text, text)

def character : Reader Char
  | [] => none
  | c :: rest => some (c, rest)

/-- Takes some characters if the text begins with them. -/
def accept (literal : String) : Reader Bool := fun text =>
  if literal.toList.isPrefixOf text then some (true, text.drop literal.length)
  else some (false, text)

def expect (literal : String) : Reader Unit := do
  unless ← accept literal do fail

/-- The longest run of characters of a kind, which may be empty. -/
def takeWhile (p : Char → Bool) : Reader (List Char) := fun text =>
  some (text.takeWhile p, text.dropWhile p)

/-- A reader that leaves the text alone if it fails. -/
def tryRead (reader : Reader α) : Reader (Option α) := fun text =>
  match reader text with
  | some (value, rest) => some (some value, rest)
  | none => some (none, text)

def runAll (reader : Reader α) (text : List Char) : Option α :=
  match reader text with
  | some (value, []) => some value
  | _ => none

end Reader

end Chiptune.Record
