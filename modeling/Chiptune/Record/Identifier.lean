import Chiptune.Record.Letters
import Chiptune.Record.Reader

/-!
Names of fields and records.
-/
namespace Chiptune.Record

/-- Characters of a raw name, which is written after `r#` and may also hold points and signs. -/
def isRawPart (c : Char) : Bool := isNamePart c || c == '.' || c == '+' || c == '-'

/-- The beginnings of texts in quotes that look like the beginning of a name. -/
def quoteOpenings : List String := ["b\"", "b'", "br#", "br\"", "r\"", "r#\"", "r##"]

def beginsAny (openings : List String) (text : List Char) : Bool :=
  openings.any fun opening => opening.toList.isPrefixOf text

/-- A name.  A plain name must not run on into characters that only a raw name may hold. -/
def identifier : Reader (List Char) := fun text =>
  match text with
  | [] => none
  | first :: _ =>
    if !isNameStart first || beginsAny quoteOpenings text then none
    else if "r#".toList.isPrefixOf text then
      match (text.drop 2).takeWhile isRawPart with
      | [] => none
      | name => some (name, (text.drop 2).dropWhile isRawPart)
    else
      match text.dropWhile isNamePart with
      | [] => some (text, [])
      | next :: rest =>
        if isRawPart next then none else some (text.takeWhile isNamePart, next :: rest)

/-- Skips what looks like a name at the beginning of a text, and answers with the rest. -/
def afterName? (text : List Char) : Option (List Char) :=
  match text with
  | [] => none
  | first :: rest =>
    if beginsAny quoteOpenings text then none
    else if "r#".toList.isPrefixOf text then
      match (text.drop 2).takeWhile isRawPart with
      | [] => none
      | _ => some ((text.drop 2).dropWhile isRawPart)
    else if isNameStart first then some (rest.dropWhile isNamePart)
    else none

/-- Takes a word if it stands at the front and no name goes on after it. -/
def word (literal : String) : Reader Bool := fun text =>
  if literal.toList.isPrefixOf text &&
      !((text.drop literal.length).head?.any isNamePart) then
    some (true, text.drop literal.length)
  else some (false, text)

/-- Takes the first of some words that stands at the front, and answers what it stands for. -/
def oneOf {α : Type} : List (String × α) → Reader (Option α)
  | [] => return none
  | (literal, meaning) :: others => do
    if ← word literal then return some meaning
    oneOf others

end Chiptune.Record
