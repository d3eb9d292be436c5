import Chiptune.Record.Blank
import Chiptune.Record.Identifier
import Chiptune.Record.Quoted

/-!
Attributes at the head of a document.

An attribute switches extensions on, or says what the document is.
-/
namespace Chiptune.Record

/-- Ways of writing that a document may switch on. -/
inductive Extension where
  /-- A record of one value may be written as that value. -/
  | unwrapNewtypes
  /-- The value inside an option may stand alone. -/
  | implicitSome
  /-- The fields or values of a record inside an option may stand in the brackets of the option. -/
  | unwrapVariantNewtypes
  /-- The name of a record must not be left out. -/
  | explicitStructNames
deriving DecidableEq, Repr

namespace Extension

def name : Extension → String
  | .unwrapNewtypes => "unwrap_newtypes"
  | .implicitSome => "implicit_some"
  | .unwrapVariantNewtypes => "unwrap_variant_newtypes"
  | .explicitStructNames => "explicit_struct_names"

def all : List Extension :=
  [.unwrapNewtypes, .implicitSome, .unwrapVariantNewtypes, .explicitStructNames]

def named? (name : List Char) : Option Extension :=
  all.find? fun extension => extension.name.toList = name

end Extension

/-- Characters that must come next, and the blanks after them. -/
def expectSpaced (literal : String) : Reader Unit := do
  Reader.expect literal
  blank

def extensionList : Nat → Reader (List Extension)
  | 0 => Reader.fail
  | fuel + 1 => do
    match Extension.named? (← identifier) with
    | none => Reader.fail
    | some extension =>
      if (← comma) && (← Reader.peek).any isNamePart then
        return extension :: (← extensionList fuel)
      return [extension]

def switchedOn : Reader (List Extension) := do
  expectSpaced "("
  let text ← Reader.rest
  let extensions ← extensionList (text.length + 1)
  blank
  expectSpaced ")"
  return extensions

/-- A text that says what the document is, which switches nothing on. -/
def description : Reader (List Extension) := do
  expectSpaced "="
  quoted
  blank
  return []

def attributeKinds : List (String × Reader (List Extension)) :=
  [("enable", switchedOn), ("type", description), ("schema", description)]

/-- An attribute, with the extensions that it switches on. -/
def headAttribute : Reader (List Extension) := do
  for literal in ["#", "!", "["] do expectSpaced literal
  match ← oneOf attributeKinds with
  | none => Reader.fail
  | some contents =>
    blank
    let extensions ← contents
    expectSpaced "]"
    return extensions

/-- The attributes at the head of a document, with the extensions that they switch on. -/
def attributes : Nat → Reader (List Extension)
  | 0 => Reader.fail
  | fuel + 1 => do
    if (← Reader.peek) = some '#' then
      let extensions ← headAttribute
      return extensions ++ (← attributes fuel)
    return []

end Chiptune.Record
