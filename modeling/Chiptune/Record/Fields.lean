import Chiptune.Record.Value

/-!
Records with named fields, as whole documents and as values inside others.

A record is written as fields between round brackets, after its name or without it.  Fields that a
record does not know are read over.
-/
namespace Chiptune.Record

def depthLimit : Nat := 128

/-- The name of a record, which may be left out unless the document asks for names. -/
def recordName (extensions : List Extension) (name : String) : Reader Unit := do
  if (← Reader.peek).any isNamePart then
    if (← identifier) = name.toList then return () else Reader.fail
  else if extensions.contains .explicitStructNames then Reader.fail

/-- The known fields of a record, in order.  The reader of a field answers nothing for a name that is
not known. -/
def record {α : Type} (extensions : List Extension) (name : String)
    (field : List Char → Reader (Option α)) : Reader (List α) := do
  recordName extensions name
  blank
  Reader.expect "("
  return (← items ')' (entry identifier field)).filterMap id

/-- A document that holds one value, which is read under the extensions of the document. -/
def document {α : Type} (reader : List Extension → Reader α) : Reader α := do
  blank
  let text ← Reader.rest
  let extensions ← attributes (text.length + 1)
  let value ← reader extensions
  blank
  return value

def writeField (depth : Nat) (name value : String) : String :=
  let indent := String.ofList (List.replicate (4 * depth) ' ')
  s!"{indent}{name}: {value},\n"

def writeRecord (depth : Nat) (fields : List (String × String)) : String :=
  let lines := fields.map fun field => writeField (depth + 1) field.1 field.2
  let indent := String.ofList (List.replicate (4 * depth) ' ')
  s!"(\n{String.join lines}{indent})"

end Chiptune.Record
