import Chiptune.Record.Fields
import Chiptune.Record.Numeral
import Chiptune.Schema

/-!
Documents as a codec.

A document sets some of the fields of a record, each at most once and in any order.  This is the codec
that the program runs with; nothing that is said of settings depends on it.
-/
namespace Chiptune

/-- Numbers that a document can hold. -/
class Numeral (γ : Type) where
  ofLiteral : Record.Literal → γ
  text : γ → String

def Declaration.named? {ι α : Type} {β : ι → Type} (declaration : Declaration ι β α)
    (name : List Char) : Option ι :=
  declaration.fields.find? fun i => (declaration.label i).toList = name

/-- The value of a field after its name, or nothing for a name that is not known. -/
def Declaration.entry {ι α : Type} {β : ι → Type} (declaration : Declaration ι β α)
    (read : ∀ i, Record.Reader (β i)) (skip : Record.Reader Unit) (name : List Char) :
    Record.Reader (Option (Σ i, β i)) :=
  match declaration.named? name with
  | some i => (fun value => some ⟨i, value⟩) <$> read i
  | none => (fun _ => none) <$> skip

namespace Schema

open Record (Extension Reader)

variable {γ : Type} [Numeral γ]

/-- Reads a value, with a depth left for what its records do not know. -/
def reader (extensions : List Extension) {α : Type} (depth : Nat) : Schema γ α → Reader α
  | .word64 => Nat.toUInt64 <$> Record.natural (.unsigned 64)
  | .word32 => Nat.toUInt32 <$> Record.natural (.unsigned 32)
  | .level => Numeral.ofLiteral <$> Record.literal .single
  | .record declaration schema => do
    let entries ← Record.record extensions declaration.name
      (declaration.entry (fun i => (schema i).reader extensions (depth - 2))
        (Record.skipValue extensions depth))
    if (entries.map fun entry => declaration.label entry.1).Nodup then
      return declaration.fill entries
    else Reader.fail

/-- The text of a value inside a number of records. -/
def text {α : Type} (depth : Nat) : Schema γ α → α → String
  | .word64, value => Decimal.wholeText value.toNat
  | .word32, value => Decimal.wholeText value.toNat
  | .level, value => Numeral.text value
  | .record declaration schema, value =>
    Record.writeRecord depth (declaration.fields.map fun i =>
      (declaration.label i, (schema i).text (depth + 1) (declaration.get value i)))

end Schema

instance {γ : Type} [Numeral γ] : Codec γ where
  read schema text :=
    (Record.document fun extensions => schema.reader extensions (Record.depthLimit - 2)).runAll
      text.toList
  write schema value := schema.text 0 value

end Chiptune
