/-!
Types whose values a text can hold, and codecs for them.

A schema says what a program declares of a type.  How values are read from texts and written to them
is not said here: it is up to a codec, which is given from outside and knows nothing of a type beyond its
schema.
-/
namespace Chiptune

/-- A record as it is declared: its fields with their names, and the values of the fields that a text
leaves out. -/
structure Declaration (ι : Type) (β : ι → Type) (α : Type) where
  name : String
  fields : List ι
  label : ι → String
  get : α → ∀ i, β i
  build : (∀ i, β i) → α
  default : α
  decidableEq : DecidableEq ι := by infer_instance
  mem_fields : ∀ i, i ∈ fields
  nodup_label : (fields.map label).Nodup
  get_build : ∀ values, get (build values) = values
  build_get : ∀ value, build (get value) = value

/-- The record in which some fields have given values and the others those of the default. -/
def Declaration.fill {ι α : Type} {β : ι → Type} (declaration : Declaration ι β α)
    (entries : List (Σ i, β i)) : α :=
  haveI := declaration.decidableEq
  declaration.build fun i =>
    (entries.findSome? fun entry => if h : entry.1 = i then some (h ▸ entry.2) else none).getD
      (declaration.get declaration.default i)

/-- A type whose values a text can hold, where `γ` is the type of the numbers that need not be
whole. -/
inductive Schema (γ : Type) : Type → Type 1 where
  | word64 : Schema γ UInt64
  | word32 : Schema γ UInt32
  | level : Schema γ γ
  | record {ι α : Type} {β : ι → Type} (declaration : Declaration ι β α)
      (schema : ∀ i, Schema γ (β i)) : Schema γ α

/-- A way of holding values in texts. -/
class Codec (γ : Type) where
  read {α : Type} (schema : Schema γ α) (text : String) : Option α
  write {α : Type} (schema : Schema γ α) (value : α) : String

end Chiptune
