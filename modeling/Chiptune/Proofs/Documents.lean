import Mathlib.Data.List.Nodup
import Chiptune.Record.Blank
import Chiptune.Schema

/-!
How documents may be written, and codecs that read and write them.

A record is its fields between round brackets, after its name or without it.  Commas stand between the
fields and one may stand after the last; blanks and comments may stand around every name, colon, value
and comma.

Main statement: a codec that reads and writes documents reads back what it writes of a value, if it reads
back the numbers in it.
-/
namespace Chiptune.Record

variable {ι κ : Type}

/-- The inside of a block comment up to its closing mark.  Block comments may stand in it. -/
inductive IsBlock : List Char → Prop
  | close : IsBlock ['*', '/']
  | char {c : Char} {text : List Char} :
      ¬['/', '*'] <+: c :: text → ¬['*', '/'] <+: c :: text → IsBlock text → IsBlock (c :: text)
  | block {comment text : List Char} :
      IsBlock comment → IsBlock text → IsBlock ('/' :: '*' :: (comment ++ text))

/-- Blanks and comments, or nothing.  A comment ends with its line or at its closing mark. -/
inductive IsGap : List Char → Prop
  | plain {text : List Char} : text ⊆ blanks → IsGap text
  | line {before comment text : List Char} :
      before ⊆ blanks → '\n' ∉ comment → IsGap ('\n' :: text) →
      IsGap (before ++ '/' :: '/' :: (comment ++ '\n' :: text))
  | block {before comment text : List Char} :
      before ⊆ blanks → IsBlock comment → IsGap text →
      IsGap (before ++ '/' :: '*' :: (comment ++ text))

/-- Characters that may make up a number, its sign, its exponent and its suffix. -/
def IsNumber (text : List Char) : Prop :=
  text ≠ [] ∧ ∀ c ∈ text, c.isAlphanum ∨ c ∈ ['+', '-', '.', '_']

/-- A name that cannot be mistaken for anything else. -/
def IsName (name : String) : Prop :=
  3 ≤ name.toList.length ∧ ∀ c ∈ name.toList, c.isAlpha ∨ c = '_'

instance (text : List Char) : Decidable (IsNumber text) :=
  @instDecidableAnd _ _ inferInstance (List.decidableBAll ..)

instance (name : String) : Decidable (IsName name) :=
  @instDecidableAnd _ _ inferInstance (List.decidableBAll ..)

/-- How a name and a value are written: with a colon between them and gaps anywhere. -/
inductive EntryText (name value : List Char) : List Char → Prop
  | mk {before afterName beforeValue after : List Char} :
      IsGap before → IsGap afterName → IsGap beforeValue → IsGap after →
      EntryText name value
        (before ++ name ++ afterName ++ ':' :: beforeValue ++ value ++ after)

/-- How fields are written, given the name of each and how its value may be written: with commas
between them and at most one after the last. -/
inductive Listing (name : ι → List Char) (written : ι → List Char → Prop) :
    List ι → List Char → Prop
  | nil {gap : List Char} : IsGap gap → Listing name written [] gap
  | last {item : ι} {value text : List Char} :
      written item value → EntryText (name item) value text → Listing name written [item] text
  | cons {item : ι} {items : List ι} {value text more : List Char} :
      written item value → EntryText (name item) value text → Listing name written items more →
      Listing name written (item :: items) (text ++ ',' :: more)

/-- How a record is written: its fields between round brackets, after its name or without it. -/
inductive RecordText (title : List Char) (name : ι → List Char) (written : ι → List Char → Prop)
    (items : List ι) : List Char → Prop
  | named {gap text : List Char} :
      IsGap gap → Listing name written items text →
      RecordText title name written items (title ++ gap ++ '(' :: text ++ [')'])
  | bare {text : List Char} :
      Listing name written items text → RecordText title name written items ('(' :: text ++ [')'])

section

variable {name : ι → List Char} {written : ι → List Char → Prop} {name' : κ → List Char}
  {written' : κ → List Char → Prop} {items : List ι} {text : List Char}

theorem Listing.map (f : ι → κ) (hname : ∀ i, name' (f i) = name i)
    (hwritten : ∀ i text, written i text → written' (f i) text)
    (h : Listing name written items text) : Listing name' written' (items.map f) text := by
  induction h with
  | nil hgap => exact .nil hgap
  | last hvalue hentry => exact .last (hwritten _ _ hvalue) ((hname _).symm ▸ hentry)
  | cons hvalue hentry _ ih => exact .cons (hwritten _ _ hvalue) ((hname _).symm ▸ hentry) ih

theorem RecordText.map {title : List Char} (f : ι → κ) (hname : ∀ i, name' (f i) = name i)
    (hwritten : ∀ i text, written i text → written' (f i) text)
    (h : RecordText title name written items text) :
    RecordText title name' written' (items.map f) text := by
  cases h with
  | named hgap hlisting => exact .named hgap (hlisting.map f hname hwritten)
  | bare hlisting => exact .bare (hlisting.map f hname hwritten)

end

end Chiptune.Record

namespace Chiptune

namespace Declaration

variable {ι α : Type} {β : ι → Type}

theorem fill_map [DecidableEq ι] (declaration : Declaration ι β α) (items : List ι)
    (value : ∀ i, β i) :
    declaration.fill (items.map fun i => ⟨i, value i⟩) = declaration.build fun i =>
      if i ∈ items then value i else declaration.get declaration.default i := by
  refine congrArg declaration.build (funext fun i => ?_)
  induction items with
  | nil => rfl
  | cons first items ih =>
      by_cases hfirst : first = i
      · subst hfirst
        simp
      · simp only [List.map_cons, List.findSome?_cons, dif_neg hfirst, List.mem_cons,
          Ne.symm hfirst, false_or]
        exact ih

theorem fill_all (declaration : Declaration ι β α) (value : α) :
    declaration.fill (declaration.fields.map fun i => ⟨i, declaration.get value i⟩) = value := by
  have := declaration.decidableEq
  simp [fill_map, declaration.mem_fields, declaration.build_get]

theorem nodup_fields (declaration : Declaration ι β α) : declaration.fields.Nodup :=
  declaration.nodup_label.of_map

end Declaration

variable {γ α : Type}

/-- Records with plain names, which lie inside each other at most so many times. -/
def Schema.Plain : ∀ {α : Type}, Nat → Schema γ α → Prop
  | _, _, .word64 | _, _, .word32 | _, _, .level => True
  | _, 0, .record _ _ => False
  | _, depth + 1, .record declaration schema =>
    Record.IsName declaration.name ∧ (∀ i, Record.IsName (declaration.label i)) ∧
      ∀ i, (schema i).Plain depth

/-- How deep records may lie inside each other. -/
def Schema.mostNested : Nat := 16

variable [Codec γ]

/-- A text that is read as a number. -/
def Codec.NumberText (schema : Schema γ α) (value : α) (text : List Char) : Prop :=
  Record.IsNumber text ∧ Codec.read schema (String.ofList text) = some value

/-- A number that is read back from what is written of it. -/
def Codec.ReadsBack (schema : Schema γ α) (value : α) : Prop :=
  NumberText schema value (Codec.write schema value).toList

namespace Schema

/-- How a value may be written.  A record may leave out fields, which then have the values of the
default. -/
def Holds : ∀ {α : Type}, Schema γ α → α → List Char → Prop
  | _, .word64, value, text => Codec.NumberText (.word64 : Schema γ UInt64) value text
  | _, .word32, value, text => Codec.NumberText (.word32 : Schema γ UInt32) value text
  | _, .level, value, text => Codec.NumberText .level value text
  | _, .record declaration schema, value, text =>
    ∃ entries, (entries.map Sigma.fst).Nodup ∧ value = declaration.fill entries ∧
      Record.RecordText declaration.name.toList (fun entry => (declaration.label entry.1).toList)
        (fun entry => (schema entry.1).Holds entry.2) entries text

/-- How a value is written with its numbers as they are written alone and with all the fields of its
records. -/
def Prints : ∀ {α : Type}, Schema γ α → α → List Char → Prop
  | _, .word64, value, text => text = (Codec.write (.word64 : Schema γ UInt64) value).toList
  | _, .word32, value, text => text = (Codec.write (.word32 : Schema γ UInt32) value).toList
  | _, .level, value, text => text = (Codec.write .level value).toList
  | _, .record declaration schema, value, text =>
    Record.RecordText declaration.name.toList (fun i => (declaration.label i).toList)
      (fun i => (schema i).Prints (declaration.get value i)) declaration.fields text

def AllReadBack : ∀ {α : Type}, Schema γ α → α → Prop
  | _, .word64, value => Codec.ReadsBack (.word64 : Schema γ UInt64) value
  | _, .word32, value => Codec.ReadsBack (.word32 : Schema γ UInt32) value
  | _, .level, value => Codec.ReadsBack .level value
  | _, .record declaration schema, value => ∀ i, (schema i).AllReadBack (declaration.get value i)

theorem Prints.holds {schema : Schema γ α} {value : α} (hnumbers : schema.AllReadBack value)
    {text : List Char} (h : schema.Prints value text) : schema.Holds value text := by
  induction schema generalizing text with
  | word64 | word32 | level =>
      cases h
      exact hnumbers
  | record declaration schema ih =>
      refine ⟨declaration.fields.map fun i => ⟨i, declaration.get value i⟩, ?_,
        (declaration.fill_all value).symm, ?_⟩
      · simpa [Function.comp_def] using declaration.nodup_fields
      · exact Record.RecordText.map _ (fun _ => rfl) (fun i _ => ih i (hnumbers i)) h

end Schema

namespace Codec

/-- Whatever a document holds is read from it, whatever gaps there are: a record by the values of the
fields that are there, in any order, and by the default for the others. -/
def ReadsDocuments (γ : Type) [Codec γ] : Prop :=
  ∀ {α : Type} {schema : Schema γ α}, schema.Plain Schema.mostNested →
    ∀ {value : α} {before text after : List Char},
      Record.IsGap before → schema.Holds value text → Record.IsGap after →
      Codec.read schema (String.ofList (before ++ (text ++ after))) = some value

/-- What is written of a value is a document with all the fields, each of which is written as it is
written alone. -/
def WritesDocuments (γ : Type) [Codec γ] : Prop :=
  ∀ {α : Type} {schema : Schema γ α}, schema.Plain Schema.mostNested →
    ∀ value : α, schema.Prints value (Codec.write schema value).toList

theorem ReadsDocuments.read_write (hreads : ReadsDocuments γ) (hwrites : WritesDocuments γ)
    {schema : Schema γ α} (hschema : schema.Plain Schema.mostNested) {value : α}
    (hnumbers : schema.AllReadBack value) :
    Codec.read schema (Codec.write schema value) = some value := by
  have hread := hreads hschema (.plain (List.nil_subset _)) ((hwrites hschema value).holds hnumbers)
    (.plain (List.nil_subset _))
  simpa using hread

end Codec

end Chiptune
