import Chiptune.Proofs.Listing

/-!
The reader and the writer of records as a codec.

Main statements: documents are read and written by it, and whole numbers are read back.
-/
namespace Chiptune

namespace Declaration

variable {ι α : Type} {β : ι → Type}

theorem label_injective (declaration : Declaration ι β α) : Function.Injective declaration.label :=
  fun i j h => List.inj_on_of_nodup_map declaration.nodup_label (declaration.mem_fields i)
    (declaration.mem_fields j) h

theorem named?_label (declaration : Declaration ι β α) (i : ι) :
    declaration.named? (declaration.label i).toList = some i := by
  unfold named?
  cases hfound : declaration.fields.find? fun other =>
      (declaration.label other).toList = (declaration.label i).toList with
  | none => simpa using List.find?_eq_none.mp hfound i (declaration.mem_fields i)
  | some other =>
      have hlabel := List.find?_some hfound
      rw [decide_eq_true_eq, String.toList_inj] at hlabel
      rw [declaration.label_injective hlabel]

theorem entry_label (declaration : Declaration ι β α) (read : ∀ i, Record.Reader (β i))
    (skip : Record.Reader Unit) (i : ι) :
    declaration.entry read skip (declaration.label i).toList =
      (fun value => some ⟨i, value⟩) <$> read i := by
  rw [entry, declaration.named?_label]

end Declaration

variable {γ α : Type} [Numeral γ]

namespace Schema

open Record (IsNumber IsSolid Reader Spells marks)

/-- A value is read from a text that begins like a value. -/
structure ReadFrom (schema : Schema γ α) (value : α) (text : List Char) : Prop where
  ne_nil : text ≠ []
  head : ∀ c ∈ text.head?, c ∉ marks
  spells : ∀ depth, Spells (schema.reader [] depth) text value

theorem ReadFrom.isSolid {schema : Schema γ α} {value : α} {text : List Char}
    (h : schema.ReadFrom value text) : IsSolid text := fun c hc hmem =>
  h.head c hc (Record.slash_blanks_subset_marks hmem)

/-- A number is read as it is read alone. -/
theorem readFrom_number {β : Type} {schema : Schema γ α} {reader : Reader β} {f : β → α}
    (hreader : ∀ extensions depth, schema.reader extensions depth = f <$> reader) {value : α}
    {text : List Char} (h : Codec.NumberText schema value text)
    (hsuffix : ∀ ⦃value left⦄, reader text = some (value, left) → left <:+ text)
    (hspells : ∀ ⦃value⦄, reader text = some (value, []) → Spells reader text value) :
    schema.ReadFrom value text := by
  obtain ⟨hnumber, hread⟩ := h
  have hdocument : (Record.document fun _ => f <$> reader).runAll text = some value := by
    have hcodec : (Record.document fun extensions =>
        schema.reader extensions (Record.depthLimit - 2)).runAll (String.ofList text).toList =
          some value := hread
    simpa only [hreader, String.toList_ofList] using hcodec
  have hvalue := Record.eq_of_runAll_document hnumber (fun value left hleft => by
    obtain ⟨first, hfirst, _⟩ := Reader.exists_of_map hleft
    exact hsuffix hfirst) hdocument
  obtain ⟨first, hfirst, rfl⟩ := Reader.exists_of_map hvalue
  refine ⟨hnumber.1, fun c hc => hnumber.not_mem_marks (List.mem_of_mem_head? hc), fun depth => ?_⟩
  rw [hreader]
  exact (hspells hfirst).map f

theorem isRead_entry {ι β : Type} {δ : ι → Type} {declaration : Declaration ι δ β}
    {schema : ∀ i, Schema γ (δ i)} {i : ι} (hlabel : Record.IsName (declaration.label i))
    {value : δ i} (h : ∀ text, (schema i).Holds value text → (schema i).ReadFrom value text)
    (depth : Nat) (skip : Reader Unit) :
    Record.IsRead (fun entry => (declaration.label entry.1).toList)
      (fun entry => (schema entry.1).Holds entry.2)
      (declaration.entry (fun i => (schema i).reader [] depth) skip) ⟨i, value⟩ where
  plain := Record.isPlain_of_isName hlabel
  solid text htext := ⟨(h text htext).ne_nil, (h text htext).isSolid⟩
  spells text htext := by
    rw [declaration.entry_label]
    exact ((h text htext).spells depth).map _

/-- A value is read from each text that may hold it. -/
theorem Holds.readFrom {schema : Schema γ α} {depth : Nat} (hschema : schema.Plain depth) {value : α}
    {text : List Char} (h : schema.Holds value text) : schema.ReadFrom value text := by
  induction schema generalizing depth text with
  | word64 | word32 =>
      exact readFrom_number (fun _ _ => rfl) h (fun _ _ => h.1.natural_suffix)
        fun _ => h.1.spells_natural
  | level =>
      exact readFrom_number (fun _ _ => rfl) h (fun _ _ hread => Record.stops_literal.suffix hread)
        fun _ => Record.stops_literal.spells
  | record declaration schema ih =>
      obtain ⟨entries, hnodup, rfl, hrecord⟩ := h
      cases depth with
      | zero => exact hschema.elim
      | succ depth =>
          obtain ⟨hname, hlabel, hfields⟩ := hschema
          have htitle := Record.isPlain_of_isName hname
          obtain ⟨first, more, hfirst, hmark⟩ := hrecord.exists_cons htitle
          refine ⟨hfirst ▸ List.cons_ne_nil first more, ?_, fun deep rest _ => ?_⟩
          · rw [hfirst]
            rintro c ⟨⟩
            exact hmark
          · have hentries := hrecord.reads declaration.name htitle (fun entry _ =>
              isRead_entry (hlabel entry.1) (fun _ => ih entry.1 (hfields entry.1)) (deep - 2)
                (Record.skipValue [] deep)) rest
            have hlabels : (entries.map fun entry => declaration.label entry.1).Nodup := by
              have hmap := hnodup.map declaration.label_injective
              rwa [List.map_map] at hmap
            rw [reader, Reader.bind_of_eq hentries, if_pos hlabels]
            rfl

theorem prints_text (schema : Schema γ α) (depth : Nat) (value : α) :
    schema.Prints value (schema.text depth value).toList := by
  induction schema generalizing depth with
  | word64 | word32 | level => rfl
  | record declaration schema ih =>
      exact Record.recordText_writeRecord _ _ (fun i _ => ih i (depth + 1) _) _ depth

end Schema

namespace Codec

open Record (IsGap IsNumber Reader Spells marks)

/-- A document is read as what is read from the text in it. -/
theorem read_gaps {schema : Schema γ α} {value : α} {before text after : List Char}
    (hbefore : IsGap before) (hafter : IsGap after) (hne : text ≠ [])
    (hfirst : ∀ c ∈ text.head?, c ∉ marks)
    (h : ∀ depth, Spells (schema.reader [] depth) text value) :
    Codec.read schema (String.ofList (before ++ (text ++ after))) = some value := by
  have hdocument := @Record.runAll_document _ (fun extensions =>
    schema.reader extensions (Record.depthLimit - 2)) _ _ _ _ hbefore hafter hne hfirst (h _)
  change Record.Reader.runAll _ (String.ofList _).toList = _
  rwa [String.toList_ofList]

theorem readsDocuments : ReadsDocuments γ := fun hschema _ _ _ _ hbefore h hafter =>
  have hread := h.readFrom hschema
  read_gaps hbefore hafter hread.ne_nil hread.head hread.spells

theorem writesDocuments : WritesDocuments γ := fun _ value => Schema.prints_text _ 0 value

theorem numberText {schema : Schema γ α} {value : α} {text : List Char} (hnumber : IsNumber text)
    (h : ∀ depth, Spells (schema.reader [] depth) text value) : NumberText schema value text := by
  have hread := read_gaps Record.isGap_nil Record.isGap_nil hnumber.1
    (fun c hc => hnumber.not_mem_marks (List.mem_of_mem_head? hc)) h
  exact ⟨hnumber, by simpa using hread⟩

theorem isNumber_digits (n : Nat) : IsNumber (Decimal.digits n) :=
  ⟨Record.digits_ne_nil n, fun c hc => .inl (by
    simp [Char.isAlphanum, Record.isDigit_of_mem_digits hc])⟩

theorem spells_digits {bits n : Nat} (h : n < 2 ^ bits) :
    Spells (Record.natural (.unsigned bits)) (Decimal.digits n) n :=
  (isNumber_digits n).spells_natural (Record.natural_digits h)

theorem numberText_digits {schema : Schema γ α} {bits n : Nat} {f : Nat → α}
    (hreader : ∀ depth, schema.reader [] depth = f <$> Record.natural (.unsigned bits))
    (h : n < 2 ^ bits) : NumberText schema (f n) (Decimal.wholeText n).toList := by
  rw [Decimal.wholeText, String.toList_ofList]
  refine numberText (isNumber_digits n) fun depth => ?_
  rw [hreader]
  exact (spells_digits h).map f

theorem readsBack_word64 (value : UInt64) : ReadsBack (.word64 : Schema γ UInt64) value := by
  have hread := @numberText_digits γ _ _ .word64 _ _ _ (fun _ => rfl) value.toNat_lt
  rwa [show value.toNat.toUInt64 = value by simp] at hread

theorem readsBack_word32 (value : UInt32) : ReadsBack (.word32 : Schema γ UInt32) value := by
  have hread := @numberText_digits γ _ _ .word32 _ _ _ (fun _ => rfl) value.toNat_lt
  rwa [show value.toNat.toUInt32 = value by simp] at hread

theorem numberText_level {value : γ} {text : List Char} (hnumber : IsNumber text)
    (h : (Numeral.ofLiteral <$> Record.literal .single : Reader γ).runAll text = some value) :
    NumberText .level value text :=
  numberText hnumber fun _ =>
    (Record.stops_literal.map Numeral.ofLiteral).spells (Reader.eq_of_runAll h)

end Codec

end Chiptune
