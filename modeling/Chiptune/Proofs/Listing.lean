import Chiptune.Proofs.Spelling

/-!
Records are read as they may be written.

Main statement: whatever the blanks and comments, a record is read as the list of its fields, in their
order, if the value of each is read from its text.
-/
namespace Chiptune.Record

variable {α : Type}

theorem isGap_nil : IsGap [] := .plain (List.nil_subset _)

theorem isGap_singleton {c : Char} (h : c ∈ blanks) : IsGap [c] := .plain (by simpa using h)

theorem IsSolid.append {text : List Char} (h : IsSolid text) (hne : text ≠ []) (rest : List Char) :
    IsSolid (text ++ rest) := by
  cases text with
  | nil => exact absurd rfl hne
  | cons first text => exact h

/-- A block comment is skipped up to its closing mark. -/
theorem skipBlock_append {comment : List Char} (h : IsBlock comment) (depth : Nat)
    (rest : List Char) : skipBlock depth (comment ++ rest) =
      match depth with
      | 0 => some rest
      | depth + 1 => skipBlock depth rest := by
  induction h generalizing depth rest with
  | close => cases depth <;> rfl
  | @char c text hopen hclose htext ih =>
      rw [← ih depth rest, List.cons_append, skipBlock]
      all_goals
        rintro more rfl hmore
        cases htext <;> cases hmore <;> simp at hopen hclose
  | @block inner text _ _ ihinner ihtext =>
      have hcomment : '/' :: '*' :: (inner ++ text) ++ rest =
          '/' :: '*' :: (inner ++ (text ++ rest)) := by simp
      rw [hcomment, skipBlock, ihinner]
      exact ihtext depth rest

theorem dropWhile_isBlank_append {gap : List Char} (h : gap ⊆ blanks) (text : List Char) :
    (gap ++ text).dropWhile isBlank = text.dropWhile isBlank :=
  List.dropWhile_append_of_pos fun _ hc => List.contains_iff_mem.mpr (h hc)

theorem IsSolid.dropWhile_eq {text : List Char} (h : IsSolid text) :
    text.dropWhile isBlank = text := by
  cases text with
  | nil => rfl
  | cons first text =>
      refine List.dropWhile_cons_of_neg fun hblank => ?_
      exact h first rfl (List.mem_cons_of_mem _ (List.contains_iff_mem.mp hblank))

theorem skipBlanks_solid {text rest : List Char} (h : text.dropWhile isBlank = rest)
    (hsolid : IsSolid rest) : skipBlanks text = some rest := by
  have hcomment : ∀ more, text.dropWhile isBlank ≠ '/' :: more := fun more hslash => by
    rw [h] at hslash
    exact hsolid '/' (by simp [hslash]) List.mem_cons_self
  rw [skipBlanks]
  split
  · next hslash => exact absurd hslash (hcomment _)
  · next hslash => exact absurd hslash (hcomment _)
  · next hslash => exact absurd hslash (hcomment _)
  · rw [h]

theorem skipBlanks_line {text rest : List Char} (h : text.dropWhile isBlank = '/' :: '/' :: rest) :
    skipBlanks text = skipBlanks (rest.dropWhile (· != '\n')) := by
  rw [skipBlanks]
  split
  · next hrest =>
      cases h.symm.trans hrest
      rfl
  · next hrest => cases h.symm.trans hrest
  · next hline _ hrest =>
      cases h.symm.trans hrest
      exact (hline rest rfl).elim
  · next hline _ _ => exact (hline rest h).elim

theorem skipBlanks_block {text rest left : List Char}
    (h : text.dropWhile isBlank = '/' :: '*' :: rest) (hend : skipBlock 0 rest = some left) :
    skipBlanks text = skipBlanks left := by
  rw [skipBlanks]
  split
  · next hrest => cases h.symm.trans hrest
  · next hrest =>
      cases h.symm.trans hrest
      split
      · next hfound =>
          cases hend.symm.trans hfound
          rfl
      · next hnone => cases hend.symm.trans hnone
  · next _ hblock hrest =>
      cases h.symm.trans hrest
      exact (hblock rest rfl).elim
  · next _ hblock _ => exact (hblock rest h).elim

/-- What is skipped before something solid are the blanks and the comments. -/
theorem skipBlanks_append {gap text : List Char} (hgap : IsGap gap) (htext : IsSolid text) :
    skipBlanks (gap ++ text) = some text := by
  induction hgap with
  | plain hgap =>
      exact skipBlanks_solid ((dropWhile_isBlank_append hgap text).trans htext.dropWhile_eq) htext
  | @line before comment more hbefore hcomment _ ih =>
      have hdrop : (before ++ '/' :: '/' :: (comment ++ '\n' :: more) ++ text).dropWhile isBlank =
          '/' :: '/' :: (comment ++ ('\n' :: more ++ text)) := by
        simp only [List.append_assoc, List.cons_append]
        exact dropWhile_isBlank_append hbefore _
      have hline : (comment ++ ('\n' :: more ++ text)).dropWhile (· != '\n') =
          '\n' :: more ++ text := by
        have hinside : ∀ c ∈ comment, (c != '\n') = true := fun c hc =>
          bne_iff_ne.mpr fun heq => hcomment (heq ▸ hc)
        rw [List.dropWhile_append_of_pos hinside]
        rfl
      rw [skipBlanks_line hdrop, hline, ih]
  | @block before comment more hbefore hcomment _ ih =>
      have hdrop : (before ++ '/' :: '*' :: (comment ++ more) ++ text).dropWhile isBlank =
          '/' :: '*' :: (comment ++ (more ++ text)) := by
        simp only [List.append_assoc, List.cons_append]
        exact dropWhile_isBlank_append hbefore _
      rw [skipBlanks_block hdrop (skipBlock_append hcomment 0 _), ih]

theorem blank_append {gap text : List Char} (hgap : IsGap gap) (htext : IsSolid text) :
    blank (gap ++ text) = some ((), text) := by
  rw [blank, skipBlanks_append hgap htext]
  rfl

theorem blank_solid {text : List Char} (h : IsSolid text) : blank text = some ((), text) :=
  blank_append isGap_nil h

/-- A gap begins with a blank or a stroke, if it is not empty. -/
theorem IsGap.head_mem {gap : List Char} (h : IsGap gap) : ∀ c ∈ gap.head?, c ∈ '/' :: blanks := by
  have hcomment : ∀ {before rest : List Char}, before ⊆ blanks →
      ∀ c ∈ (before ++ '/' :: rest).head?, c ∈ '/' :: blanks := fun {before rest} hbefore c hc => by
    cases before with
    | nil =>
        cases hc
        exact List.mem_cons_self
    | cons first before =>
        cases hc
        exact List.mem_cons_of_mem _ (hbefore List.mem_cons_self)
  cases h with
  | plain hgap => exact fun c hc => List.mem_cons_of_mem _ (hgap (List.mem_of_mem_head? hc))
  | line hbefore _ _ => exact hcomment hbefore
  | block hbefore _ _ => exact hcomment hbefore

/-- After a gap comes one of some characters, if a gap may begin with them and one of them comes before
anything else. -/
theorem exists_head_mem {chars gap : List Char} (hchars : '/' :: blanks ⊆ chars) (hgap : IsGap gap)
    {c : Char} (hc : c ∈ chars) (rest : List Char) :
    ∃ first ∈ chars, ∃ more, gap ++ c :: rest = first :: more := by
  cases gap with
  | nil => exact ⟨c, hc, rest, rfl⟩
  | cons first gap => exact ⟨first, hchars (hgap.head_mem first rfl), _, rfl⟩

theorem slash_blanks_subset_stops : '/' :: blanks ⊆ stops := fun _ hc =>
  List.mem_cons_of_mem _ (List.mem_cons_of_mem _ hc)

/-- A value is read up to the gap after it. -/
theorem Spells.gap {reader : Reader α} {text gap : List Char} {value : α}
    (h : Spells reader text value) (hgap : IsGap gap) {c : Char} (hc : c ∈ stops)
    (rest : List Char) : reader (text ++ (gap ++ c :: rest)) = some (value, gap ++ c :: rest) := by
  obtain ⟨stop, hstop, tail, htail⟩ := exists_head_mem slash_blanks_subset_stops hgap hc rest
  rw [htail]
  refine h (stop :: tail) ?_
  rintro _ ⟨⟩
  exact hstop

theorem expect_append (literal : String) (rest : List Char) :
    Reader.expect literal (literal.toList ++ rest) = some ((), rest) := by
  rw [Reader.expect, Reader.bind_of_eq (Reader.accept_append literal rest)]
  rfl

/-- A name that is no raw one and does not look like the beginning of a text in quotes. -/
def isPlain (name : List Char) : Bool :=
  name.head?.any isNameStart && name.all isNamePart && decide (3 ≤ name.length) &&
    !beginsAny ("r#" :: quoteOpenings) name

theorem isPlain_of_isName {name : String} (h : IsName name) : isPlain name.toList = true := by
  have hletter : ∀ c ∈ name.toList, (c.isAlpha || c == '_') = true := by simpa using h.2
  have hparts : name.toList.all isNamePart = true := List.all_eq_true.mpr fun c hc => by
    have hpart := hletter c hc
    rw [Bool.or_eq_true] at hpart
    rcases hpart with halpha | hline
    · simp [isNamePart, Char.isAlphanum, halpha]
    · simp [isNamePart, hline]
  have hstart : name.toList.head?.any isNameStart = true := by
    cases hname : name.toList with
    | nil =>
        rw [IsName, hname] at h
        exact absurd h.1 (by decide)
    | cons first more =>
        have hfirst := hletter first (hname ▸ List.mem_cons_self)
        simp [isNameStart, hfirst]
  have hopenings : ("r#" :: quoteOpenings).all (·.toList.any fun c => !(c.isAlpha || c == '_')) :=
    by decide
  have hnone : beginsAny ("r#" :: quoteOpenings) name.toList = false :=
    List.any_eq_false.mpr fun opening hmem hbegin => by
      obtain ⟨c, hc, hnot⟩ := List.any_eq_true.mp (List.all_eq_true.mp hopenings opening hmem)
      rw [hletter c ((List.isPrefixOf_iff_prefix.mp hbegin).subset hc)] at hnot
      cases hnot
  rw [isPlain, hstart, hparts, hnone, decide_eq_true h.1]
  rfl

theorem isPlain_head {name : List Char} (h : isPlain name = true) :
    ∃ first more, name = first :: more ∧ isNameStart first = true := by
  cases name with
  | nil => cases h
  | cons first more =>
      simp only [isPlain, Bool.and_eq_true] at h
      exact ⟨first, more, rfl, h.1.1.1⟩

/-- The characters that may follow the name of a field or of a record. -/
def nameStops : List Char := ':' :: '(' :: '/' :: blanks

theorem slash_blanks_subset_nameStops : '/' :: blanks ⊆ nameStops := fun _ hc =>
  List.mem_cons_of_mem _ (List.mem_cons_of_mem _ hc)

theorem isRawPart_of_mem_nameStops {c : Char} (hc : c ∈ nameStops) : isRawPart c = false :=
  eq_false_of_mem (by decide +kernel) hc

/-- Whether a long name begins in some way is decided within it. -/
theorem isPrefixOf_append_of_length_le {literal text : List Char}
    (h : literal.length ≤ text.length) (rest : List Char) :
    literal.isPrefixOf (text ++ rest) = literal.isPrefixOf text := by
  rw [Bool.eq_iff_iff, List.isPrefixOf_iff_prefix, List.isPrefixOf_iff_prefix]
  exact ⟨fun hbegin => List.prefix_of_prefix_length_le hbegin (List.prefix_append ..) h,
    fun hbegin => hbegin.trans (List.prefix_append ..)⟩

theorem length_quoteOpenings : ∀ opening ∈ "r#" :: quoteOpenings, opening.toList.length ≤ 3 := by
  decide

theorem beginsAny_append {openings : List String} (hopenings : openings ⊆ "r#" :: quoteOpenings)
    {name : List Char} (hname : isPlain name = true) (rest : List Char) :
    beginsAny openings (name ++ rest) = false := by
  simp only [isPlain, Bool.and_eq_true, decide_eq_true_eq, Bool.not_eq_true'] at hname
  obtain ⟨⟨_, hlength⟩, hnone⟩ := hname
  refine List.any_eq_false.mpr fun opening hmem => ?_
  have hshort := (length_quoteOpenings opening (hopenings hmem)).trans hlength
  rw [isPrefixOf_append_of_length_le hshort]
  exact List.any_eq_false.mp hnone opening (hopenings hmem)

theorem identifier_append {name : List Char} (hname : isPlain name = true) {c : Char}
    (hc : c ∈ nameStops) (rest : List Char) :
    identifier (name ++ c :: rest) = some (name, c :: rest) := by
  have hquotes : beginsAny quoteOpenings (name ++ c :: rest) = false :=
    beginsAny_append (List.subset_cons_self ..) hname (c :: rest)
  have hraw : "r#".toList.isPrefixOf (name ++ c :: rest) = false := by
    have hfirst : beginsAny ["r#"] (name ++ c :: rest) = false :=
      beginsAny_append (by simp) hname (c :: rest)
    simpa [beginsAny] using hfirst
  have hparts : ∀ part ∈ name, isNamePart part = true := by
    simp only [isPlain, Bool.and_eq_true] at hname
    exact List.all_eq_true.mp hname.1.1.2
  have hcraw := isRawPart_of_mem_nameStops hc
  have hcpart : ¬isNamePart c = true := fun hpart => by
    rw [isRawPart, hpart] at hcraw
    cases hcraw
  have htake : (name ++ c :: rest).takeWhile isNamePart = name := by
    rw [List.takeWhile_append_of_pos hparts, List.takeWhile_cons_of_neg hcpart, List.append_nil]
  have hdrop : (name ++ c :: rest).dropWhile isNamePart = c :: rest := by
    rw [List.dropWhile_append_of_pos hparts, List.dropWhile_cons_of_neg hcpart]
  obtain ⟨first, more, rfl, hfirst⟩ := isPlain_head hname
  unfold identifier
  rw [hdrop, htake, hquotes, hraw]
  simp only [List.cons_append, hfirst, hcraw, Bool.not_true, Bool.or_false, Bool.false_eq_true,
    if_false]

/-- A name is read up to the gap after it. -/
theorem identifier_gap {name gap : List Char} (hname : isPlain name = true) (hgap : IsGap gap)
    {c : Char} (hc : c ∈ nameStops) (rest : List Char) :
    identifier (name ++ (gap ++ c :: rest)) = some (name, gap ++ c :: rest) := by
  obtain ⟨stop, hstop, tail, htail⟩ := exists_head_mem slash_blanks_subset_nameStops hgap hc rest
  rw [htail, identifier_append hname hstop]

theorem EntryText.length_pos {name value text : List Char} (h : EntryText name value text) :
    0 < text.length := by
  obtain ⟨⟩ := h
  simp

theorem Listing.length_le {name : α → List Char} {written : α → List Char → Prop} {items : List α}
    {text : List Char} (h : Listing name written items text) : items.length ≤ text.length := by
  induction h with
  | nil => exact Nat.zero_le _
  | last _ hentry => exact hentry.length_pos
  | cons _ hentry _ ih =>
      have hpos := hentry.length_pos
      simp only [List.length_append, List.length_cons]
      omega

theorem isNameStart_of_mem_marks {c : Char} (hc : c ∈ marks) : isNameStart c = false :=
  eq_false_of_mem (by decide +kernel) hc

theorem head_not_mem_marks {name : List Char} (hname : isPlain name = true) {first : Char}
    {rest : List Char} (hfirst : (name ++ rest).head? = some first) : first ∉ marks := by
  obtain ⟨start, more, rfl, hstart⟩ := isPlain_head hname
  intro hmem
  cases hfirst
  rw [isNameStart_of_mem_marks hmem] at hstart
  cases hstart

theorem isSolid_plain {name : List Char} (hname : isPlain name = true) (rest : List Char) :
    IsSolid (name ++ rest) := fun _ hfirst hmem =>
  head_not_mem_marks hname hfirst (slash_blanks_subset_marks hmem)

theorem comma_append {gap rest front : List Char} (hgap : IsGap gap)
    (hrest : blank rest = some ((), front)) : comma (gap ++ ',' :: rest) = some (true, front) := by
  have haccept : Reader.accept "," (',' :: rest) = some (true, rest) := Reader.accept_append "," rest
  unfold comma
  rw [Reader.bind_of_eq (blank_append hgap (isSolid_cons (by decide) rest)),
    Reader.bind_of_eq haccept, if_pos rfl, Reader.bind_of_eq hrest]
  rfl

theorem comma_closing {gap : List Char} (hgap : IsGap gap) (rest : List Char) :
    comma (gap ++ ')' :: rest) = some (false, ')' :: rest) := by
  have hnone : Reader.accept "," (')' :: rest) = some (false, ')' :: rest) :=
    Reader.accept_of_not rfl
  unfold comma
  rw [Reader.bind_of_eq (blank_append hgap (isSolid_cons (by decide) rest)),
    Reader.bind_of_eq hnone]
  rfl

theorem itemsWithin_closing {item : Reader α} {start rest : List Char}
    (hstart : blank start = some ((), ')' :: rest)) (fuel : Nat) (separated : Bool) :
    itemsWithin ')' item (fuel + 1) separated start = some ([], ')' :: rest) := by
  rw [itemsWithin, Reader.bind_of_eq hstart]
  rfl

theorem itemsWithin_item {item : Reader α} {start front left next : List Char} {value : α}
    {separated : Bool} (hstart : blank start = some ((), front)) (hopen : front.head? ≠ some ')')
    (hitem : item front = some (value, left)) (hcomma : comma left = some (separated, next))
    {fuel : Nat} {values : List α} {rest : List Char}
    (hmore : itemsWithin ')' item fuel separated next = some (values, rest)) :
    itemsWithin ')' item (fuel + 1) true start = some (value :: values, rest) := by
  have hpeek : Reader.peek front = some (front.head?, front) := rfl
  rw [itemsWithin, Reader.bind_of_eq hstart, Reader.bind_of_eq hpeek, if_neg hopen, if_pos rfl,
    Reader.bind_of_eq hitem, Reader.bind_of_eq hcomma, Reader.bind_of_eq hmore]
  rfl

/-- A value that is read back, in the field of its name, from each text that it may be written as. -/
structure IsRead (name : α → List Char) (written : α → List Char → Prop)
    (field : List Char → Reader (Option α)) (item : α) : Prop where
  plain : isPlain (name item) = true
  solid : ∀ value, written item value → value ≠ [] ∧ IsSolid value
  spells : ∀ value, written item value → Spells (field (name item)) value (some item)

section

variable {name : α → List Char} {written : α → List Char → Prop}
  {field : List Char → Reader (Option α)} {item : α} {items : List α} {text : List Char}

/-- After the gap at its beginning an entry is read, up to the gap at its end. -/
theorem IsRead.entry_eq (h : IsRead name written field item) {value : List Char}
    (hwritten : written item value) (hentry : EntryText (name item) value text) {c : Char}
    (hc : c ∈ stops) (rest : List Char) :
    ∃ front after, blank (text ++ c :: rest) = some ((), front) ∧
      (IsSolid front ∧ front.head? ≠ some ')') ∧
      entry identifier field front = some (some item, after ++ c :: rest) ∧ IsGap after := by
  obtain ⟨hbefore, hafterName, hbeforeValue, hafter⟩ := hentry
  rename_i before afterName beforeValue after
  obtain ⟨hne, hsolid⟩ := h.solid value hwritten
  let left := value ++ (after ++ c :: rest)
  let afterKey := afterName ++ ':' :: (beforeValue ++ left)
  have htext : before ++ name item ++ afterName ++ ':' :: beforeValue ++ value ++ after ++ c :: rest =
      before ++ (name item ++ afterKey) := by
    simp only [left, afterKey, List.append_assoc, List.cons_append]
  have hfront : IsSolid (name item ++ afterKey) := isSolid_plain h.plain afterKey
  have hopen : (name item ++ afterKey).head? ≠ some ')' := fun hhead =>
    head_not_mem_marks h.plain hhead (by decide)
  have hcolon : IsSolid (':' :: (beforeValue ++ left)) := isSolid_cons (by decide) _
  have hexpect : Reader.expect ":" (':' :: (beforeValue ++ left)) = some ((), beforeValue ++ left) :=
    expect_append ":" _
  have hleft : IsSolid left := hsolid.append hne (after ++ c :: rest)
  refine ⟨name item ++ afterKey, after, ?_, ⟨hfront, hopen⟩, ?_, hafter⟩
  · rw [htext, blank_append hbefore hfront]
  · unfold entry
    rw [Reader.bind_of_eq (identifier_gap h.plain hafterName (by decide) (beforeValue ++ left)),
      Reader.bind_of_eq (blank_append hafterName hcolon), Reader.bind_of_eq hexpect,
      Reader.bind_of_eq (blank_append hbeforeValue hleft)]
    exact (h.spells value hwritten).gap hafter hc rest

/-- Fields before a closing bracket begin, after a gap, with something solid. -/
theorem Listing.exists_front (h : Listing name written items text)
    (hread : ∀ item ∈ items, IsRead name written field item) (rest : List Char) :
    ∃ front, blank (text ++ ')' :: rest) = some ((), front) ∧ IsSolid front := by
  cases h with
  | nil hgap =>
      have hclose : IsSolid (')' :: rest) := isSolid_cons (by decide) rest
      exact ⟨_, blank_append hgap hclose, hclose⟩
  | last hwritten hentry =>
      obtain ⟨front, _, hblank, hfront, _⟩ :=
        (hread _ List.mem_cons_self).entry_eq hwritten hentry (c := ')') (by decide) rest
      exact ⟨front, hblank, hfront.1⟩
  | @cons _ _ _ _ others hwritten hentry _ =>
      obtain ⟨front, _, hblank, hfront, _⟩ := (hread _ List.mem_cons_self).entry_eq hwritten
        hentry (c := ',') (by decide) (others ++ ')' :: rest)
      exact ⟨front, by rw [List.append_assoc, List.cons_append, hblank], hfront.1⟩

/-- Fields are read in their order, from any text that begins as theirs once its gap is off. -/
theorem Listing.itemsWithin_eq (h : Listing name written items text)
    (hread : ∀ item ∈ items, IsRead name written field item) {start rest : List Char}
    (hstart : blank start = blank (text ++ ')' :: rest)) {fuel : Nat} (hfuel : items.length < fuel) :
    itemsWithin ')' (entry identifier field) fuel true start =
      some (items.map some, ')' :: rest) := by
  -- A comma takes the gap after it along, so later fields are met without theirs.
  induction h generalizing start fuel with
  | nil hgap =>
      obtain ⟨fuel, rfl⟩ := Nat.exists_eq_succ_of_ne_zero (Nat.ne_zero_of_lt hfuel)
      rw [blank_append hgap (isSolid_cons (by decide) rest)] at hstart
      exact itemsWithin_closing hstart fuel true
  | last hwritten hentry =>
      obtain ⟨fuel, rfl⟩ : ∃ n, fuel = n + 2 := ⟨fuel - 2, by simp at hfuel; omega⟩
      obtain ⟨front, after, hblank, hfront, hitem, hafter⟩ :=
        (hread _ List.mem_cons_self).entry_eq hwritten hentry (c := ')') (by decide) rest
      have hclose : blank (')' :: rest) = some ((), ')' :: rest) :=
        blank_solid (isSolid_cons (by decide) rest)
      exact itemsWithin_item (hstart.trans hblank) hfront.2 hitem (comma_closing hafter rest)
        (itemsWithin_closing hclose fuel false)
  | @cons item items _ _ others hwritten hentry hothers ih =>
      obtain ⟨fuel, rfl⟩ := Nat.exists_eq_succ_of_ne_zero (Nat.ne_zero_of_lt hfuel)
      have hrest := fun other hmem => hread other (List.mem_cons_of_mem item hmem)
      obtain ⟨front, after, hblank, hfront, hitem, hafter⟩ :=
        (hread item List.mem_cons_self).entry_eq hwritten hentry (c := ',') (by decide)
          (others ++ ')' :: rest)
      obtain ⟨next, hnext, hsolid⟩ := hothers.exists_front hrest rest
      rw [List.append_assoc, List.cons_append, hblank] at hstart
      exact itemsWithin_item hstart hfront.2 hitem (comma_append hafter hnext)
        (ih hrest ((blank_solid hsolid).trans hnext.symm) (Nat.lt_of_succ_lt_succ hfuel))

theorem Listing.items_eq (h : Listing name written items text)
    (hread : ∀ item ∈ items, IsRead name written field item) (rest : List Char) :
    Record.items ')' (entry identifier field) (text ++ ')' :: rest) =
      some (items.map some, rest) := by
  have hfuel : items.length < (text ++ ')' :: rest).length + 1 := by
    have hle := h.length_le
    rw [List.length_append]
    omega
  have hbefore : itemsBefore ')' (entry identifier field) (text ++ ')' :: rest) =
      some (items.map some, ')' :: rest) := h.itemsWithin_eq hread rfl hfuel
  have hexpect : Reader.expect (String.singleton ')') (')' :: rest) = some ((), rest) :=
    expect_append ")" rest
  unfold Record.items
  rw [Reader.bind_of_eq hbefore, Reader.bind_of_eq hexpect]
  rfl

/-- A name is taken off a record, if it has one. -/
theorem RecordText.recordName_eq {title : String} (htitle : isPlain title.toList = true)
    (h : RecordText title.toList name written items text) (rest : List Char) :
    ∃ gap fields, IsGap gap ∧ Listing name written items fields ∧
      recordName [] title (text ++ rest) = some ((), gap ++ '(' :: (fields ++ ')' :: rest)) := by
  have hpeek : ∀ text : List Char, Reader.peek text = some (text.head?, text) := fun _ => rfl
  cases h with
  | @bare fields hfields =>
      refine ⟨[], fields, isGap_nil, hfields, ?_⟩
      have htext : '(' :: fields ++ [')'] ++ rest = '(' :: (fields ++ ')' :: rest) := by simp
      unfold recordName
      rw [htext, Reader.bind_of_eq (hpeek _)]
      rfl
  | @named gap fields hgap hfields =>
      refine ⟨gap, fields, hgap, hfields, ?_⟩
      obtain ⟨first, more, hfirst, hstart⟩ := isPlain_head htitle
      have hpart : isNamePart first = true := by
        simp only [isPlain, hfirst, List.all_cons, Bool.and_eq_true] at htitle
        exact htitle.1.1.2.1
      have htext : title.toList ++ gap ++ '(' :: fields ++ [')'] ++ rest =
          title.toList ++ (gap ++ '(' :: (fields ++ ')' :: rest)) := by simp
      have hhead : (title.toList ++ (gap ++ '(' :: (fields ++ ')' :: rest))).head?.any isNamePart =
          true := by
        rw [hfirst]
        exact hpart
      have hname := identifier_gap htitle hgap (c := '(') (by decide) (fields ++ ')' :: rest)
      unfold recordName
      rw [htext, Reader.bind_of_eq (hpeek _), if_pos hhead, Reader.bind_of_eq hname, if_pos rfl]
      rfl

/-- A record is read as its fields. -/
theorem RecordText.reads (title : String) (htitle : isPlain title.toList = true)
    (h : RecordText title.toList name written items text)
    (hread : ∀ item ∈ items, IsRead name written field item) (rest : List Char) :
    record [] title field (text ++ rest) = some (items, rest) := by
  obtain ⟨gap, fields, hgap, hfields, hname⟩ := h.recordName_eq htitle rest
  have hopen : IsSolid ('(' :: (fields ++ ')' :: rest)) := isSolid_cons (by decide) _
  have hexpect : Reader.expect "(" ('(' :: (fields ++ ')' :: rest)) =
      some ((), fields ++ ')' :: rest) := expect_append "(" _
  unfold record
  rw [Reader.bind_of_eq hname, Reader.bind_of_eq (blank_append hgap hopen),
    Reader.bind_of_eq hexpect, Reader.bind_of_eq (hfields.items_eq hread rest)]
  change some ((items.map some).filterMap id, rest) = some (items, rest)
  rw [List.filterMap_map, Function.id_comp, List.filterMap_some]

/-- A record begins with its bracket or its name. -/
theorem RecordText.exists_cons {title : List Char} (htitle : isPlain title = true)
    (h : RecordText title name written items text) :
    ∃ first rest, text = first :: rest ∧ first ∉ marks := by
  cases h with
  | bare _ => exact ⟨'(', _, rfl, by decide⟩
  | named _ _ =>
      obtain ⟨first, more, rfl, _⟩ := isPlain_head htitle
      have hfirst : (first :: more ++ []).head? = some first := rfl
      exact ⟨first, _, rfl, head_not_mem_marks htitle hfirst⟩

theorem RecordText.isSolid {title : List Char} (htitle : isPlain title = true)
    (h : RecordText title name written items text) : text ≠ [] ∧ IsSolid text := by
  obtain ⟨first, rest, rfl, hfirst⟩ := h.exists_cons htitle
  exact ⟨List.cons_ne_nil first rest,
    isSolid_cons (fun hmem => hfirst (slash_blanks_subset_marks hmem)) rest⟩

end

theorem document_eq {reader : List Extension → Reader α} {before : List Char} {first : Char}
    (hbefore : IsGap before) (hfirst : first ∉ marks) (text : List Char) :
    document reader (before ++ first :: text) =
      (reader [] >>= fun value => blank >>= fun _ => pure value) (first :: text) := by
  have hsolid : IsSolid (first :: text) :=
    isSolid_cons (fun hmem => hfirst (slash_blanks_subset_marks hmem)) text
  have hrest : Reader.rest (first :: text) = some (first :: text, first :: text) := rfl
  have hpeek : Reader.peek (first :: text) = some (some first, first :: text) := rfl
  have hattribute : some first ≠ some '#' := fun heq => by
    cases heq
    exact hfirst (by decide)
  have hattributes : ∀ fuel, attributes (fuel + 1) (first :: text) = some ([], first :: text) :=
    fun fuel => by
      rw [attributes, Reader.bind_of_eq hpeek, if_neg hattribute]
      rfl
  unfold document
  rw [Reader.bind_of_eq (blank_append hbefore hsolid), Reader.bind_of_eq hrest,
    Reader.bind_of_eq (hattributes _)]

/-- A document is read as the value in it, with gaps before and after. -/
theorem runAll_document {reader : List Extension → Reader α} {before text after : List Char}
    {value : α} (hbefore : IsGap before) (hafter : IsGap after) (hne : text ≠ [])
    (hfirst : ∀ c ∈ text.head?, c ∉ marks) (hread : Spells (reader []) text value) :
    (document reader).runAll (before ++ (text ++ after)) = some value := by
  obtain ⟨first, text, rfl⟩ := List.exists_cons_of_ne_nil hne
  have hvalue := hread after fun c hc => slash_blanks_subset_stops (hafter.head_mem c hc)
  have hend : blank after = some ((), []) := by
    have hnil : IsSolid [] := by simp [IsSolid]
    simpa only [List.append_nil] using blank_append hafter hnil
  unfold Reader.runAll
  rw [List.cons_append, document_eq hbefore (hfirst first rfl), ← List.cons_append,
    Reader.bind_of_eq hvalue, Reader.bind_of_eq hend]
  rfl

/-- What is read from a document of a number is read from the number. -/
theorem eq_of_runAll_document {reader : List Extension → Reader α} {text : List Char} {value : α}
    (hnumber : IsNumber text)
    (hsuffix : ∀ ⦃value left⦄, reader [] text = some (value, left) → left <:+ text)
    (h : (document reader).runAll text = some value) : reader [] text = some (value, []) := by
  obtain ⟨first, more, rfl⟩ := List.exists_cons_of_ne_nil hnumber.1
  have hread := Reader.eq_of_runAll h
  rw [← List.nil_append (first :: more),
    document_eq isGap_nil (hnumber.not_mem_marks List.mem_cons_self)] at hread
  obtain ⟨⟨found, left⟩, hfound, hrest⟩ := Option.bind_eq_some_iff.mp hread
  obtain ⟨⟨⟨⟩, _⟩, hblank, hvalue⟩ := Option.bind_eq_some_iff.mp hrest
  cases hvalue
  cases left with
  | nil => exact hfound
  | cons c left =>
      have hc := hnumber.not_mem_marks ((hsuffix hfound).subset List.mem_cons_self)
      rw [blank_solid (isSolid_cons (fun hmem => hc (slash_blanks_subset_marks hmem)) left)] at hblank
      cases hblank

theorem toList_writeField (depth : Nat) (name value : String) :
    (writeField depth name value).toList =
      List.replicate (4 * depth) ' ' ++ name.toList ++ ':' :: ' ' :: value.toList ++
        [',', '\n'] := by
  have htext : writeField depth name value =
      String.ofList (List.replicate (4 * depth) ' ') ++ name ++ ": " ++ value ++ ",\n" := rfl
  rw [htext]
  simp

theorem toList_writeRecord (depth : Nat) (fields : List (String × String)) :
    (writeRecord depth fields).toList =
      '(' :: '\n' :: (fields.flatMap fun field => (writeField (depth + 1) field.1 field.2).toList) ++
        List.replicate (4 * depth) ' ' ++ [')'] := by
  have htext : writeRecord depth fields =
      "(\n" ++ String.join (fields.map fun field => writeField (depth + 1) field.1 field.2) ++
        String.ofList (List.replicate (4 * depth) ' ') ++ ")" := rfl
  rw [htext]
  simp [String.toList_join, List.flatMap_map]

/-- Lines with a field each are fields with commas after them. -/
theorem listing_lines {name value : α → String} {written : α → List Char → Prop} {items : List α}
    (h : ∀ item ∈ items, written item (value item).toList) (depth indent : Nat) :
    Listing (fun item => (name item).toList) written items
      ('\n' :: (items.flatMap fun item => (writeField depth (name item) (value item)).toList) ++
        List.replicate indent ' ') := by
  have hspaces : ∀ n, IsGap ('\n' :: List.replicate n ' ') := fun n => .plain fun c hc => by
    rcases List.mem_cons.mp hc with rfl | hspace
    · decide
    · rw [List.eq_of_mem_replicate hspace]
      decide
  induction items with
  | nil => exact .nil (hspaces indent)
  | cons item items ih =>
      have hentry : EntryText (name item).toList (value item).toList
          ('\n' :: List.replicate (4 * depth) ' ' ++ (name item).toList ++ [] ++
            ':' :: [' '] ++ (value item).toList ++ []) :=
        .mk (hspaces (4 * depth)) isGap_nil (isGap_singleton (by decide)) isGap_nil
      have hmore := ih fun other hmem => h other (List.mem_cons_of_mem item hmem)
      have hlines := Listing.cons (h item List.mem_cons_self) hentry hmore
      rw [List.flatMap_cons, toList_writeField]
      simpa only [List.append_assoc, List.cons_append, List.nil_append, List.append_nil] using hlines

/-- What is written of a record is one of the ways in which it may be written. -/
theorem recordText_writeRecord (name value : α → String) {written : α → List Char → Prop}
    {items : List α} (h : ∀ item ∈ items, written item (value item).toList) (title : List Char)
    (depth : Nat) :
    RecordText title (fun item => (name item).toList) written items
      (writeRecord depth (items.map fun item => (name item, value item))).toList := by
  rw [toList_writeRecord, List.flatMap_map]
  exact .bare (listing_lines h (depth + 1) (4 * depth))

end Chiptune.Record
