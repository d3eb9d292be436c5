import Mathlib
import Chiptune.Proofs.Documents
import Chiptune.Record.Codec

/-!
What a reader takes from a text does not depend on what follows after a blank, a comment, a comma or a
closing bracket.

Main statements: a whole number is read back from its digits, and a number is read from a text that goes
on as it is read from the text alone.
-/
namespace Chiptune.Record

variable {α β : Type}

/-- The characters that may follow a value in a record, comments among them. -/
def stops : List Char := ',' :: ')' :: '/' :: blanks

/-- A reader takes a value from all of a text, if nothing or a stop follows. -/
def Spells (reader : Reader α) (text : List Char) (value : α) : Prop :=
  ∀ rest : List Char, (∀ c ∈ rest.head?, c ∈ stops) → reader (text ++ rest) = some (value, rest)

/-- What holds of no character of a list does not hold of one of them. -/
theorem eq_false_of_mem {p : Char → Bool} {chars : List Char} (h : chars.all (!p ·) = true)
    {c : Char} (hc : c ∈ chars) : p c = false := by
  simpa using List.all_eq_true.mp h c hc

namespace Reader

/-- A reader that takes a value from a text alone. -/
theorem eq_of_runAll {reader : Reader α} {text : List Char} {value : α}
    (h : reader.runAll text = some value) : reader text = some (value, []) := by
  unfold runAll at h
  split at h
  · next hread =>
      cases h
      exact hread
  · cases h

/-- A reader that leaves an end of the text, and to which it makes no difference what follows from a
stop on. -/
structure Stops (reader : Reader α) : Prop where
  suffix : ∀ ⦃text value left⦄, reader text = some (value, left) → left <:+ text
  append : ∀ ⦃text value left⦄, reader text = some (value, left) →
    ∀ c ∈ stops, ∀ rest, reader (text ++ c :: rest) = some (value, left ++ c :: rest)

theorem bind_of_eq {reader : Reader α} {next : α → Reader β} {text rest : List Char} {value : α}
    (h : reader text = some (value, rest)) : (reader >>= next) text = next value rest := by
  simp only [bind, StateT.bind, h, Option.bind_some]

theorem map_of_eq {reader : Reader α} (f : α → β) {text rest : List Char} {value : α}
    (h : reader text = some (value, rest)) : (f <$> reader) text = some (f value, rest) := by
  simp only [Functor.map, StateT.map, bind, h, Option.bind_some]
  rfl

theorem exists_of_map {reader : Reader α} {f : α → β} {text rest : List Char} {value : β}
    (h : (f <$> reader) text = some (value, rest)) :
    ∃ first, reader text = some (first, rest) ∧ f first = value := by
  obtain ⟨⟨first, left⟩, hfirst, hvalue⟩ := Option.bind_eq_some_iff.mp h
  cases hvalue
  exact ⟨first, hfirst, rfl⟩

theorem Stops.spells {reader : Reader α} (h : reader.Stops) {text : List Char} {value : α}
    (hread : reader text = some (value, [])) : Spells reader text value := by
  intro rest hrest
  cases rest with
  | nil => rw [List.append_nil, hread]
  | cons c rest => exact h.append hread c (hrest c rfl) rest

theorem stops_fail : (fail : Reader α).Stops := by
  constructor <;> rintro text value left ⟨⟩

theorem stops_pure (value : α) : (pure value : Reader α).Stops where
  suffix := by
    rintro text _ _ ⟨⟩
    exact List.suffix_rfl
  append := by
    rintro text _ _ ⟨⟩ c _ rest
    rfl

theorem Stops.bind {reader : Reader α} {next : α → Reader β} (h : reader.Stops)
    (hnext : ∀ value, (next value).Stops) : (reader >>= next).Stops where
  suffix text value left hread := by
    obtain ⟨⟨first, middle⟩, hfirst, hsecond⟩ := Option.bind_eq_some_iff.mp hread
    exact ((hnext first).suffix hsecond).trans (h.suffix hfirst)
  append text value left hread c hc rest := by
    obtain ⟨⟨first, middle⟩, hfirst, hsecond⟩ := Option.bind_eq_some_iff.mp hread
    rw [bind_of_eq (h.append hfirst c hc rest)]
    exact (hnext first).append hsecond c hc rest

theorem Stops.map {reader : Reader α} (h : reader.Stops) (f : α → β) : (f <$> reader).Stops :=
  h.bind fun value => stops_pure (f value)

theorem Stops.ite {p : Prop} [Decidable p] {first second : Reader α} (hfirst : first.Stops)
    (hsecond : second.Stops) : (if p then first else second).Stops := by
  split
  · exact hfirst
  · exact hsecond

theorem accept_of_not {literal : String} {text : List Char}
    (h : literal.toList.isPrefixOf text = false) : accept literal text = some (false, text) := by
  simp [accept, h]

theorem accept_append (literal : String) (rest : List Char) :
    accept literal (literal.toList ++ rest) = some (true, rest) := by
  have hbegin : literal.toList.isPrefixOf (literal.toList ++ rest) = true :=
    List.isPrefixOf_iff_prefix.mpr (List.prefix_append ..)
  have hdrop : (literal.toList ++ rest).drop literal.length = rest := by
    rw [← String.length_toList, List.drop_left]
  rw [accept, if_pos hbegin, hdrop]

end Reader

theorem Spells.map {reader : Reader α} {text : List Char} {value : α} (h : Spells reader text value)
    (f : α → β) : Spells (f <$> reader) text (f value) := fun rest hrest =>
  Reader.map_of_eq f (h rest hrest)

def isUnbroken (literal : String) : Bool := literal.toList.all fun c => !stops.contains c

theorem not_mem_of_isUnbroken {literal : String} (h : isUnbroken literal = true) {c : Char}
    (hc : c ∈ stops) : c ∉ literal.toList := by
  intro hmem
  have hnot := List.all_eq_true.mp h c hmem
  rw [List.contains_iff_mem.mpr hc] at hnot
  exact Bool.false_ne_true hnot

/-- What no stop is part of begins a text or not, whatever follows. -/
theorem isPrefixOf_append_stop {literal : List Char} {c : Char} (h : c ∉ literal)
    (text rest : List Char) :
    literal.isPrefixOf (text ++ c :: rest) = literal.isPrefixOf text := by
  induction literal generalizing text with
  | nil => rfl
  | cons first literal ih =>
      obtain ⟨hfirst, hrest⟩ := not_or.mp (List.mem_cons.not.mp h)
      cases text with
      | nil => simp [List.isPrefixOf, Ne.symm hfirst]
      | cons other text => simp [List.isPrefixOf, ih hrest]

theorem isPrefixOf_append_isUnbroken {literal : String} (h : isUnbroken literal = true) {c : Char}
    (hc : c ∈ stops) (text rest : List Char) :
    literal.toList.isPrefixOf (text ++ c :: rest) = literal.toList.isPrefixOf text :=
  isPrefixOf_append_stop (not_mem_of_isUnbroken h hc) text rest

theorem drop_length_append (literal : String) (text : List Char) :
    (literal.toList ++ text).drop literal.length = text := by
  rw [← String.length_toList, List.drop_left]

theorem stops_accept {literal : String} (h : isUnbroken literal = true) :
    (Reader.accept literal).Stops where
  suffix text value left hread := by
    unfold Reader.accept at hread
    split at hread
    all_goals cases hread
    · exact List.drop_suffix ..
    · exact List.suffix_rfl
  append text value left hread c hc rest := by
    unfold Reader.accept at hread ⊢
    rw [isPrefixOf_append_isUnbroken h hc]
    split at hread
    · next hbegin =>
        cases hread
        obtain ⟨after, rfl⟩ := List.isPrefixOf_iff_prefix.mp hbegin
        rw [if_pos hbegin, List.append_assoc, drop_length_append, drop_length_append]
    · next hbegin =>
        cases hread
        rw [if_neg hbegin]

theorem stops_takeWhile {p : Char → Bool} (h : stops.all (!p ·) = true) :
    (Reader.takeWhile p).Stops where
  suffix := by
    rintro text _ _ ⟨⟩
    exact List.dropWhile_suffix p
  append := by
    rintro text _ _ ⟨⟩ c hc rest
    have hstop : ¬p c = true := Bool.eq_false_iff.mp (eq_false_of_mem h hc)
    induction text with
    | nil => simp [Reader.takeWhile, hstop]
    | cons first text ih =>
        simp only [Reader.takeWhile, Option.some.injEq, Prod.mk.injEq] at ih
        by_cases hfirst : p first = true <;> simp [Reader.takeWhile, hfirst, ih]

theorem isNamePart_of_mem_stops {c : Char} (hc : c ∈ stops) : isNamePart c = false :=
  eq_false_of_mem (by decide +kernel) hc

theorem any_head?_append_stop {c : Char} (hc : c ∈ stops) (text rest : List Char) :
    (text ++ c :: rest).head?.any isNamePart = text.head?.any isNamePart := by
  cases text with
  | nil => simp [isNamePart_of_mem_stops hc]
  | cons first text => rfl

theorem stops_word {literal : String} (h : isUnbroken literal = true) : (word literal).Stops where
  suffix text value left hread := by
    unfold word at hread
    split at hread
    all_goals cases hread
    · exact List.drop_suffix ..
    · exact List.suffix_rfl
  append text value left hread c hc rest := by
    have hbegin := isPrefixOf_append_isUnbroken h hc text rest
    unfold word at hread ⊢
    cases hbegins : literal.toList.isPrefixOf text with
    | false =>
        rw [hbegin, hbegins, Bool.false_and, if_neg Bool.false_ne_true]
        rw [hbegins, Bool.false_and, if_neg Bool.false_ne_true] at hread
        cases hread
        rfl
    | true =>
        obtain ⟨after, rfl⟩ := List.isPrefixOf_iff_prefix.mp hbegins
        rw [hbegin, hbegins, List.append_assoc, drop_length_append, any_head?_append_stop hc]
        rw [drop_length_append, hbegins] at hread
        split at hread
        · next hends =>
            cases hread
            rw [if_pos hends]
        · next hends =>
            cases hread
            rw [if_neg hends, List.append_assoc]

theorem stops_oneOf {words : List (String × α)} (h : (words.all (isUnbroken ·.1)) = true) :
    (oneOf words).Stops := by
  induction words with
  | nil => exact Reader.stops_pure none
  | cons first others ih =>
      obtain ⟨literal, meaning⟩ := first
      rw [List.all_cons, Bool.and_eq_true] at h
      refine (stops_word h.1).bind fun found => ?_
      cases found with
      | true => exact Reader.stops_pure (some meaning)
      | false => exact ih h.2

theorem isDigit_of_mem_digits {n : Nat} {c : Char} (h : c ∈ Decimal.digits n) : c.isDigit = true := by
  induction n using Decimal.digits.induct with
  | case1 n hn =>
      rw [Decimal.digits, if_pos hn, List.mem_singleton] at h
      rw [h]
      rw [Nat.isDigit_digitChar, decide_eq_true hn]
  | case2 n hn ih =>
      rw [Decimal.digits, if_neg hn, List.mem_append, List.mem_singleton] at h
      rcases h with hfront | hlast
      · exact ih hfront
      · rw [hlast]
        rw [Nat.isDigit_digitChar, decide_eq_true (Nat.mod_lt n (by decide))]

theorem digits_ne_nil (n : Nat) : Decimal.digits n ≠ [] := by
  unfold Decimal.digits
  split <;> simp

theorem hexValue?_of_isDigit {c : Char} (h : c.isDigit = true) :
    hexValue? c = some (Decimal.digitValue c) := if_pos h

theorem digitValue_lt_of_isDigit {c : Char} (h : c.isDigit = true) : Decimal.digitValue c < 10 := by
  simp only [Char.isDigit, ge_iff_le, Bool.and_eq_true, decide_eq_true_eq,
    UInt32.le_iff_toNat_le] at h
  have hle : c.toNat ≤ 57 := h.2
  have hzero : '0'.toNat = 48 := rfl
  rw [Decimal.digitValue, hzero]
  omega

/-- A text of digits begins with nothing that has another character first or second. -/
theorem accept_digits (literal : String) (h : (literal.toList.take 2).any (!·.isDigit) = true)
    (n : Nat) : Reader.accept literal (Decimal.digits n) = some (false, Decimal.digits n) := by
  refine Reader.accept_of_not (Bool.eq_false_iff.mpr fun hbegin => ?_)
  obtain ⟨c, hc, hnot⟩ := List.any_eq_true.mp h
  have hmem := (List.isPrefixOf_iff_prefix.mp hbegin).subset (List.mem_of_mem_take hc)
  rw [isDigit_of_mem_digits hmem] at hnot
  cases hnot

theorem sign_digits (n : Nat) : sign (Decimal.digits n) = some (false, Decimal.digits n) := by
  unfold sign
  rw [Reader.bind_of_eq (accept_digits "+" rfl n), if_neg Bool.false_ne_true,
    accept_digits "-" rfl n]

theorem base_digits (n : Nat) : base (Decimal.digits n) = some (10, Decimal.digits n) := by
  unfold base
  rw [Reader.bind_of_eq (accept_digits "0b" rfl n), if_neg Bool.false_ne_true,
    Reader.bind_of_eq (accept_digits "0o" rfl n), if_neg Bool.false_ne_true,
    Reader.bind_of_eq (accept_digits "0x" rfl n), if_neg Bool.false_ne_true]
  rfl

theorem magnitude_digits (n : Nat) : magnitude (Decimal.digits n) = some (n, []) := by
  have hdigit := fun d => isDigit_of_mem_digits (n := n) (c := d)
  have hhex : ∀ d ∈ Decimal.digits n, (isHex d || d == '_') = true := fun d hd => by
    rw [isHex, hexValue?_of_isDigit (hdigit d hd)]
    rfl
  have hline : ∀ d ∈ Decimal.digits n, (d != '_') = true := fun d hd => by
    rw [bne_iff_ne]
    rintro rfl
    exact absurd (hdigit _ hd) (by decide)
  have htake : Reader.takeWhile (fun c => isHex c || c == '_') (Decimal.digits n) =
      some (Decimal.digits n, []) := by
    rw [Reader.takeWhile, List.takeWhile_eq_self_iff.mpr hhex, List.dropWhile_eq_nil_iff.mpr hhex]
  have hhead : (Decimal.digits n).head?.all (· == '_') = false := by
    cases hdigits : Decimal.digits n with
    | nil => exact absurd hdigits (digits_ne_nil n)
    | cons first more =>
        have hfirst := bne_iff_ne.mp (hline first (hdigits ▸ List.mem_cons_self))
        simpa using hfirst
  have hvalues : ((Decimal.digits n).filter (· != '_')).filterMap hexValue? =
      (Decimal.digits n).map Decimal.digitValue := by
    rw [List.filter_eq_self.mpr hline, ← List.filterMap_eq_map]
    exact List.filterMap_congr fun d hd => hexValue?_of_isDigit (hdigit d hd)
  have hsmall : ((Decimal.digits n).map Decimal.digitValue).all (· < 10) = true := by
    rw [List.all_map, List.all_eq_true]
    exact fun d hd => decide_eq_true (digitValue_lt_of_isDigit (hdigit d hd))
  unfold magnitude
  rw [Reader.bind_of_eq (base_digits n), Reader.bind_of_eq htake]
  simp only [hhead, hvalues, hsmall, Bool.false_eq_true, if_false, if_true]
  rw [List.foldl_map]
  change some (Decimal.ofDigits (Decimal.digits n), []) = _
  rw [Decimal.ofDigits_digits]

/-- A whole number is read back from its digits. -/
theorem natural_digits {bits n : Nat} (h : n < 2 ^ bits) :
    natural (.unsigned bits) (Decimal.digits n) = some (n, []) := by
  have hsuffix : oneOf (Width.all.map fun width => (width.suffix, width)) [] = some (none, []) := rfl
  have hsigned : signed (Decimal.digits n) = some (⟨n, none⟩, []) := by
    unfold signed
    rw [Reader.bind_of_eq (sign_digits n), Reader.bind_of_eq (magnitude_digits n),
      Reader.bind_of_eq hsuffix]
    rfl
  have hinteger : integer (Decimal.digits n) = some (⟨n, none⟩, []) := by
    unfold integer
    rw [Reader.bind_of_eq (accept_digits "b'" rfl n), if_neg Bool.false_ne_true, hsigned]
  have hfits : (Width.unsigned bits).contains n = true := by
    have hlt : (n : Int) < (2 ^ bits : Nat) := Int.ofNat_lt.mpr h
    exact Bool.and_eq_true_iff.mpr
      ⟨decide_eq_true (Int.natCast_nonneg n), decide_eq_true (Int.le_sub_one_of_lt hlt)⟩
  unfold natural Whole.natural
  rw [Reader.bind_of_eq hinteger]
  simp only [Option.all_none, Bool.true_and, hfits, Bool.and_true]
  rw [if_pos (decide_eq_true (Int.natCast_nonneg n))]
  rfl

theorem stops_sign : sign.Stops := by
  refine (stops_accept (by decide)).bind fun plus => ?_
  exact (Reader.stops_pure false).ite (stops_accept (by decide))

theorem stops_base : base.Stops := by
  refine (stops_accept (by decide)).bind fun _ => (Reader.stops_pure 2).ite ?_
  refine (stops_accept (by decide)).bind fun _ => (Reader.stops_pure 8).ite ?_
  refine (stops_accept (by decide)).bind fun _ => (Reader.stops_pure 16).ite ?_
  exact Reader.stops_pure 10

theorem stops_magnitude : magnitude.Stops := by
  refine stops_base.bind fun _ => (stops_takeWhile (by decide)).bind fun _ => ?_
  refine (Reader.stops_fail.bind fun _ => ?_).ite ?_
  all_goals exact (Reader.stops_pure _).ite Reader.stops_fail

theorem stops_signed : signed.Stops := by
  refine stops_sign.bind fun _ => stops_magnitude.bind fun _ => ?_
  refine (stops_oneOf (by decide)).bind fun _ => ?_
  exact (Reader.stops_pure _).ite Reader.stops_fail

/-- Without a quote a whole number is one in digits. -/
theorem integer_eq_signed {text : List Char} (h : "b'".toList.isPrefixOf text = false) :
    integer text = signed text := by
  unfold integer
  rw [Reader.bind_of_eq (Reader.accept_of_not h), if_neg Bool.false_ne_true]

theorem natural_eq_signed (width : Width) {text : List Char}
    (h : "b'".toList.isPrefixOf text = false) :
    natural width text = (signed >>= Whole.natural width) text :=
  congrArg (fun found => found.bind fun whole => whole.1.natural width whole.2)
    (integer_eq_signed h)

theorem stops_signedNatural (width : Width) : (signed >>= Whole.natural width).Stops :=
  stops_signed.bind fun _ => (Reader.stops_pure _).ite Reader.stops_fail

theorem IsNumber.isPrefixOf_quote {text : List Char} (h : IsNumber text) :
    "b'".toList.isPrefixOf text = false := Bool.eq_false_iff.mpr fun hbegin => by
  have hquote := h.2 '\'' ((List.isPrefixOf_iff_prefix.mp hbegin).subset (by decide))
  exact absurd hquote (by decide)

theorem IsNumber.natural_suffix {text left : List Char} (htext : IsNumber text) {width : Width}
    {value : Nat} (h : natural width text = some (value, left)) : left <:+ text :=
  (stops_signedNatural width).suffix
    ((natural_eq_signed width htext.isPrefixOf_quote).symm.trans h)

theorem IsNumber.spells_natural {text : List Char} (htext : IsNumber text) {width : Width}
    {value : Nat} (h : natural width text = some (value, [])) :
    Spells (natural width) text value := by
  have hquote := htext.isPrefixOf_quote
  intro rest hrest
  have hread := (stops_signedNatural width).spells ((natural_eq_signed width hquote).symm.trans h)
    rest hrest
  refine (natural_eq_signed width ?_).trans hread
  cases rest with
  | nil => rw [List.append_nil, hquote]
  | cons c rest => rw [isPrefixOf_append_isUnbroken (by decide) (hrest c rfl), hquote]

theorem isFloatPart_of_mem_stops {c : Char} (hc : c ∈ stops) : isFloatPart c = false :=
  eq_false_of_mem (by decide) hc

theorem spanFloat_cons_of_not {first : Char} (h : isFloatPart first = false)
    (before text : List Char) :
    spanFloat before (first :: text) = (before.reverse, first :: text) := by
  unfold spanFloat
  split
  · next hnil => cases hnil
  · next htext =>
      cases htext
      exact absurd h (by decide)
  · next htext =>
      cases htext
      exact if_neg (Bool.eq_false_iff.mp h)

theorem spanFloat_append_stop {c : Char} (hc : c ∈ stops) (before text rest : List Char) :
    spanFloat before (text ++ c :: rest) =
      ((spanFloat before text).1, (spanFloat before text).2 ++ c :: rest) := by
  have hpart := isFloatPart_of_mem_stops hc
  fun_induction spanFloat before text with
  | case1 before => exact spanFloat_cons_of_not hpart before rest
  | case2 => rfl
  | case3 before first text hpoints hfirst ih =>
      have hstays : ∀ more, first = '.' → text ++ c :: rest = '.' :: more → False := by
        rintro more rfl hmore
        cases text with
        | nil =>
            cases hmore
            exact absurd hpart (by decide)
        | cons second text =>
            cases hmore
            exact hpoints text rfl rfl
      rw [List.cons_append, spanFloat, if_pos hfirst, ih]
      exact hstays
  | case4 before first text _ hfirst =>
      exact spanFloat_cons_of_not (Bool.eq_false_iff.mpr hfirst) before _

theorem spanFloat_suffix (before text : List Char) : (spanFloat before text).2 <:+ text := by
  fun_induction spanFloat before text with
  | case1 | case2 | case4 => exact List.suffix_rfl
  | case3 _ _ _ _ _ ih => exact ih.trans (List.suffix_cons ..)

/-- A number in digits and what follows it. -/
def digitsLiteral (width : FloatWidth) : Reader Literal := fun text => do
  let value ← (dropUnderscores false (spanFloat [] text).1).bind decimal?
  let (_, rest) ← oneOf (width.suffixes.map fun suffix => (suffix, ())) (spanFloat [] text).2
  return (value, rest)

/-- A number is given by name or in digits. -/
theorem literal_eq (width : FloatWidth) :
    literal width = namedNumber (unsignedNames ++ signedNames) width >>= fun found =>
      found.elim (digitsLiteral width) pure := by
  unfold literal
  congr 1
  funext found
  cases found with
  | some value => rfl
  | none =>
      funext text
      have hrest : Reader.rest text = some (text, text) := rfl
      change (Reader.rest >>= fun _ => _) text = digitsLiteral width text
      rw [Reader.bind_of_eq hrest, digitsLiteral]
      obtain ⟨digits, left⟩ := spanFloat [] text
      dsimp only
      cases (dropUnderscores false digits).bind decimal? <;> rfl

theorem stops_digitsLiteral : (digitsLiteral .single).Stops := by
  have hsuffix : (oneOf (FloatWidth.single.suffixes.map fun suffix => (suffix, ()))).Stops :=
    stops_oneOf (by decide)
  constructor
  all_goals
    intro text value left hread
    obtain ⟨number, hnumber, hread⟩ := Option.bind_eq_some_iff.mp hread
    obtain ⟨⟨found, after⟩, hfound, hread⟩ := Option.bind_eq_some_iff.mp hread
    cases hread
  · exact (hsuffix.suffix hfound).trans (spanFloat_suffix [] text)
  · intro c hc rest
    unfold digitsLiteral
    rw [spanFloat_append_stop hc]
    simp only [hnumber, hsuffix.append hfound c hc rest, Option.bind_eq_bind, Option.bind_some]
    rfl

theorem stops_literal : (literal .single).Stops := by
  have hnamed : (namedNumber (unsignedNames ++ signedNames) .single).Stops :=
    stops_oneOf (by decide)
  rw [literal_eq]
  refine hnamed.bind fun found => ?_
  cases found with
  | some value => exact Reader.stops_pure value
  | none => exact stops_digitsLiteral

/-- A text that begins neither with a blank nor with a comment. -/
def IsSolid (text : List Char) : Prop := ∀ c ∈ text.head?, c ∉ '/' :: blanks

theorem isSolid_cons {first : Char} (h : first ∉ '/' :: blanks) (rest : List Char) :
    IsSolid (first :: rest) := by
  rintro c ⟨⟩
  exact h

/-- What no number, no name and no record begins with. -/
def marks : List Char := '/' :: '#' :: ')' :: blanks

theorem slash_blanks_subset_marks : '/' :: blanks ⊆ marks :=
  List.cons_subset_cons '/' fun _ hc => List.mem_cons_of_mem _ (List.mem_cons_of_mem _ hc)

theorem IsNumber.not_mem_marks {text : List Char} (h : IsNumber text) {c : Char} (hc : c ∈ text) :
    c ∉ marks := fun hmark => by
  have hnot := eq_false_of_mem (p := fun c => c.isAlphanum || ['+', '-', '.', '_'].contains c)
    (by decide) hmark
  have hpart : (c.isAlphanum || ['+', '-', '.', '_'].contains c) = true := by simpa using h.2 c hc
  exact Bool.false_ne_true (hnot.symm.trans hpart)

end Chiptune.Record
