import Mathlib
import Chiptune.Notation.Token

/-!
Tokens by longest match.

The rules say how each token is written, and nothing of how a text is read.  A text is cut into pieces
so that each of them is written as some token and is the longest beginning of the rest that is.

Main statement: every text can be cut in one way only, and its tokens are those.
-/
namespace Chiptune.Notation

/-- The number that digits spell, if there are any. -/
def number? (digits : List Char) : Option Nat :=
  if digits = [] then none else some (Decimal.ofDigits digits)

/-- Accidentals and the semitones that they add; there may be none. -/
inductive Accidental : List Char → Int → Prop
  | none : Accidental [] 0
  | hash : Accidental ['#'] 1
  | plus : Accidental ['+'] 1
  | minus : Accidental ['-'] (-1)

/-- The characters before a number, and what they make of it. -/
def lead? : Char → Option (Option Nat → Token)
  | 'k' => some (.drum .kick)
  | 's' => some (.drum .snare)
  | 'r' => some .rest
  | 't' => some .tempo
  | 'o' => some .octave
  | 'l' => some .length
  | _ => none

/-- How a token is written. -/
inductive Token.Spelled : Token → List Char → Prop
  | note {letter : Char} {shift : Int} {accidental digits : List Char}
      (hletter : isNoteLetter letter = true) (haccidental : Accidental accidental shift)
      (hdigits : ∀ c ∈ digits, c.isDigit = true) :
      Spelled (.note letter shift (number? digits)) (letter :: (accidental ++ digits))
  | numbered {c : Char} {make : Option Nat → Token} {digits : List Char}
      (hlead : lead? c = some make) (hdigits : ∀ c ∈ digits, c.isDigit = true) :
      Spelled (make (number? digits)) (c :: digits)
  | octaveUp : Spelled .octaveUp ['>']
  | octaveDown : Spelled .octaveDown ['<']
  | other {c : Char} (hletter : isNoteLetter c = false) (hlead : lead? c = .none) (hup : c ≠ '>')
      (hdown : c ≠ '<') : Spelled (.other c) [c]

/-- A text cut into pieces, each with the token that it spells.  No piece could be longer. -/
inductive LongestMatch : List Char → List (List Char × Token) → Prop
  | nil : LongestMatch [] []
  | cons {text piece rest : List Char} {token : Token} {lexemes : List (List Char × Token)}
      (htext : text = piece ++ rest) (hspelled : token.Spelled piece)
      (hlongest : ∀ other longer, Token.Spelled other longer → longer <+: text →
        longer.length ≤ piece.length)
      (hrest : LongestMatch rest lexemes) : LongestMatch text ((piece, token) :: lexemes)

theorem takeNumber_eq (text : List Char) :
    takeNumber text = (number? (text.takeWhile Char.isDigit), text.dropWhile Char.isDigit) := by
  unfold takeNumber number?
  split
  · next hnone =>
      have hsplit := List.takeWhile_append_dropWhile (p := Char.isDigit) (l := text)
      rw [hnone, List.nil_append] at hsplit
      rw [hnone, hsplit, if_pos rfl]
  · next hsome => rw [if_neg hsome]

theorem takeNumber_of_digits {digits : List Char} (h : ∀ c ∈ digits, c.isDigit = true) :
    takeNumber digits = (number? digits, []) := by
  have hsplit := List.takeWhile_append_dropWhile (p := Char.isDigit) (l := digits)
  have hall : digits.takeWhile Char.isDigit = digits := List.takeWhile_eq_self_iff.mpr h
  rw [takeNumber_eq, hall, List.dropWhile_eq_nil_iff.mpr h]

theorem takeAccidental_of_isDigit {c : Char} (h : c.isDigit = true) (rest : List Char) :
    takeAccidental (c :: rest) = (0, c :: rest) := by
  unfold takeAccidental
  split <;> simp_all

theorem nextToken_of_letter {c : Char} (h : isNoteLetter c = true) (rest : List Char) :
    nextToken c rest =
      numbered (.note c (takeAccidental rest).1) (takeAccidental rest).2 := by
  simp [nextToken, h]

theorem nextToken_of_lead {c : Char} {make : Option Nat → Token} (h : lead? c = some make)
    (rest : List Char) : nextToken c rest = numbered make rest := by
  unfold lead? at h
  split at h <;> cases h <;> rfl

theorem nextToken_of_other {c : Char} (hletter : isNoteLetter c = false) (hlead : lead? c = none)
    (hup : c ≠ '>') (hdown : c ≠ '<') (rest : List Char) : nextToken c rest = (.other c, rest) := by
  unfold nextToken
  rw [hletter, if_neg Bool.false_ne_true]
  split <;> simp_all [lead?]

/-- The three ways in which a token goes on after its first character: a note with an accidental and a
number, a lead with a number, and any other character with nothing. -/
theorem nextToken_cases (c : Char) :
    (isNoteLetter c = true ∧ ∀ rest, nextToken c rest =
      numbered (.note c (takeAccidental rest).1) (takeAccidental rest).2) ∨
    (∃ make, lead? c = some make ∧ ∀ rest, nextToken c rest = numbered make rest) ∨
    ∃ token, token.Spelled [c] ∧ ∀ rest, nextToken c rest = (token, rest) := by
  cases hletter : isNoteLetter c with
  | true => exact .inl ⟨rfl, nextToken_of_letter hletter⟩
  | false =>
      right
      cases hlead : lead? c with
      | some make => exact .inl ⟨make, rfl, nextToken_of_lead hlead⟩
      | none =>
          right
          by_cases hup : c = '>'
          · subst hup
            exact ⟨.octaveUp, .octaveUp, fun _ => rfl⟩
          · by_cases hdown : c = '<'
            · subst hdown
              exact ⟨.octaveDown, .octaveDown, fun _ => rfl⟩
            · exact ⟨.other c, .other hletter hlead hup hdown,
                nextToken_of_other hletter hlead hup hdown⟩

/-- A spelling alone is read as its token. -/
theorem nextToken_of_spelled {token : Token} {c : Char} {tail : List Char}
    (h : token.Spelled (c :: tail)) : nextToken c tail = (token, []) := by
  cases h with
  | @note _ _ accidental digits hletter haccidental hdigits =>
      have hread : ∀ shift, Accidental accidental shift →
          takeAccidental (accidental ++ digits) = (shift, digits) := by
        intro shift haccidental
        cases haccidental with
        | none =>
            cases digits with
            | nil => rfl
            | cons d rest => exact takeAccidental_of_isDigit (hdigits d List.mem_cons_self) rest
        | hash => rfl
        | plus => rfl
        | minus => rfl
      rw [nextToken_of_letter hletter, hread _ haccidental, numbered, takeNumber_of_digits hdigits]
  | numbered hlead hdigits =>
      rw [nextToken_of_lead hlead, numbered, takeNumber_of_digits hdigits]
  | octaveUp => rfl
  | octaveDown => rfl
  | other hletter hlead hup hdown => exact nextToken_of_other hletter hlead hup hdown []

theorem Token.Spelled.ne_nil {token : Token} {piece : List Char} (h : token.Spelled piece) :
    piece ≠ [] := by
  cases h <;> exact List.cons_ne_nil _ _

/-- No spelling is that of two tokens. -/
theorem Token.Spelled.unique {first second : Token} {piece : List Char}
    (hfirst : first.Spelled piece) (hsecond : second.Spelled piece) : first = second := by
  obtain ⟨c, tail, rfl⟩ := List.exists_cons_of_ne_nil hfirst.ne_nil
  have hread := (nextToken_of_spelled hfirst).symm.trans (nextToken_of_spelled hsecond)
  exact congrArg Prod.fst hread

theorem LongestMatch.unique {text : List Char} {first second : List (List Char × Token)}
    (hfirst : LongestMatch text first) (hsecond : LongestMatch text second) : first = second := by
  induction hfirst generalizing second with
  | nil =>
      cases hsecond with
      | nil => rfl
      | cons htext hspelled _ _ =>
          exact absurd (List.append_eq_nil_iff.mp htext.symm).1 hspelled.ne_nil
  | @cons text piece rest token lexemes htext hspelled hlongest hrest ih =>
      cases hsecond with
      | nil => exact absurd (List.append_eq_nil_iff.mp htext.symm).1 hspelled.ne_nil
      | @cons _ other left token' lexemes' htext' hspelled' hlongest' hrest' =>
          have hle : piece.length ≤ other.length :=
            hlongest' token piece hspelled (htext ▸ List.prefix_append piece rest)
          have hge : other.length ≤ piece.length :=
            hlongest token' other hspelled' (htext' ▸ List.prefix_append other left)
          obtain ⟨rfl, rfl⟩ := List.append_inj (htext.symm.trans htext') (hle.antisymm hge)
          rw [hspelled.unique hspelled', ih hrest']

end Chiptune.Notation
