import Chiptune.Notation.Settings
import Chiptune.Proofs.ExtendedTime
import Chiptune.Proofs.LongestMatch

/-!
Reading a text in two parts.

A token takes digits and at most one accidental after its first character, over blanks, and nothing
else.  So where the second part goes on with anything but these, no token of the first part reaches
into it, and the settings that the first part leaves are all that the second part has to know.

Main statement: such a text is read as its first part, and then its second part from the settings
that the first part leaves.
-/
namespace Chiptune.Notation

def capitals : List Char := "ABCDEFGHIJKLMNOPQRSTUVWXYZ".toList

/-- Lowering changes nothing but capitals. -/
theorem toLower_eq_or_mem_capitals (c : Char) : c.toLower = c ∨ c ∈ capitals := by
  by_cases hupper : c.isUpper
  · right
    simp only [Char.isUpper, decide_eq_true_eq, ge_iff_le] at hupper
    have hlow : 65 ≤ c.toNat := hupper.1
    have hhigh : c.toNat ≤ 90 := hupper.2
    have hcapital := Char.ofNat_toNat c
    interval_cases c.toNat
    all_goals
      subst hcapital
      decide
  · exact .inl (Char.toLower_eq_of_not_isUpper hupper)

/-- A character that no token before it takes: neither a digit nor an accidental. -/
def StandsApart (c : Char) : Prop :=
  c.isDigit = false ∧ c ≠ '#' ∧ c ≠ '+' ∧ c ≠ '-'

instance (c : Char) : Decidable (StandsApart c) :=
  inferInstanceAs (Decidable (_ ∧ _))

/-- Capitals stand apart, and so do their small letters. -/
theorem StandsApart.toLower {c : Char} (h : StandsApart c) : StandsApart c.toLower := by
  rcases toLower_eq_or_mem_capitals c with hlower | hcapital
  · rwa [hlower]
  · have hcapitals : capitals.all fun c => StandsApart c.toLower := by decide
    exact of_decide_eq_true (List.all_eq_true.mp hcapitals c hcapital)

/-- The significant characters of a text begin with its first character that is not blank. -/
theorem head?_significant (text : List Char) :
    (significant text).head? = (text.find? fun c => !isBlank c).map Char.toLower := by
  rw [significant, List.head?_map, List.head?_filter]

theorem significant_append (text next : List Char) :
    significant (text ++ next) = significant text ++ significant next := by
  rw [significant, List.filter_append, List.map_append, significant, significant]

section

variable {next : List Char} (hnext : ∀ c ∈ next.head?, StandsApart c)
include hnext

theorem takeNumber_append (rest : List Char) :
    takeNumber (rest ++ next) = ((takeNumber rest).1, (takeNumber rest).2 ++ next) := by
  have hdigits : (rest ++ next).takeWhile Char.isDigit = rest.takeWhile Char.isDigit ∧
      (rest ++ next).dropWhile Char.isDigit = rest.dropWhile Char.isDigit ++ next := by
    induction rest with
    | nil =>
        cases next with
        | nil => exact ⟨rfl, rfl⟩
        | cons c more => simp [(hnext c rfl).1]
    | cons c rest ih => cases hdigit : c.isDigit <;> simp [hdigit, ih]
  rw [takeNumber_eq, hdigits.1, hdigits.2, takeNumber_eq]

theorem takeAccidental_append (rest : List Char) :
    takeAccidental (rest ++ next) = ((takeAccidental rest).1, (takeAccidental rest).2 ++ next) := by
  cases rest with
  | nil =>
      cases next with
      | nil => rfl
      | cons c more =>
          obtain ⟨-, hhash, hplus, hminus⟩ := hnext c rfl
          rw [List.nil_append]
          unfold takeAccidental
          split <;> simp_all
  | cons c rest =>
      unfold takeAccidental
      split <;> simp_all

theorem numbered_append (make : Option Nat → Token) (rest : List Char) :
    numbered make (rest ++ next) = ((numbered make rest).1, (numbered make rest).2 ++ next) := by
  simp only [numbered, takeNumber_append hnext]

theorem nextToken_append (c : Char) (rest : List Char) :
    nextToken c (rest ++ next) = ((nextToken c rest).1, (nextToken c rest).2 ++ next) := by
  rcases nextToken_cases c with ⟨-, hfirst⟩ | ⟨make, -, hfirst⟩ | ⟨token, -, hfirst⟩
  · simp only [hfirst, takeAccidental_append hnext, numbered_append hnext]
  · simp only [hfirst, numbered_append hnext]
  · simp only [hfirst]

theorem tokensOf_append (text : List Char) :
    tokensOf (text ++ next) = tokensOf text ++ tokensOf next := by
  induction text using tokensOf.induct with
  | case1 => simp [tokensOf]
  | case2 c rest ih =>
      rw [List.cons_append, tokensOf, nextToken_append hnext, ih, tokensOf, List.cons_append]

end

namespace Settings

variable {τ γ : Type} [Scalar τ] [Scalar γ] [Tuning τ]

theorem run_append (settings : Settings τ) (tokens next : List Token) :
    settings.run (γ := γ) (tokens ++ next) =
      ((settings.run tokens).1 ++ ((settings.run (γ := γ) tokens).2.run next).1,
        ((settings.run (γ := γ) tokens).2.run (γ := γ) next).2) := by
  induction tokens generalizing settings with
  | nil => simp [run]
  | cons token rest ih => simp [run, ih]

/-- A text in two parts, of which the second begins with neither a digit nor an accidental once its
blanks are gone.  It sounds as the first part, and then as the second part does from the settings
that the first one leaves, and it leaves the same settings. -/
theorem scan_append (settings : Settings τ) (text next : String)
    (hnext : ∀ c ∈ next.toList.find? fun c => !isBlank c, StandsApart c) :
    settings.scan (γ := γ) (text ++ next) =
      ((settings.scan text).1 ++ ((settings.scan (γ := γ) text).2.scan next).1,
        ((settings.scan (γ := γ) text).2.scan (γ := γ) next).2) := by
  have hapart : ∀ c ∈ (significant next.toList).head?, StandsApart c := by
    intro c hc
    rw [head?_significant, Option.mem_def, Option.map_eq_some_iff] at hc
    obtain ⟨first, hfirst, rfl⟩ := hc
    exact (hnext first hfirst).toLower
  have htokens : tokens (text ++ next) = tokens text ++ tokens next := by
    rw [tokens, String.toList_append, significant_append, tokensOf_append hapart, tokens, tokens]
  rw [scan, htokens, run_append, scan, scan]

open Octaves in
/-- The second part begins with blanks and a capital, and goes on with an accidental and digits.  The
first part has set tempo, octave and default length for it. -/
theorem scan_append_capital :
    let settings : Settings Extended := ⟨120, 2, 4, 0⟩
    let text := "t240 o5 L8 a< r"
    let next := "\n A#4 k16"
    let whole : List (NoteEvent Extended Rat) × Settings Extended := settings.scan (text ++ next)
    (∀ c ∈ next.toList.find? fun c => !isBlank c, StandsApart c) ∧
      whole = ((settings.scan text).1 ++ ((settings.scan (γ := Rat) text).2.scan next).1,
        ((settings.scan (γ := Rat) text).2.scan (γ := Rat) next).2) ∧
      whole.1.map NoteEvent.start = [.finite 0, .finite (1 / 4), .finite (1 / 2)] := by
  intro settings text next whole
  have hfirst : (next.toList.find? fun c => !isBlank c) = some 'A' := by decide +kernel
  have hnext : ∀ c ∈ next.toList.find? fun c => !isBlank c, StandsApart c := by
    rw [hfirst]
    rintro c ⟨⟩
    decide
  exact ⟨hnext, scan_append settings text next hnext, by decide +kernel⟩

end Settings

end Chiptune.Notation
