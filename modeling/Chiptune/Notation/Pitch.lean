import Chiptune.Scalar.Float

/-!
Pitches in equal temperament, counted in semitones from the A above middle C.
-/
namespace Chiptune.Notation

/-- Semitones of a note letter above the C of its octave. -/
def semitone? : Char → Option Int
  | 'c' => some 0
  | 'd' => some 2
  | 'e' => some 4
  | 'f' => some 5
  | 'g' => some 7
  | 'a' => some 9
  | 'b' => some 11
  | _ => none

/-- Semitones between the A of octave 4 and a note `step` semitones above the C of its octave,
shifted by an accidental.  Octave 4 begins at middle C.  Step and accidental add up in 32 bits. -/
def semitonesFromA (step accidental octave : Int) : Int :=
  (step + accidental).bmod 0x100000000 + (octave - 4) * 12 - 9

end Chiptune.Notation

namespace Chiptune

/-- A tuning gives every semitone its frequency in hertz. -/
class Tuning (τ : Type) where
  /-- Frequency of the pitch that many semitones above the A above middle C. -/
  hertz : Int → τ

/-- Equal temperament at 440 hertz: twelve semitones double the frequency. -/
instance : Tuning Float where
  hertz semitones := 440.0 * (2.0 : Float).pow (Float.ofInt semitones / 12.0)

/-- Frequency of a note letter with an accidental in an octave, if it is a note letter. -/
def noteFrequency? {τ : Type} [Tuning τ] (letter : Char) (accidental octave : Int) : Option τ :=
  (Notation.semitone? letter).map fun step =>
    Tuning.hertz (Notation.semitonesFromA step accidental octave)

end Chiptune
