import Chiptune.Notation.Note
import Chiptune.Notation.Pitch
import Chiptune.Notation.Token

/-!
Laying tokens out in time.

Tempo, octave and default length persist from token to token, and every note, drum and rest moves
the running time on by its duration.  Reading never fails: a token without meaning changes nothing.
-/
namespace Chiptune.Notation

/-- What persists from one token to the next.  Lengths are denominators of a whole note. -/
structure Settings (τ : Type) where
  /-- Beats per minute. -/
  tempo : τ
  octave : Int
  /-- Length of notes that have no digits of their own; 4 is a quarter. -/
  length : τ
  /-- Seconds from the start of the track. -/
  time : τ
deriving Repr

variable {τ γ : Type} [Scalar τ] [Scalar γ]

/-- Octave numbers are held within 32 bits. -/
def highestOctave : Int := 0x7FFFFFFF

def lowestOctave : Int := -0x80000000

namespace Settings

/-- Settings at the start of a track: 120 beats per minute, octave 4, quarter notes. -/
def initial : Settings τ where
  tempo := (120 : Nat)
  octave := 4
  length := (4 : Nat)
  time := 0

/-- Seconds that a note of a length takes, or one of the default length.  Where tempo and length
are so extreme that there is no such number, none. -/
def duration (settings : Settings τ) (length : Option τ) : τ :=
  let seconds := ((60 : Nat) / settings.tempo) * ((4 : Nat) / length.getD settings.length)
  if Scalar.isNaN seconds then 0 else seconds

/-- Lets a voice, or silence, last for a length. -/
def sound (settings : Settings τ) (voice : Option (Voice τ)) (length : Option Nat) :
    List (NoteEvent τ γ) × Settings τ :=
  let duration := settings.duration (length.map Nat.cast)
  (voice.toList.map fun voice => ⟨voice, duration, settings.time, 1⟩,
    { settings with time := settings.time + duration })

variable [Tuning τ]

def voiceOf? (octave : Int) : Token → Option (Voice τ)
  | .note letter accidental _ => (noteFrequency? letter accidental octave).map .tone
  | .drum .kick _ => some .kick
  | .drum .snare _ => some .snare
  | _ => none

/-- The event of one token, if it sounds, and the settings after it. -/
def step (settings : Settings τ) (token : Token) : List (NoteEvent τ γ) × Settings τ :=
  match token with
  | .note _ _ length | .drum _ length | .rest length =>
    settings.sound (voiceOf? settings.octave token) length
  | .tempo (some value) => ([], { settings with tempo := (value : τ) })
  | .octave (some value) => ([], { settings with octave := min value highestOctave })
  | .length (some value) => ([], { settings with length := (value : τ) })
  | .octaveUp => ([], { settings with octave := min (settings.octave + 1) highestOctave })
  | .octaveDown => ([], { settings with octave := max (settings.octave - 1) lowestOctave })
  | .tempo none | .octave none | .length none | .other _ => ([], settings)

/-- The events of a list of tokens in order, and the settings after them. -/
def run (settings : Settings τ) : List Token → List (NoteEvent τ γ) × Settings τ
  | [] => ([], settings)
  | token :: rest =>
    let (events, settings) := settings.step token
    let (later, settings) := settings.run rest
    (events ++ later, settings)

/-- The events of a text read from given settings, and the settings that it leaves. -/
def scan (settings : Settings τ) (text : String) : List (NoteEvent τ γ) × Settings τ :=
  settings.run (tokens text)

end Settings

def compile [Tuning τ] (text : String) : List (NoteEvent τ γ) :=
  (Settings.initial.scan text).1

end Chiptune.Notation
