import Chiptune.Scalar.Basic

/-!
What a line of notation turns into: voices and the events that sound them.
-/
namespace Chiptune

/-- What an event sounds: a tone of some frequency in hertz, or one of the two drums. -/
inductive Voice (τ : Type) where
  | tone (frequency : τ)
  | kick
  | snare
deriving Repr

def Voice.frequency? {τ : Type} : Voice τ → Option τ
  | .tone frequency => some frequency
  | .kick | .snare => none

/-- One sounded event of a track.  Its start counts from the beginning of the loop, and its volume is
relative to the mix. -/
structure NoteEvent (τ γ : Type) where
  voice : Voice τ
  duration : τ
  start : τ
  volume : γ
deriving Repr

/-- The time at which an event is over. -/
def NoteEvent.finish {τ γ : Type} [Add τ] (event : NoteEvent τ γ) : τ :=
  event.start + event.duration

end Chiptune
