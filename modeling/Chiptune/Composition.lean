import Chiptune.Notation.Settings
import Chiptune.Role

/-!
Compositions: four compiled tracks that loop together.
-/
namespace Chiptune

/-- Four compiled tracks and the length of the loop they play in, in seconds. -/
structure Composition (τ γ : Type) where
  id : Nat
  tracks : PerRole (List (NoteEvent τ γ))
  loopLength : τ

namespace Composition

variable {τ γ : Type} [Scalar τ]

/-- The end of the last event of a track; an empty track has no length. -/
def trackLength (events : List (NoteEvent τ γ)) : τ :=
  match events.getLast? with
  | some event => event.finish
  | none => 0

/-- The longest track sets the length of the loop. -/
def longest (tracks : PerRole (List (NoteEvent τ γ))) : τ :=
  (tracks.map trackLength).toList.foldl Scalar.atLeast 0

def compile [Scalar γ] [Tuning τ] (id : Nat) (texts : PerRole String) : Composition τ γ :=
  let tracks := texts.map Notation.compile
  ⟨id, tracks, longest tracks⟩

/-- A composition without a loop to go round, which plays as silence. -/
def isDegenerate (composition : Composition τ γ) : Bool :=
  Scalar.isNaN composition.loopLength || decide (composition.loopLength ≤ 0)

def eventCount (composition : Composition τ γ) : Nat :=
  (composition.tracks.map List.length).total

end Composition

end Chiptune
