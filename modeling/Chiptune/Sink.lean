import Chiptune.Notice

/-!
Sinks turn dispatched notes into sound.  Notes and silences reach them in the order in which the
sequencer makes them, and nothing comes back but lines for the log.
-/
namespace Chiptune

/-- What an operation of the sequencer does to the world outside. -/
inductive Effect (τ γ : Type) where
  | notice (notice : Notice τ γ)
  | dispatch (dispatch : Dispatch τ γ)
  /-- Cut what sounds, and drop what would start at a clock time or later. -/
  | silence (time : τ)
deriving Repr

/-- A receiver of notes. -/
class Sink (σ : Type) (τ γ : outParam Type) where
  dispatch : σ → Dispatch τ γ → List (Notice τ γ) × σ
  silence : σ → τ → List (Notice τ γ) × σ

namespace Sink

variable {σ τ γ : Type} [Sink σ τ γ]

/-- Passes one effect on.  Notices go to the log as they are. -/
def hear (sink : σ) : Effect τ γ → List (Notice τ γ) × σ
  | .notice notice => ([notice], sink)
  | .dispatch note => dispatch sink note
  | .silence time => silence sink time

/-- Passes effects on in order and collects the lines for the log. -/
def hearAll (sink : σ) : List (Effect τ γ) → List (Notice τ γ) × σ
  | [] => ([], sink)
  | effect :: rest =>
    let (notices, sink) := hear sink effect
    let (later, sink) := hearAll sink rest
    (notices ++ later, sink)

theorem hearAll_append (sink : σ) (first second : List (Effect τ γ)) :
    (hearAll sink (first ++ second)).2 = (hearAll (hearAll sink first).2 second).2 := by
  induction first generalizing sink with
  | nil => rfl
  | cons effect rest ih => simpa only [List.cons_append, hearAll] using ih (hear sink effect).2

end Sink

/-- Keeps every note, as for a display. -/
structure Recording (τ γ : Type) where
  notes : List (Dispatch τ γ)

/-- A silence takes back the notes that have not begun before it. -/
instance {τ γ : Type} [Scalar τ] : Sink (Recording τ γ) τ γ where
  dispatch recording note := ([], ⟨recording.notes ++ [note]⟩)
  silence recording time := ([], ⟨recording.notes.filter fun note => decide (note.start < time)⟩)

/-- Writes notes to the log in place of playing them. -/
structure LogOnly (τ γ : Type) where

instance {τ γ : Type} : Sink (LogOnly τ γ) τ γ where
  dispatch sink note := ([.noteHeard note], sink)
  silence sink time := ([.silenceHeard time], sink)

end Chiptune
