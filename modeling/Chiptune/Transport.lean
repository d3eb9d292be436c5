import Chiptune.Scalar.Basic

/-!
The transport maps clock time onto a position in the loop and remembers where playback paused.

While it plays, the position is the time since the anchor, the clock time at which the current cycle
began; while it is stopped, the position is the one saved.
-/
namespace Chiptune

structure Transport (τ γ : Type) where
  playing : Bool
  /-- Clock time at which the current cycle began. -/
  anchor : τ
  /-- Position to resume from. -/
  saved : τ
  /-- Master volume. -/
  volume : γ
deriving Repr

/-- What came of asking to play. -/
inductive StartOutcome (τ : Type) where
  | alreadyPlaying
  | nothingLoaded
  | playingFrom (position : τ)
deriving Repr

/-- What came of asking to pause. -/
inductive StopOutcome (τ : Type) where
  | alreadyStopped
  | pausedAt (position : τ)
deriving Repr

/-- Folds a position into a loop, `[0, loopLength)`.  Positions before the start and loops without a
length give 0; in an endless loop every position is its own. -/
def foldPosition {τ : Type} [Scalar τ] (position loopLength : τ) : τ :=
  if Scalar.isNaN position || decide (position ≤ 0) || Scalar.isNaN loopLength ||
      decide (loopLength ≤ 0) then 0
  else if Scalar.isInfinite loopLength then position
  else Scalar.remainder position loopLength

namespace Transport

variable {τ γ : Type} [Scalar τ] [Scalar γ]

def initial (volume : γ) : Transport τ γ := ⟨false, 0, 0, Scalar.clamp 0 1 volume⟩

def position (transport : Transport τ γ) (now : τ) : τ :=
  if transport.playing then now - transport.anchor else transport.saved

/-- Plays from the saved position, unless it plays already or there is no loop to play. -/
def start (transport : Transport τ γ) (loopLength : Option τ) (now : τ) :
    StartOutcome τ × Transport τ γ :=
  match transport.playing, loopLength with
  | true, _ => (.alreadyPlaying, transport)
  | false, none => (.nothingLoaded, transport)
  | false, some loopLength =>
    let saved := foldPosition transport.saved loopLength
    (.playingFrom saved, { transport with playing := true, anchor := now - saved, saved })

/-- Pauses and keeps the position, folded into the loop, so that the next start resumes there. -/
def stop (transport : Transport τ γ) (loopLength now : τ) : StopOutcome τ × Transport τ γ :=
  if transport.playing then
    let saved := foldPosition (now - transport.anchor) loopLength
    (.pausedAt saved, { transport with playing := false, saved })
  else (.alreadyStopped, transport)

def reset (transport : Transport τ γ) : Transport τ γ :=
  { transport with playing := false, anchor := 0, saved := 0 }

/-- Moves the time at which the current cycle began, as when the loop comes round. -/
def rebase (transport : Transport τ γ) (anchor : τ) : Transport τ γ :=
  { transport with anchor }

/-- Sets the master volume, held between 0 and 1.  A volume that is not finite is ignored. -/
def setVolume (transport : Transport τ γ) (gain : γ) : Transport τ γ :=
  if Scalar.isFinite gain then { transport with volume := Scalar.clamp 0 1 gain } else transport

end Transport

def StartOutcome.began {τ : Type} : StartOutcome τ → Bool
  | .playingFrom _ => true
  | .alreadyPlaying | .nothingLoaded => false

def StopOutcome.ended {τ : Type} : StopOutcome τ → Bool
  | .pausedAt _ => true
  | .alreadyStopped => false

end Chiptune
