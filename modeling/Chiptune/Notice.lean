import Chiptune.Dispatch
import Chiptune.Engine.Command
import Chiptune.Transport

/-!
Everything that is worth a line in the log.
-/
namespace Chiptune

inductive Level where
  | debug
  | info
  | warn
deriving DecidableEq, Repr

/-- A notice, with the values that its line shows. -/
inductive Notice (τ γ : Type) where
  /-- The loop came round after some cycles, and a new cycle began at a clock time. -/
  | loopWrapped (cycles anchor : τ)
  /-- Events were past their time when they were reached. -/
  | eventsMissed (count : Nat)
  | startAsked (outcome : StartOutcome τ)
  | stopAsked (outcome : StopOutcome τ)
  | transportReset
  | songUnknown (id : Nat)
  | songCompiled (id : Nat) (loopLength : τ) (events : Nat)
  | songAlreadyLoaded (id : Nat)
  | songLoaded (id : Nat) (loopLength : τ)
  /-- A note reached a sink that only logs. -/
  | noteHeard (dispatch : Dispatch τ γ)
  /-- Silence from a clock time on reached a sink that only logs. -/
  | silenceHeard (time : τ)
  /-- An event was dropped on its way to the output. -/
  | queueFull
  | engineStarted
  | engineStopped
  | commandReceived (command : Command γ)
  | stageChosen (stage id : Nat)
deriving Repr

namespace Notice

variable {τ γ : Type}

def level : Notice τ γ → Level
  | .eventsMissed _ | .songUnknown _ | .queueFull => .warn
  | .startAsked (.playingFrom _) | .stopAsked (.pausedAt _) | .transportReset
  | .songCompiled .. | .songLoaded .. | .engineStarted | .engineStopped | .stageChosen .. => .info
  | .loopWrapped .. | .startAsked _ | .stopAsked _ | .songAlreadyLoaded _ | .noteHeard _
  | .silenceHeard _ | .commandReceived _ => .debug

end Notice

end Chiptune
