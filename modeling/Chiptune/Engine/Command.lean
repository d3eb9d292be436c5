/-!
What an engine can be asked to do.
-/
namespace Chiptune

inductive Command (γ : Type) where
  | load (id : Nat)
  /-- Load the song that the soundtrack assigns to a stage. -/
  | loadStage (stage : Nat)
  | start
  | stop
  /-- Start if stopped, stop if playing. -/
  | toggle
  | reset
  | setVolume (gain : γ)
  | shutdown
deriving Repr

end Chiptune
