import Chiptune.Engine

/-!
Keys that steer a player through the stages of a game.
-/
namespace Chiptune

structure Controls (γ : Type) where
  stage : Nat
  volume : γ

namespace Controls

variable {γ : Type} [Scalar γ]

/-- The commands with which a new stage begins its song from the top. -/
def beginStage (stage : Nat) : List (Command γ) := [.reset, .loadStage stage, .start]

def volumeStep : γ := 0.1

def press (controls : Controls γ) : Char → List (Command γ) × Controls γ
  | ' ' => ([.toggle], controls)
  | 'n' => (beginStage (controls.stage + 1), { controls with stage := controls.stage + 1 })
  | 'r' => (beginStage 1, { controls with stage := 1 })
  | '+' | '=' =>
    let volume := Scalar.atMost 1 (controls.volume + volumeStep)
    ([.setVolume volume], { controls with volume })
  | '-' =>
    let volume := Scalar.atLeast 0 (controls.volume - volumeStep)
    ([.setVolume volume], { controls with volume })
  | 'q' => ([.shutdown], controls)
  | _ => ([], controls)

end Controls

end Chiptune
