import Chiptune.Sequencer
import Chiptune.Synth.Output

/-!
A player is a sequencer together with the sink that it plays to.  A rig is a player on an output: it
runs on the clock that counts the samples of the output and feeds its queue.
-/
namespace Chiptune

structure Player (σ τ γ : Type) where
  sequencer : Sequencer τ γ
  sink : σ

/-- What an operation of a player answers, the lines for the log, and the player after it. -/
structure Played (σ τ γ α : Type) where
  answer : α
  notices : List (Notice τ γ)
  player : Player σ τ γ

namespace Player

variable {σ τ γ : Type} [Scalar τ] [Scalar γ] [Sink σ τ γ]

/-- Passes the effects of an operation of the sequencer on to the sink. -/
def settle {α : Type} (player : Player σ τ γ) (performed : Performed τ γ α) : Played σ τ γ α :=
  let (notices, sink) := Sink.hearAll player.sink performed.effects
  ⟨performed.answer, notices, ⟨performed.sequencer, sink⟩⟩

def perform [Tuning τ] (player : Player σ τ γ) (soundtrack : Soundtrack) (now : τ)
    (request : Request γ) : Played σ τ γ (Reply τ) :=
  player.settle (player.sequencer.perform soundtrack now request)

end Player

/-- A player on an output. -/
abbrev Rig (τ γ : Type) : Type := Player (Output τ γ) τ γ

namespace Rig

variable {τ γ : Type} [Scalar τ] [Scalar γ]

def now (rig : Rig τ γ) : τ := rig.sink.clock.now

/-- Performs an operation at the time that the output has played. -/
def request [Tuning τ] (rig : Rig τ γ) (soundtrack : Soundtrack) (request : Request γ) :
    Played (Output τ γ) τ γ (Reply τ) :=
  rig.perform soundtrack rig.now request

def play [Narrowing τ γ] [Waveform γ] (rig : Rig τ γ) (size : Nat) : List γ × Rig τ γ :=
  let (samples, output) := rig.sink.play size
  (samples, { rig with sink := output })

end Rig

end Chiptune
