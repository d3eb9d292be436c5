import Chiptune.Role
import Chiptune.Scalar.Basic

/-!
What a user can set.
-/
namespace Chiptune

structure Config (γ : Type) where
  pollIntervalMs : UInt64
  lookaheadMs : UInt64
  masterVolume : γ
  /-- The stage whose song plays first. -/
  startStage : UInt32
  /-- Gain of every part, on top of the volumes of its events. -/
  mix : PerRole γ
  /-- Slots of the queue to the output. -/
  ringCapacity : UInt64
deriving BEq, Repr

namespace Config

variable {τ γ δ : Type} [Scalar τ]

def defaultMix [OfScientific γ] : PerRole γ := ⟨0.10, 0.06, 0.12, 0.15⟩

def initial [OfScientific γ] : Config γ where
  pollIntervalMs := 25
  lookaheadMs := 100
  masterVolume := 0.5
  startStage := 1
  mix := defaultMix
  ringCapacity := 4096

/-- The same settings with every gain changed. -/
def map (f : γ → δ) (config : Config γ) : Config δ :=
  { config with masterVolume := f config.masterVolume, mix := config.mix.map f }

/-- Milliseconds between two wakings of an engine that plays, at least one. -/
def pollInterval (config : Config γ) : UInt64 :=
  if config.pollIntervalMs = 0 then 1 else config.pollIntervalMs

def lookahead (config : Config γ) : τ := (config.lookaheadMs.toNat : τ) / (1000 : Nat)

end Config

end Chiptune
