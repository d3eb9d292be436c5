import Chiptune.Scalar.Basic

/-!
Linear envelopes.  A triggered note rises to full level, falls to the sustain level and holds it;
released, it fades from the level it had.
-/
namespace Chiptune

/-- The shape of an envelope: three times in seconds and the level that is held. -/
structure Adsr (γ : Type) where
  attack : γ
  decay : γ
  sustain : γ
  release : γ
deriving Repr

/-- Where an envelope stands, with the seconds spent there. -/
inductive Stage (γ : Type) where
  | idle
  | attack (time : γ)
  | decay (time : γ)
  | sustain
  /-- Fading from a level. -/
  | release (time origin : γ)
deriving Repr

structure Envelope (γ : Type) where
  stage : Stage γ
  /-- The level of the last sample. -/
  level : γ
deriving Repr

namespace Envelope

variable {γ : Type} [Scalar γ]

def idle : Envelope γ := ⟨.idle, 0⟩

def isIdle (envelope : Envelope γ) : Bool :=
  match envelope.stage with
  | .idle => true
  | _ => false

/-- Begins a note, from whatever stage. -/
def trigger (envelope : Envelope γ) : Envelope γ := { envelope with stage := .attack 0 }

/-- Lets a note fade from the level it has.  A note that fades already goes on fading. -/
def release (envelope : Envelope γ) : Envelope γ :=
  match envelope.stage with
  | .idle | .release _ _ => envelope
  | .attack _ | .decay _ | .sustain => { envelope with stage := .release 0 envelope.level }

/-- The part of a segment that has passed, at most one; a segment without length is over at once. -/
@[specialize] def progress (time length : γ) : γ :=
  if length == 0 then 1 else Scalar.atMost 1 (time / length)

@[specialize] def levelAt (adsr : Adsr γ) : Stage γ → γ
  | .idle => 0
  | .attack time => progress time adsr.attack
  | .decay time => 1 - (1 - adsr.sustain) * progress time adsr.decay
  | .sustain => adsr.sustain
  | .release time origin => origin * (1 - progress time adsr.release)

/-- Moves on in time; a segment that is over gives way to the next. -/
@[specialize] def advance (adsr : Adsr γ) (dt : γ) : Stage γ → Stage γ
  | .idle => .idle
  | .attack time => if adsr.attack ≤ time + dt then .decay 0 else .attack (time + dt)
  | .decay time => if adsr.decay ≤ time + dt then .sustain else .decay (time + dt)
  | .sustain => .sustain
  | .release time origin =>
    if adsr.release ≤ time + dt then .idle else .release (time + dt) origin

/-- Takes the level of the current sample and moves on by `dt` seconds. -/
@[specialize] def next (envelope : Envelope γ) (adsr : Adsr γ) (dt : γ) : Envelope γ :=
  ⟨advance adsr dt envelope.stage, levelAt adsr envelope.stage⟩

end Envelope

end Chiptune
