import Chiptune.Scalar.Float
import Chiptune.Synth.Instrument

/-!
Monophonic channels.  A note sounds for a number of samples, its gate, and then fades; a new note
replaces whatever was sounding.
-/
namespace Chiptune

/-- The curves that wave forms are made of. -/
class Waveform (γ : Type) where
  /-- The sine of a phase, which counts in turns. -/
  sine : γ → γ
  exp : γ → γ

instance : Waveform Float32 where
  sine phase := (phase * 6.2831855).sin
  exp := Float32.exp

structure Channel (γ : Type) where
  instrument : Instrument γ
  envelope : Envelope γ
  frequency : γ
  /-- Position in the wave, in turns. -/
  phase : γ
  volume : γ
  /-- Samples until the note is released. -/
  gate : Nat
  /-- Seconds since the note began. -/
  elapsed : γ
  /-- Register of the noise generator. -/
  register : BitVec 16
deriving Repr

namespace Channel

variable {τ γ : Type} [Scalar γ]

def silent (role : Role) : Channel γ where
  instrument := .tones role
  envelope := .idle
  frequency := 0
  phase := 0
  volume := 0
  gate := 0
  elapsed := 0
  register := 0xACE1

/-- Begins a note in a part.  The wave goes on from the phase it has. -/
def noteOn [Zero τ] [Narrowing τ γ] (channel : Channel γ) (role : Role) (voice : Voice τ)
    (volume : γ) (samples : Nat) : Channel γ :=
  { channel with
    instrument := .forVoice role voice
    frequency := narrow (voice.frequency?.getD 0)
    volume
    gate := samples
    elapsed := 0
    envelope := channel.envelope.trigger }

/-- Cuts the note short, without fading. -/
def stop (channel : Channel γ) : Channel γ := { channel with envelope := .idle, gate := 0 }

def isActive (channel : Channel γ) : Bool := !channel.envelope.isIdle

/-- The next state of the noise generator, a 16-bit shift register with feedback, and whether its
output is high. -/
def shiftNoise (register : BitVec 16) : Bool × BitVec 16 :=
  let high := register.getLsbD 0
  (high, if high then register >>> 1 ^^^ 0xB400 else register >>> 1)

/-- The value of the wave at a channel's phase, the frequency at which the phase moves on, and the
noise register after it. -/
@[specialize] def wave [Waveform γ] (channel : Channel γ) : γ × γ × BitVec 16 :=
  match channel.instrument.wave with
  | .pulse duty => (if channel.phase < duty then 1 else -1, channel.frequency, channel.register)
  | .triangle =>
    (1 - (4 : Nat) * Scalar.abs (channel.phase - 0.5), channel.frequency, channel.register)
  | .sweep first last rate =>
    (Waveform.sine channel.phase, last + (first - last) * Waveform.exp (-channel.elapsed * rate),
      channel.register)
  | .noise =>
    let (high, register) := shiftNoise channel.register
    (if high then 1 else -1, 0, register)

/-- Moves a phase on by one sample, keeping it in `[0, 1)`.  A frequency that is not finite leaves it
where it is. -/
@[specialize] def movePhase (phase frequency rate : γ) : γ :=
  if Scalar.isFinite frequency then
    let moved := phase + frequency / rate
    moved - Scalar.floor moved
  else phase

/-- Counts the gate down by one sample and releases the note when it has run out. -/
def countGate (channel : Channel γ) : Channel γ :=
  if channel.gate = 0 then { channel with envelope := channel.envelope.release }
  else { channel with gate := channel.gate - 1 }

/-- One sample at a number of samples per second.  An idle channel is silent and does not change. -/
@[specialize] def render [Waveform γ] (channel : Channel γ) (rate : γ) : γ × Channel γ :=
  if channel.isActive then
    let dt := 1 / rate
    let channel := channel.countGate
    let envelope := channel.envelope.next channel.instrument.adsr dt
    let (value, frequency, register) := channel.wave
    (value * envelope.level * channel.volume,
      { channel with
        envelope
        register
        phase := movePhase channel.phase frequency rate
        elapsed := channel.elapsed + dt })
  else (0, channel)

end Channel

end Chiptune
