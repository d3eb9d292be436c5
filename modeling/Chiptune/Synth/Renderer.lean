import Chiptune.Clock
import Chiptune.Synth.Channel

/-!
The renderer mixes four channels into samples, and holds the notes that have arrived and not yet
begun, sorted by the sample at which they begin.
-/
namespace Chiptune

/-- A note with the sample at which it begins and the number of samples it lasts. -/
structure StampedNote (τ γ : Type) where
  stamp : Nat
  role : Role
  voice : Voice τ
  volume : γ
  samples : Nat
deriving Repr

/-- What travels from the sequencer to the renderer. -/
inductive Message (τ γ : Type) where
  | note (note : StampedNote τ γ)
  /-- Cut every channel, and drop the notes that begin at a sample or later. -/
  | stopAll (stamp : Nat)
deriving Repr

structure Renderer (τ γ : Type) where
  channels : PerRole (Channel γ)
  /-- Notes that have not begun, sorted by stamp. -/
  pending : List (StampedNote τ γ)

def pendingCapacity : Nat := 1024

namespace Renderer

variable {τ γ : Type} [Scalar γ]

def initial : Renderer τ γ := ⟨.ofRole Channel.silent, []⟩

/-- Sorts the notes by stamp; notes of one stamp keep their order. -/
def sort (renderer : Renderer τ γ) : Renderer τ γ :=
  { renderer with pending := renderer.pending.mergeSort fun a b => decide (a.stamp ≤ b.stamp) }

/-- A renderer that takes messages in, and whether a note has come. -/
structure Intake (τ γ : Type) where
  renderer : Renderer τ γ
  arrived : Bool

/-- Takes one message in.  A note that finds no room is dropped. -/
def Intake.accept (intake : Intake τ γ) : Message τ γ → Intake τ γ
  | .note note =>
    if intake.renderer.pending.length < pendingCapacity then
      ⟨{ intake.renderer with pending := intake.renderer.pending ++ [note] }, true⟩
    else intake
  | .stopAll stamp =>
    { intake with
      renderer :=
        { channels := intake.renderer.channels.map Channel.stop
          pending := intake.renderer.pending.filter fun note => decide (note.stamp < stamp) } }

/-- Takes messages in, in the order of their arrival.  The notes are sorted again only if one came. -/
def drain (renderer : Renderer τ γ) (messages : List (Message τ γ)) : Renderer τ γ :=
  let intake := messages.foldl Intake.accept ⟨renderer, false⟩
  if intake.arrived then intake.renderer.sort else intake.renderer

variable [Zero τ] [Narrowing τ γ]

def begin (channels : PerRole (Channel γ)) (note : StampedNote τ γ) : PerRole (Channel γ) :=
  channels.modify note.role fun channel =>
    channel.noteOn note.role note.voice note.volume note.samples

/-- The sum of four samples, held within full level. -/
@[specialize] def mix (samples : PerRole γ) : γ :=
  Scalar.clamp (-1) 1 (samples.toList.foldl (· + ·) 0)

/-- One sample of the mix, the notes that began with it, and the renderer after it. -/
structure Frame (τ γ : Type) where
  sample : γ
  begun : List (StampedNote τ γ)
  renderer : Renderer τ γ

/-- Begins the notes at the front that are due, then takes one sample of every channel. -/
@[specialize] def frame [Waveform γ] (renderer : Renderer τ γ) (rate : γ) (now : Nat) :
    Frame τ γ :=
  let due := renderer.pending.takeWhile fun note => decide (note.stamp ≤ now)
  let rendered := (due.foldl begin renderer.channels).map fun channel => channel.render rate
  { sample := mix (rendered.map Prod.fst)
    begun := due
    renderer := ⟨rendered.map Prod.snd, renderer.pending.drop due.length⟩ }

end Renderer

/-- A note together with the sample at which it began. -/
structure Onset (τ γ : Type) where
  sample : Nat
  note : StampedNote τ γ

/-- Frames in the making: the sample counter, what has been rendered, and the notes begun. -/
structure Take (τ γ : Type) where
  renderer : Renderer τ γ
  counter : Nat
  samples : Array γ
  onsets : Array (Onset τ γ)

namespace Take

variable {τ γ : Type} [Scalar γ] [Zero τ] [Narrowing τ γ] [Waveform γ]

@[specialize] def step (take : Take τ γ) (rate : γ) : Take τ γ :=
  let frame := take.renderer.frame rate take.counter
  { renderer := frame.renderer
    counter := SampleClock.after take.counter 1
    samples := take.samples.push frame.sample
    onsets := take.onsets ++ frame.begun.map (Onset.mk take.counter) }

@[specialize] def frames (take : Take τ γ) (rate : γ) : Nat → Take τ γ
  | 0 => take
  | n + 1 => (take.step rate).frames rate n

end Take

/-- Renders frames from a value of the sample counter on. -/
def Renderer.take {τ γ : Type} [Scalar γ] [Zero τ] [Narrowing τ γ] [Waveform γ]
    (renderer : Renderer τ γ) (rate : γ) (counter frames : Nat) : Take τ γ :=
  Take.frames ⟨renderer, counter, #[], #[]⟩ rate frames

end Chiptune
