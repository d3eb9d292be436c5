import Chiptune.Sink
import Chiptune.Synth.Renderer

/-!
The output joins a queue, into which a sequencer puts notes at any time, to a renderer, which empties
it at the beginning of every buffer.

Times become sample numbers as they enter the queue.  The sample counter is read at the beginning
of a buffer and moved on at its end, so the clock that counts samples stands still in between.
-/
namespace Chiptune

structure Output (τ γ : Type) where
  /-- Samples per second. -/
  rate : Nat
  /-- Values per frame in a buffer, one for each speaker. -/
  speakers : Nat
  /-- Slots of the queue. -/
  slots : Nat
  queue : List (Message τ γ)
  renderer : Renderer τ γ
  /-- Samples played, going round after 64 bits. -/
  counter : Nat

namespace Output

variable {τ γ : Type} [Scalar τ] [Scalar γ]

def initial (rate speakers slots counter : Nat) : Output τ γ :=
  ⟨rate, speakers, slots, [], .initial, counter⟩

/-- The clock that counts the samples of an output. -/
def clock (output : Output τ γ) : SampleClock := ⟨output.rate, output.counter⟩

/-- The sample nearest to a time. -/
def toSamples (output : Output τ γ) (seconds : τ) : Nat :=
  Scalar.nearestCount (seconds * (output.rate : τ))

/-- Puts a message at the end of the queue, or drops it if there is no room.  The queue is assumed to
lose nothing that it has taken and to give everything back in the order of its arrival. -/
def push (output : Output τ γ) (message : Message τ γ) : List (Notice τ γ) × Output τ γ :=
  if output.queue.length < output.slots then
    ([], { output with queue := output.queue ++ [message] })
  else ([.queueFull], output)

def stamped (output : Output τ γ) (note : Dispatch τ γ) : StampedNote τ γ where
  stamp := output.toSamples note.start
  role := note.role
  voice := note.voice
  volume := note.volume
  samples := output.toSamples note.duration

instance : Sink (Output τ γ) τ γ where
  dispatch output note := output.push (.note (output.stamped note))
  silence output time := output.push (.stopAll (output.toSamples time))

/-- First part of a buffer: takes in all that the queue holds, what came first before what came later. -/
def drain (output : Output τ γ) : Output τ γ :=
  { output with renderer := output.renderer.drain output.queue, queue := [] }

variable [Narrowing τ γ] [Waveform γ]

/-- Second part of a buffer: renders frames from a counter that was read at its beginning. -/
def render (output : Output τ γ) (counter frames : Nat) : Take τ γ :=
  output.renderer.take (output.rate : γ) counter frames

def finish (output : Output τ γ) (renderer : Renderer τ γ) (frames : Nat) : Output τ γ :=
  { output with renderer, counter := SampleClock.after output.counter frames }

def playFrames (output : Output τ γ) (frames : Nat) : Take τ γ × Output τ γ :=
  let drained := output.drain
  let take := drained.render output.counter frames
  (take, drained.finish take.renderer frames)

def framesIn (output : Output τ γ) (size : Nat) : Nat := size / max output.speakers 1

/-- Fills a buffer of some size.  Every speaker gets the same sample; what is left over after the
last whole frame is silent, and so is a buffer without speakers. -/
def play (output : Output τ γ) (size : Nat) : List γ × Output τ γ :=
  let (take, output) := output.playFrames (output.framesIn size)
  let sounding := take.samples.toList.flatMap (List.replicate output.speakers)
  (sounding ++ List.replicate (size - sounding.length) 0, output)

end Output

end Chiptune
