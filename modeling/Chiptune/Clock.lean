import Chiptune.Scalar.Basic

/-!
Sources of the time line, in seconds.  All scheduling is relative to one of these clocks, so that a
sink can place notes exactly.
-/
namespace Chiptune

/-- A clock that moves only when told to. -/
structure ManualClock (τ : Type) where
  now : τ

def ManualClock.advance {τ : Type} [Add τ] (clock : ManualClock τ) (seconds : τ) : ManualClock τ :=
  ⟨clock.now + seconds⟩

/-- Counts the samples played so far, in 64 bits. -/
structure SampleClock where
  /-- Samples per second. -/
  rate : Nat
  counter : Nat

namespace SampleClock

/-- Counters go round after `2 ^ 64` samples. -/
def after (counter samples : Nat) : Nat := (counter + samples) % (maxCount + 1)

def advance (clock : SampleClock) (samples : Nat) : SampleClock :=
  { clock with counter := after clock.counter samples }

/-- Seconds that the counted samples last. -/
def now {τ : Type} [Scalar τ] (clock : SampleClock) : τ :=
  (clock.counter : τ) / (clock.rate : τ)

end SampleClock

/-- Seconds between two readings of a counter of nanoseconds: the whole seconds and the part. -/
def secondsBetween {τ : Type} [Scalar τ] (origin reading : Nat) : τ :=
  let elapsed := reading - origin
  (elapsed / 1000000000 : Nat) + (elapsed % 1000000000 : Nat) / (1000000000 : Nat)

end Chiptune
