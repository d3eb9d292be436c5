import Chiptune.Proofs.NoteOns
import Chiptune.Proofs.Samples

/-!
A rig on its way through a song: cues and buffers in any order, with a stopwatch beside it and a
record of the notes it has begun and of the samples at which it has cut its channels.

A run is allowed as long as no note is dropped for want of room and ticks keep pace with the buffers.

Main statement: as long as the counter does not go round, every channel is what it becomes if it begins
the notes of its part on record, each at its sample, and is cut as the record says.
-/
namespace Chiptune

variable {γ : Type}

inductive Beat where
  | cue (cue : Cue)
  /-- A buffer of some size is filled. -/
  | buffer (size : Nat)

def Beat.frames (speakers : Nat) : Beat → Nat
  | .cue _ => 0
  | .buffer size => size / max speakers 1

/-- A rig with a stopwatch beside it, the notes it has begun, and the samples at which it has cut its
channels. -/
structure Recital (γ : Type) where
  rig : Rig Rat γ
  onsets : List (Onset Rat γ)
  cuts : List Nat
  watch : Stopwatch

def Notice.isQueueFull {τ γ : Type} : Notice τ γ → Bool
  | .queueFull => true
  | _ => false

instance {τ γ : Type} (notices : List (Notice τ γ)) : Decidable (.queueFull ∈ notices) :=
  decidable_of_iff (∃ notice ∈ notices, notice.isQueueFull = true) (by
    constructor
    · rintro ⟨notice, hmem, hfull⟩
      cases notice <;> simp_all [Notice.isQueueFull]
    · exact fun hmem => ⟨_, hmem, rfl⟩)

/-- A silence from now on is stamped with the sample that comes next. -/
theorem Output.toSamples_now {output : Output Rat γ} (hrate : 0 < output.rate)
    (hcounter : output.counter < 2 ^ 64) :
    output.toSamples output.clock.now = output.counter := by
  have hrate' : (output.rate : Rat) ≠ 0 := Nat.cast_ne_zero.mpr hrate.ne'
  change exactCount ((output.counter : Rat) / output.rate * output.rate) = output.counter
  rw [div_mul_cancel₀ _ hrate', exactCount_eq, nearest_natCast, maxCount]
  omega

namespace Recital

variable [Scalar γ]

def playing (recital : Recital γ) : Bool := recital.rig.sequencer.playing

def frames (recital : Recital γ) (size : Nat) : Nat := recital.rig.sink.framesIn size

def seconds (recital : Recital γ) (size : Nat) : Rat :=
  recital.frames size / recital.rig.sink.rate

def opened [Tuning Rat] (soundtrack : Soundtrack) (id : Nat) (lookahead : Rat) (volume : γ)
    (mix : PerRole γ) (rate speakers slots counter : Nat) : Recital γ where
  rig := (Rig.request ⟨.initial lookahead volume mix, .initial rate speakers slots counter⟩ soundtrack
    (.load id)).player
  onsets := []
  cuts := []
  watch := .initial

/-- A request only adds to the queue. -/
theorem sink_request [Tuning Rat] (soundtrack : Soundtrack) (rig : Rig Rat γ) (request : Request γ) :
    ∃ messages, (rig.request soundtrack request).player.sink = rig.sink.queued messages := by
  obtain ⟨messages, -, hsink⟩ := Output.hearAll_sublist
    (rig.sequencer.perform soundtrack rig.now request).effects rig.sink
  exact ⟨messages, hsink⟩

variable [Narrowing Rat γ] [Waveform γ]

def step [Tuning Rat] (soundtrack : Soundtrack) (recital : Recital γ) : Beat → Recital γ
  | .cue cue =>
    let rig := (recital.rig.request soundtrack cue.request).player
    { recital with
      rig
      watch :=
        recital.watch.heard cue recital.playing rig.sequencer.playing recital.rig.now }
  | .buffer size =>
    let take := (recital.rig.sink.playFrames (recital.frames size)).1
    { rig := (recital.rig.play size).2
      onsets := recital.onsets ++ take.onsets.toList
      cuts := recital.cuts ++ recital.rig.sink.cutsAhead
      watch := recital.watch.run recital.playing (recital.seconds size) }

def run [Tuning Rat] (soundtrack : Soundtrack) (recital : Recital γ) (beats : List Beat) :
    Recital γ :=
  beats.foldl (step soundtrack) recital

/-- Nothing finds the queue full, the list of the renderer is never full, and ticks keep pace with the
buffers. -/
def Allows [Tuning Rat] (soundtrack : Soundtrack) (limit : Rat) (recital : Recital γ) : Beat → Prop
  | .cue cue => .queueFull ∉ (recital.rig.request soundtrack cue.request).notices
  | .buffer size =>
    recital.rig.sink.renderer.Roomy recital.rig.sink.queue ∧
      recital.watch.Allows recital.playing limit (recital.seconds size)

instance [Tuning Rat] (soundtrack : Soundtrack) (limit : Rat) (recital : Recital γ) (beat : Beat) :
    Decidable (recital.Allows soundtrack limit beat) :=
  match beat with
  | .cue cue => inferInstanceAs
      (Decidable (.queueFull ∉ (recital.rig.request soundtrack cue.request).notices))
  | .buffer size => inferInstanceAs
      (Decidable (recital.rig.sink.renderer.Roomy recital.rig.sink.queue ∧
          recital.watch.Allows recital.playing limit (recital.seconds size)))

def Admits [Tuning Rat] (soundtrack : Soundtrack) (limit : Rat) : Recital γ → List Beat → Prop
  | _, [] => True
  | recital, beat :: later =>
    recital.Allows soundtrack limit beat ∧
      (recital.step soundtrack beat).Admits soundtrack limit later

instance decidableAdmits [Tuning Rat] (soundtrack : Soundtrack) (limit : Rat) :
    (recital : Recital γ) → (beats : List Beat) →
      Decidable (recital.Admits soundtrack limit beats)
  | _, [] => .isTrue trivial
  | recital, beat :: later =>
    have := decidableAdmits soundtrack limit (recital.step soundtrack beat) later
    inferInstanceAs (Decidable (recital.Allows soundtrack limit beat ∧
      (recital.step soundtrack beat).Admits soundtrack limit later))

variable [Tuning Rat] {recital : Recital γ}

/-- The counter counts the frames, until it goes round. -/
theorem fits_step (soundtrack : Soundtrack) {beat : Beat} {beats : List Beat}
    (hcounter : recital.rig.sink.counter +
      ((beat :: beats).map (Beat.frames recital.rig.sink.speakers)).sum < 2 ^ 64) :
    recital.rig.sink.counter + beat.frames recital.rig.sink.speakers < 2 ^ 64 ∧
      (recital.step soundtrack beat).rig.sink.counter +
        (beats.map (Beat.frames (recital.step soundtrack beat).rig.sink.speakers)).sum < 2 ^ 64 := by
  rw [List.map_cons, List.sum_cons] at hcounter
  refine ⟨by omega, ?_⟩
  cases beat with
  | cue cue =>
      obtain ⟨messages, hsink⟩ := sink_request soundtrack recital.rig cue.request
      change (recital.rig.request soundtrack cue.request).player.sink.counter + (List.map (Beat.frames
        (recital.rig.request soundtrack cue.request).player.sink.speakers) beats).sum < 2 ^ 64
      rw [hsink]
      simpa [Beat.frames, Output.queued] using hcounter
  | buffer size =>
      change SampleClock.after recital.rig.sink.counter (recital.frames size) +
        (beats.map (Beat.frames recital.rig.sink.speakers)).sum < 2 ^ 64
      have hframes : recital.frames size = Beat.frames recital.rig.sink.speakers (.buffer size) := rfl
      rw [SampleClock.after_of_lt (by omega)]
      omega

/-- What a channel hears is on record. -/
theorem hears_step (soundtrack : Soundtrack) {before : PerRole (Channel γ)} {first : Nat}
    {beat : Beat} (h : recital.rig.sink.Hears before first recital.cuts recital.onsets)
    (hcounter : recital.rig.sink.counter + beat.frames recital.rig.sink.speakers < 2 ^ 64) :
    (recital.step soundtrack beat).rig.sink.Hears before first (recital.step soundtrack beat).cuts
      (recital.step soundtrack beat).onsets := by
  cases beat with
  | cue cue =>
      obtain ⟨messages, hsink⟩ := sink_request soundtrack recital.rig cue.request
      change (recital.rig.request soundtrack cue.request).player.sink.Hears before first recital.cuts
        recital.onsets
      exact hsink ▸ h.queued messages
  | buffer size => exact h.buffer (recital.frames size) hcounter

/-- However cues and buffers follow each other, every channel has begun the notes on record, each at
its sample, and no others. -/
theorem hears_run (soundtrack : Soundtrack) {before : PerRole (Channel γ)} {first : Nat}
    (beats : List Beat) (h : recital.rig.sink.Hears before first recital.cuts recital.onsets)
    (hcounter : recital.rig.sink.counter +
      (beats.map (Beat.frames recital.rig.sink.speakers)).sum < 2 ^ 64) :
    (recital.run soundtrack beats).rig.sink.Hears before first (recital.run soundtrack beats).cuts
      (recital.run soundtrack beats).onsets := by
  induction beats generalizing recital with
  | nil => exact h
  | cons beat later ih =>
      obtain ⟨hnow, hlater⟩ := fits_step soundtrack hcounter
      exact ih (hears_step soundtrack h hnow) hlater

end Recital

namespace Curves

/-- Curves with exact values where a sweep begins, and nowhere else. -/
scoped instance waveform : Waveform Rat := ⟨fun _ => 0, fun _ => 1⟩

end Curves

end Chiptune
