import Chiptune.Proofs.InFlight
import Chiptune.Proofs.Recital
import Chiptune.Proofs.Requests

/-!
A sequencer that is stopped is silent.

All that waits in a rig is stamped with the sample that comes next or a later one, whatever the order
of requests and buffers.  A silence so drops everything before it, and what comes behind it in the
queue comes from a sequencer that plays.

Main statement: from the first buffer after a stop on and up to the next start nothing waits, every
channel is idle, and every sample is zero.
-/
namespace Chiptune

open Extended

variable {γ : Type}

inductive Input (γ : Type) where
  | request (request : Request γ)
  /-- A buffer of some size is filled. -/
  | buffer (size : Nat)

/-- A rig, and the buffers filled since its sequencer stopped, as long as it is stopped. -/
structure Monitor (γ : Type) where
  rig : Rig Extended γ
  sinceStop : List (List γ)

namespace Monitor

/-- The sequencer is stopped, and a buffer has been filled since it stopped. -/
structure Stopped (monitor : Monitor γ) : Prop where
  rests : monitor.rig.sequencer.playing = false
  buffered : monitor.sinceStop ≠ []

/-- Nothing waits, every channel is idle, and nothing has sounded since the stop. -/
structure Silent [Scalar γ] (monitor : Monitor γ) : Prop where
  pending : monitor.rig.sink.renderer.pending = []
  channels : ∀ role, (monitor.rig.sink.renderer.channels.get role).isActive = false
  samples : ∀ samples ∈ monitor.sinceStop, ∀ sample ∈ samples, sample = 0

variable [Scalar γ]

def opened (lookahead : Extended) (volume : γ) (mix : PerRole γ)
    (rate speakers slots counter : Nat) : Monitor γ :=
  ⟨⟨.initial lookahead volume mix, .initial rate speakers slots counter⟩, []⟩

variable [Tuning Extended] [Narrowing Extended γ] [Waveform γ]

def step (soundtrack : Soundtrack) (monitor : Monitor γ) : Input γ → Monitor γ
  | .request request =>
    let rig := (monitor.rig.request soundtrack request).player
    ⟨rig, if rig.sequencer.playing then [] else monitor.sinceStop⟩
  | .buffer size =>
    let (samples, rig) := monitor.rig.play size
    ⟨rig, if rig.sequencer.playing then [] else monitor.sinceStop ++ [samples]⟩

def run (soundtrack : Soundtrack) (monitor : Monitor γ) (inputs : List (Input γ)) : Monitor γ :=
  inputs.foldl (step soundtrack) monitor

/-- Nothing finds the queue full, and the counter does not go round. -/
def Allows (soundtrack : Soundtrack) (monitor : Monitor γ) : Input γ → Prop
  | .request request => .queueFull ∉ (monitor.rig.request soundtrack request).notices
  | .buffer size => monitor.rig.sink.counter + monitor.rig.sink.framesIn size < 2 ^ 64

instance (soundtrack : Soundtrack) (monitor : Monitor γ) (input : Input γ) :
    Decidable (monitor.Allows soundtrack input) :=
  match input with
  | .request request => inferInstanceAs
      (Decidable (.queueFull ∉ (monitor.rig.request soundtrack request).notices))
  | .buffer size => inferInstanceAs
      (Decidable (monitor.rig.sink.counter + monitor.rig.sink.framesIn size < 2 ^ 64))

/-- All that waits comes next or later, and a stopped sequencer either has put a silence last into the
queue or is silent. -/
structure Hushes (monitor : Monitor γ) : Prop where
  clock : monitor.rig.sequencer.OnClock
  counts : monitor.rig.sink.Counts
  order : InOrder monitor.rig.sink.renderer.pending
  waits : ∀ note ∈ monitor.rig.sink.renderer.pending ++ notesOf monitor.rig.sink.queue,
    monitor.rig.sink.counter ≤ note.stamp ∧ note.stamp ≤ maxCount
  plays : monitor.rig.sequencer.playing = true → monitor.sinceStop = []
  rests : monitor.rig.sequencer.playing = false →
    (monitor.sinceStop = [] ∧ ∃ before stamp, stamp ≤ monitor.rig.sink.counter ∧
      monitor.rig.sink.queue = before ++ [.stopAll stamp]) ∨
    (monitor.rig.sink.queue = [] ∧ monitor.Silent)

variable {monitor : Monitor γ}

omit [Tuning Extended] [Narrowing Extended γ] [Waveform γ] in
theorem hushes_opened (lookahead : Extended) (volume : γ) (mix : PerRole γ) {rate : Nat}
    (speakers slots : Nat) {counter : Nat} (hrate : 0 < rate) (hrate64 : rate < 2 ^ 64)
    (hcounter : counter < 2 ^ 64) :
    (opened lookahead volume mix rate speakers slots counter).Hushes where
  clock := Sequencer.onClock_initial lookahead volume mix
  counts := ⟨hrate, hrate64, hcounter⟩
  order := List.Pairwise.nil
  waits := by simp [opened, Output.initial, Renderer.initial, notesOf_nil]
  plays _ := rfl
  rests _ := by
    refine .inr ⟨rfl, rfl, ?_, by simp [opened]⟩
    intro role
    cases role <;> rfl

theorem Hushes.request (h : monitor.Hushes) (soundtrack : Soundtrack) (request : Request γ)
    (hroom : .queueFull ∉ (monitor.rig.request soundtrack request).notices) :
    (monitor.step soundtrack (.request request)).Hushes := by
  obtain ⟨hclock, messages, hsink, hsends⟩ := Rig.request_sends h.clock h.counts soundtrack request
    hroom
  generalize hafter : (monitor.rig.request soundtrack request).player = after at hclock hsink hsends
  have hstep : monitor.step soundtrack (.request request) =
      ⟨after, if after.sequencer.playing then [] else monitor.sinceStop⟩ := by
    simp only [step, hafter]
  rw [hstep]
  refine
    { clock := hclock
      counts := hsink ▸ ⟨h.counts.rate_pos, h.counts.rate_lt, h.counts.counter_lt⟩
      order := hsink ▸ h.order
      waits := ?_
      plays := fun hplays => if_pos hplays
      rests := ?_ }
  · intro note hnote
    simp only [hsink, Output.queued, notesOf_append, ← List.append_assoc] at hnote ⊢
    rcases List.mem_append.mp hnote with hold | hnew
    · exact h.waits note hold
    · cases hsends with
      | nothing => simp [notesOf_nil] at hnew
      | silence => simp [notesOf_stopAll, notesOf_nil] at hnew
      | notes notes _ _ hstamps => exact hstamps note (by simpa using hnew)
  · intro hrests
    change after.sequencer.playing = false at hrests
    rw [if_neg (by simp [hrests])]
    cases hsends with
    | nothing hrested =>
        have hsame : after.sink = monitor.rig.sink := by
          rw [hsink, Output.queued, List.append_nil]
        rcases h.rests (hrested hrests) with hstopping | ⟨hqueue, hsilent⟩
        · exact .inl (hsame ▸ hstopping)
        · exact .inr ⟨hsame ▸ hqueue, hsame ▸ hsilent.pending, hsame ▸ hsilent.channels,
            hsilent.samples⟩
    | silence hplaying =>
        exact .inl ⟨h.plays hplaying, monitor.rig.sink.queue, monitor.rig.sink.counter,
          (congrArg Output.counter hsink).ge, congrArg Output.queue hsink⟩
    | notes _ _ hstays _ => exact absurd (hstays.symm.trans hrests) (by simp)

omit [Tuning Extended] [Narrowing Extended γ] [Waveform γ] in
/-- A buffer that a stopped sequencer sees begins with nothing to play. -/
theorem Hushes.drain_silent (h : monitor.Hushes)
    (hrests : monitor.rig.sequencer.playing = false) :
    (monitor.rig.sink.drain.renderer.pending = [] ∧
      ∀ role, (monitor.rig.sink.drain.renderer.channels.get role).isActive = false) ∧
      ∀ samples ∈ monitor.sinceStop, ∀ sample ∈ samples, sample = 0 := by
  rcases h.rests hrests with ⟨hsince, before, stamp, hstamp, hqueue⟩ | ⟨hqueue, hsilent⟩
  · refine ⟨Output.drain_silenced hqueue ?_, by simp [hsince]⟩
    intro note hnote
    have hmem : note ∈ monitor.rig.sink.renderer.pending ++ notesOf monitor.rig.sink.queue := by
      simpa [hqueue, notesOf_stopAll, notesOf_nil] using hnote
    exact hstamp.trans (h.waits note hmem).1
  · have hdrain : monitor.rig.sink.drain.renderer = monitor.rig.sink.renderer := by
      simp [Output.drain, hqueue, Renderer.drain]
    rw [hdrain]
    exact ⟨⟨hsilent.pending, hsilent.channels⟩, hsilent.samples⟩

theorem Hushes.buffer (h : monitor.Hushes) (hmix : Renderer.mix (.replicate (0 : γ)) = 0)
    (soundtrack : Soundtrack) (size : Nat)
    (hcounter : monitor.rig.sink.counter + monitor.rig.sink.framesIn size < 2 ^ 64) :
    (monitor.step soundtrack (.buffer size)).Hushes := by
  have hbound : monitor.rig.sink.counter ≤ maxCount := by
    rw [maxCount]
    omega
  have hleaves := Output.playFrames_leaves (monitor.rig.sink.framesIn size) h.order hbound h.waits
  have hafter : (monitor.rig.sink.play size).2.counter =
      monitor.rig.sink.counter + monitor.rig.sink.framesIn size :=
    SampleClock.after_of_lt hcounter
  refine
    { clock := h.clock
      counts := ⟨h.counts.rate_pos, h.counts.rate_lt, hafter ▸ hcounter⟩
      order := hleaves.1
      waits := ?_
      plays := fun hplays => if_pos hplays
      rests := ?_ }
  · intro note hnote
    have hmem : note ∈ (monitor.rig.sink.play size).2.renderer.pending :=
      (List.mem_append.mp hnote).resolve_right (List.not_mem_nil)
    have hstamp := hleaves.2 note hmem
    rw [← hafter] at hstamp
    exact hstamp
  · intro hrests
    obtain ⟨⟨hpending, hidle⟩, hsamples⟩ := h.drain_silent hrests
    obtain ⟨hrenderer, hzero⟩ := Output.play_silent size hmix hpending hidle
    refine .inr ⟨rfl, ?_, ?_, ?_⟩
    · exact (congrArg Renderer.pending hrenderer).trans hpending
    · exact fun role => (congrArg (fun renderer => (renderer.channels.get role).isActive)
        hrenderer).trans (hidle role)
    · have hsince : (monitor.step soundtrack (.buffer size)).sinceStop =
          monitor.sinceStop ++ [(monitor.rig.sink.play size).1] :=
        if_neg (Bool.eq_false_iff.mp hrests)
      rw [hsince]
      intro samples hmem
      rcases List.mem_append.mp hmem with hold | hnew
      · exact hsamples samples hold
      · rw [List.mem_singleton.mp hnew]
        exact hzero

/-- Stopped means silent.  A new sequencer on a new output takes requests and fills buffers in any
order; nothing finds the queue full, and the counter does not go round.  When it is stopped and a
buffer has been filled since it stopped, nothing waits, every channel is idle, and every sample since
the stop is zero.  Of the samples it is asked only that four zeros mix to zero. -/
theorem silent_when_stopped (soundtrack : Soundtrack) (lookahead : Extended) (volume : γ)
    (mix : PerRole γ) (rate speakers slots counter : Nat) (inputs : List (Input γ))
    (hmix : Renderer.mix (.replicate (0 : γ)) = 0) (hrate : 0 < rate) (hrate64 : rate < 2 ^ 64)
    (hcounter : counter < 2 ^ 64)
    (hadmits : Admits (step soundtrack) (Allows soundtrack)
      (opened lookahead volume mix rate speakers slots counter) inputs) :
    let monitor := (opened lookahead volume mix rate speakers slots counter).run soundtrack inputs
    monitor.Stopped → monitor.Silent := by
  intro monitor hstopped
  have hstep (monitor : Monitor γ) (input : Input γ) (h : monitor.Hushes)
      (hallows : monitor.Allows soundtrack input) : (monitor.step soundtrack input).Hushes := by
    cases input with
    | request request => exact h.request soundtrack request hallows
    | buffer size => exact h.buffer hmix soundtrack size hallows
  have hhushes : monitor.Hushes :=
    hadmits.foldl hstep (hushes_opened lookahead volume mix speakers slots hrate hrate64 hcounter)
  rcases hhushes.rests hstopped.rests with ⟨hsince, _⟩ | ⟨_, hsilent⟩
  · exact absurd hsince hstopped.buffered
  · exact hsilent

end Monitor

namespace Curves

/-- Levels are read off fractions only. -/
scoped instance narrowing : Narrowing Extended Rat where
  narrow
    | .finite x => x
    | .infinite _ | .nan => 0

end Curves

namespace Monitor

open Octaves Curves in
/-- A rig that is stopped, started again and stopped once more before the next buffer, while notes of
both starts are in flight. -/
theorem silent_when_stopped_twice :
    let texts : PerRole String := ⟨"a8 r a", "", "", ""⟩
    let soundtrack : Soundtrack := ⟨fun _ => some texts, fun _ => none, id⟩
    let inputs : List (Input Rat) := [.request (.load 0), .request .start, .request .tick, .buffer 4,
      .request .tick, .request .stop, .request .start, .request .tick, .request .stop, .buffer 3,
      .request .tick, .buffer 2]
    let before : Monitor Rat := opened (finite (2 / 5)) 1 (.replicate 1) 10 1 64 0
    let monitor := before.run soundtrack inputs
    (Renderer.mix (.replicate (0 : Rat)) = 0 ∧
      Admits (step soundtrack) (Allows soundtrack) before inputs) ∧
    monitor.Stopped ∧ monitor.sinceStop = [[0, 0, 0], [0, 0]] ∧ monitor.Silent := by
  intro texts soundtrack inputs before monitor
  have hmix : Renderer.mix (.replicate (0 : Rat)) = 0 := by decide +kernel
  have hadmits : Admits (step soundtrack) (Allows soundtrack) before inputs := by decide +kernel
  have hsince : monitor.sinceStop = [[0, 0, 0], [0, 0]] := by decide +kernel
  have hstopped : monitor.Stopped := ⟨by decide +kernel, by simp [hsince]⟩
  have hsilent := silent_when_stopped soundtrack (finite (2 / 5)) 1 (.replicate 1) 10 1 64 0 inputs
    hmix (by decide) (by decide) (by decide) hadmits hstopped
  exact ⟨⟨hmix, hadmits⟩, hstopped, hsince, hsilent⟩

end Monitor

end Chiptune
