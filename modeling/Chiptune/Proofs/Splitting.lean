import Chiptune.Proofs.Recital

/-!
The size of the buffers makes no difference.

A buffer takes in the queue once, begins late notes with its first frame, and leaves to the next one the
notes that have not begun, the channels as they sound, and the counter.

Main statement: the frames of one buffer, cut into pieces at any places, are the frames of several
buffers, and both leave the output in the same state.
-/
namespace Chiptune

variable {τ γ : Type}

namespace Take

variable [Scalar γ] [Zero τ] [Narrowing τ γ] [Waveform γ]

theorem frames_add (take : Take τ γ) (rate : γ) (first later : Nat) :
    take.frames rate (first + later) = (take.frames rate first).frames rate later := by
  induction first generalizing take with
  | zero => rw [Nat.zero_add, frames]
  | succ first ih =>
      rw [Nat.add_right_comm, frames, frames]
      exact ih (take.step rate)

theorem size_samples_frames (take : Take τ γ) (rate : γ) (frames : Nat) :
    (take.frames rate frames).samples.size = take.samples.size + frames := by
  induction frames generalizing take with
  | zero => rfl
  | succ frames ih =>
      rw [Take.frames, ih, step, Array.size_push]
      omega

theorem counter_frames (take : Take τ γ) (rate : γ) (frames : Nat)
    (hcounter : take.counter + frames < 2 ^ 64) :
    (take.frames rate frames).counter = take.counter + frames := by
  induction frames generalizing take with
  | zero => rfl
  | succ frames ih =>
      have hstep : (take.step rate).counter = take.counter + 1 :=
        SampleClock.after_of_lt (by omega)
      rw [Take.frames, ih (take.step rate) (by omega), hstep]
      omega

def behind (take first : Take τ γ) : Take τ γ :=
  { take with samples := first.samples ++ take.samples, onsets := first.onsets ++ take.onsets }

theorem step_behind (take first : Take τ γ) (rate : γ) :
    (take.behind first).step rate = (take.step rate).behind first := by
  have honsets (later : List (Onset τ γ)) :
      first.onsets ++ take.onsets ++ later = first.onsets ++ (take.onsets ++ later) :=
    Array.ext' (by simp)
  simp only [step, behind, Array.append_push, honsets]

/-- Frames do not depend on what was rendered before them, except through the channels, the notes
that wait and the counter. -/
theorem frames_behind (take first : Take τ γ) (rate : γ) (frames : Nat) :
    (take.behind first).frames rate frames = (take.frames rate frames).behind first := by
  induction frames generalizing take with
  | zero => rfl
  | succ frames ih =>
      rw [Take.frames, step_behind]
      exact ih (take.step rate)

end Take

theorem Renderer.take_add [Scalar γ] [Zero τ] [Narrowing τ γ] [Waveform γ]
    (renderer : Renderer τ γ) (rate : γ) (counter first later : Nat) :
    renderer.take rate counter (first + later) =
      ((renderer.take rate counter first).renderer.take rate
        (renderer.take rate counter first).counter later).behind
          (renderer.take rate counter first) := by
  have hsplit := Take.frames_add ⟨renderer, counter, #[], #[]⟩ rate first later
  have hfirst : (Take.mk (renderer.take rate counter first).renderer
      (renderer.take rate counter first).counter #[] #[]).behind
        (renderer.take rate counter first) = renderer.take rate counter first := by
    simp [Take.behind]
  rw [take, hsplit, take, ← Take.frames_behind, hfirst]
  rfl

namespace Output

variable [Scalar τ] [Scalar γ] [Narrowing τ γ] [Waveform γ]

theorem playFrames_snd (output : Output τ γ) (frames : Nat) :
    (output.playFrames frames).2 =
      { output with
        queue := []
        renderer := (output.playFrames frames).1.renderer
        counter := SampleClock.after output.counter frames } := rfl

theorem counter_playFrames (output : Output τ γ) (frames : Nat)
    (hcounter : output.counter + frames < 2 ^ 64) :
    (output.playFrames frames).2.counter = output.counter + frames :=
  SampleClock.after_of_lt hcounter

/-- A second buffer finds the queue empty and goes on where the first one ended. -/
theorem playFrames_add (output : Output τ γ) (first later : Nat)
    (hcounter : output.counter + (first + later) < 2 ^ 64) :
    output.playFrames (first + later) =
      let (take, output) := output.playFrames first
      let (rest, output) := output.playFrames later
      (rest.behind take, output) := by
  have hfirst : output.counter + first < 2 ^ 64 := by omega
  have hafter : SampleClock.after output.counter first = output.counter + first :=
    SampleClock.after_of_lt hfirst
  have htake : (output.playFrames first).1.counter = output.counter + first :=
    Take.counter_frames ⟨output.drain.renderer, output.counter, #[], #[]⟩ _ _ hfirst
  have hrest : (output.playFrames (first + later)).1 =
      ((output.playFrames first).2.playFrames later).1.behind (output.playFrames first).1 := by
    have hsplit := Renderer.take_add output.drain.renderer (output.rate : γ) output.counter first
      later
    change _ = Take.behind ((output.playFrames first).2.render
      (SampleClock.after output.counter first) later) _
    rw [hafter, ← htake]
    exact hsplit
  have hcount : SampleClock.after output.counter (first + later) =
      SampleClock.after (SampleClock.after output.counter first) later := by
    rw [hafter, SampleClock.after_of_lt hcounter, SampleClock.after_of_lt (by omega),
      Nat.add_assoc]
  refine Prod.ext hrest ?_
  rw [playFrames_snd, hrest, hcount]
  rfl

/-- A buffer of whole frames has the sample of each frame for every speaker and nothing else. -/
theorem play_frames (output : Output τ γ) (frames : Nat) (hspeakers : 1 ≤ output.speakers) :
    output.play (output.speakers * frames) =
      ((output.playFrames frames).1.samples.toList.flatMap (List.replicate output.speakers),
        (output.playFrames frames).2) := by
  have hframes : output.framesIn (output.speakers * frames) = frames := by
    rw [framesIn, Nat.max_eq_left hspeakers, Nat.mul_div_cancel_left frames hspeakers]
  have hsize : (output.playFrames frames).1.samples.size = frames := by
    exact (Take.size_samples_frames _ _ _).trans (Nat.zero_add frames)
  have hlength : ((output.playFrames frames).1.samples.toList.flatMap
      (List.replicate output.speakers)).length = output.speakers * frames := by
    simp [List.length_flatMap, hsize, Nat.mul_comm]
  have hplay : output.play (output.speakers * frames) =
      ((output.playFrames (output.framesIn (output.speakers * frames))).1.samples.toList.flatMap
        (List.replicate output.speakers) ++ List.replicate (output.speakers * frames -
          ((output.playFrames (output.framesIn (output.speakers * frames))).1.samples.toList.flatMap
            (List.replicate output.speakers)).length) 0,
        (output.playFrames (output.framesIn (output.speakers * frames))).2) := rfl
  rw [hplay, hframes, hlength, Nat.sub_self, List.replicate_zero, List.append_nil]

/-- Fills buffers of some sizes one after another, with nothing put into the queue in between. -/
def playEach (output : Output τ γ) : List Nat → List γ × Output τ γ
  | [] => ([], output)
  | size :: later =>
    let (samples, output) := output.play size
    let (rest, output) := output.playEach later
    (samples ++ rest, output)

/-- Two buffers of whole frames are one. -/
theorem play_add (output : Output τ γ) (first later : Nat) (hspeakers : 1 ≤ output.speakers)
    (hcounter : output.counter + (first + later) < 2 ^ 64) :
    output.play (output.speakers * (first + later)) =
      let (samples, after) := output.play (output.speakers * first)
      let (rest, after) := after.play (output.speakers * later)
      (samples ++ rest, after) := by
  have hlater := play_frames (output.playFrames first).2 later hspeakers
  have hspeakers' : (output.playFrames first).2.speakers = output.speakers := rfl
  rw [hspeakers'] at hlater
  rw [play_frames output _ hspeakers, play_frames output _ hspeakers, playFrames_add _ _ _ hcounter]
  simp only [hlater]
  simp [Take.behind]

/-- Whatever waits in an output, and in whatever order, the whole frames of one buffer can be cut
into any buffers of whole frames: the samples are the same, and so is the state after them. -/
theorem playEach_eq_play (output : Output τ γ) (frames : List Nat) (hframes : frames ≠ [])
    (hspeakers : 1 ≤ output.speakers) (hcounter : output.counter + frames.sum < 2 ^ 64) :
    output.playEach (frames.map (output.speakers * ·)) =
      output.play (output.speakers * frames.sum) := by
  induction frames generalizing output with
  | nil => exact absurd rfl hframes
  | cons first later ih =>
      rw [List.sum_cons] at hcounter ⊢
      rw [List.map_cons, playEach]
      cases later with
      | nil => simp [playEach]
      | cons second rest =>
          have hafter : (output.play (output.speakers * first)).2 =
              (output.playFrames first).2 := by
            rw [play_frames output first hspeakers]
          have hcount := counter_playFrames output first (by omega)
          have hrest := ih (output.playFrames first).2 (List.cons_ne_nil _ _) hspeakers
            (by rw [hcount]; omega)
          rw [play_add output _ _ hspeakers hcounter]
          simp only [hafter]
          rw [show (output.playFrames first).2.speakers = output.speakers from rfl] at hrest
          rw [hrest]

open Curves in
/-- For two speakers, a silence in the queue, and notes out of order in the renderer, one of which
the silence drops and one is late.  One buffer of seven frames is cut into four, one of them
empty. -/
theorem playEach_eq_play_in_four :
    let note (stamp : Nat) (role : Role) : StampedNote Rat Rat := ⟨stamp, role, .tone 440, 1, 2⟩
    let output : Output Rat Rat :=
      { rate := 10
        speakers := 2
        slots := 16
        queue := [.stopAll 8]
        renderer := ⟨.ofRole Channel.silent, [note 7 .harmony, note 3 .lead, note 8 .lead]⟩
        counter := 5 }
    let frames := [3, 0, 1, 3]
    (frames ≠ [] ∧ 1 ≤ output.speakers ∧ output.counter + frames.sum < 2 ^ 64) ∧
      output.playEach [6, 0, 2, 6] = output.play 14 ∧
      (output.play 14).1 = [0, 0, 0, 0, 0, 0, 1, 1, 1, 1, 0, 0, 0, 0] := by
  intro note output frames
  have hframes : frames ≠ [] := by decide
  have hspeakers : 1 ≤ output.speakers := by decide
  have hcounter : output.counter + frames.sum < 2 ^ 64 := by decide
  exact ⟨⟨hframes, hspeakers, hcounter⟩, playEach_eq_play output frames hframes hspeakers hcounter,
    by decide +kernel⟩

end Output

end Chiptune
