import Chiptune.Proofs.Operations
import Chiptune.Proofs.Playheads

/-!
What holds of a sequencer after any requests, whatever the clock shows and however numbers are rounded.

Main statement: the current song is what its number compiles to, only a song plays, and every playhead
is inside its track.
-/
namespace Chiptune

variable {τ γ : Type} [Scalar τ] [Scalar γ] [Tuning τ]

namespace Sequencer

def performAll (sequencer : Sequencer τ γ) (soundtrack : Soundtrack)
    (requests : List (τ × Request γ)) : Sequencer τ γ :=
  requests.foldl (fun sequencer timed =>
    (sequencer.perform soundtrack timed.1 timed.2).sequencer) sequencer

/-- The current song, the transport and the playheads of a sequencer fit together. -/
structure Coherent (sequencer : Sequencer τ γ) (soundtrack : Soundtrack) : Prop where
  compiled : ∀ song ∈ sequencer.current, ∃ texts, soundtrack.song song.id = some texts ∧
    song = Composition.compile song.id texts
  loaded : sequencer.playing = true → ∃ song, sequencer.current = some song
  top : sequencer.current = none → ∀ role, sequencer.scheduler.heads.get role = .top
  valid : ∀ song ∈ sequencer.current, ∀ role,
    (sequencer.scheduler.heads.get role).Valid (song.tracks.get role).length

variable {sequencer : Sequencer τ γ} {soundtrack : Soundtrack}

theorem coherent_initial (lookahead : τ) (volume : γ) (mix : PerRole γ) :
    (initial lookahead volume mix).Coherent soundtrack where
  compiled := by simp [initial]
  loaded hplaying := by simp [initial, playing, Transport.initial] at hplaying
  top _ role := PerRole.get_replicate _ role
  valid := by simp [initial]

/-- What one request keeps. -/
theorem Coherent.perform (h : sequencer.Coherent soundtrack) (now : τ) (request : Request γ) :
    (sequencer.perform soundtrack now request).sequencer.Coherent soundtrack := by
  cases transition soundtrack sequencer now request with
  | ignores reply notices hignores hperform =>
      rw [hperform]
      exact h
  | replaces id texts song hrequest hother hsong hcompiled hperform =>
      rw [hperform]
      refine ⟨?_, fun _ => ⟨song, rfl⟩, by simp, fun other _ role => ?_⟩
      · intro other hmem
        obtain rfl : other = Composition.compile id texts :=
          (Option.mem_some.mp hmem).symm.trans hcompiled
        exact ⟨texts, hsong, rfl⟩
      · exact Scheduler.valid_rewind sequencer.scheduler other role
  | begins song position hrequest hrests hcurrent hposition hperform =>
      rw [hperform]
      refine ⟨h.compiled, fun _ => ⟨song, hcurrent⟩, by simp [hcurrent], fun other hother role => ?_⟩
      obtain rfl : song = other := Option.some.inj (hcurrent.symm.trans hother)
      exact Scheduler.valid_seek sequencer.scheduler song position role
  | pauses position hrequest hplays hposition hperform =>
      rw [hperform]
      exact ⟨h.compiled, fun _ => h.loaded hplays, h.top, h.valid⟩
  | resets hrequest hperform =>
      rw [hperform]
      refine ⟨by simp, fun hplays => by simp [playing] at hplays, fun _ role => ?_, by simp⟩
      exact PerRole.get_replicate _ role
  | adjusts gain hrequest hfinite hperform =>
      rw [hperform]
      exact ⟨h.compiled, h.loaded, h.top, h.valid⟩
  | ticks song tick hrequest hplays hcurrent htick hperform =>
      rw [hperform]
      refine ⟨h.compiled, fun _ => ⟨song, hcurrent⟩, by simp [hcurrent], fun other hother role => ?_⟩
      obtain rfl : song = other := Option.some.inj (hcurrent.symm.trans hother)
      rw [htick]
      exact Scheduler.valid_tick (h.valid song hcurrent) now sequencer.transport.anchor role

/-- What any requests keep. -/
theorem Coherent.performAll (h : sequencer.Coherent soundtrack) (requests : List (τ × Request γ)) :
    (sequencer.performAll soundtrack requests).Coherent soundtrack := by
  induction requests generalizing sequencer with
  | nil => exact h
  | cons timed later ih => exact ih (h.perform timed.1 timed.2)

omit [Tuning τ] in
/-- A tick reports if something plays. -/
theorem isSome_answer_tick (hloaded : sequencer.playing = true → ∃ song, sequencer.current = some song)
    (now : τ) : (sequencer.tick now).answer.isSome = sequencer.playing := by
  cases hplaying : sequencer.playing with
  | false => rw [tick_of_resting hplaying, Option.isSome_none]
  | true =>
      obtain ⟨song, hcurrent⟩ := hloaded hplaying
      rw [tick_of_playing hplaying hcurrent, Option.isSome_some]

/-- The state of a sequencer.  A new sequencer performs any requests at any clock times.  The song
that is current then is what its number compiles to; if the sequencer plays, there is such a song, so
that a tick has something to report exactly while it plays; and every playhead is at the top without
a song, and inside its track with one, with early events only at the end of the track. -/
theorem coherent_performAll (soundtrack : Soundtrack) (lookahead : τ) (volume : γ)
    (mix : PerRole γ) (requests : List (τ × Request γ)) :
    let sequencer := (initial lookahead volume mix).performAll soundtrack requests
    sequencer.Coherent soundtrack ∧
      ∀ now, (sequencer.tick now).answer.isSome = sequencer.playing := by
  intro sequencer
  have hcoherent : sequencer.Coherent soundtrack :=
    (coherent_initial lookahead volume mix).performAll requests
  exact ⟨hcoherent, isSome_answer_tick hcoherent.loaded⟩

end Sequencer

end Chiptune
