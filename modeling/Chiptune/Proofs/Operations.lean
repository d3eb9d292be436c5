import Mathlib
import Chiptune.Sequencer

/-!
What the operations of a sequencer do, case by case.

Main statement: a sequencer either ignores a request, which then says something for the log and
changes nothing, or the request changes song, transport and scheduler in one of six ways.
-/
namespace Chiptune

variable {τ γ : Type} [Scalar τ]

namespace Sequencer

section

variable {sequencer : Sequencer τ γ} {song : Composition τ γ} {now : τ}

theorem start_of_resting (hplaying : sequencer.playing = false)
    (hcurrent : sequencer.current = some song) :
    let position := foldPosition sequencer.transport.saved song.loopLength
    sequencer.start now =
      { answer := ()
        sequencer :=
          { sequencer with
            transport :=
              { sequencer.transport with
                playing := true, anchor := now - position, saved := position }
            scheduler := sequencer.scheduler.seek song position }
        effects := [.notice (.startAsked (.playingFrom position))] } := by
  have htransport : sequencer.transport.playing = false := hplaying
  simp [start, Transport.start, htransport, hcurrent]

theorem start_of_playing (hplaying : sequencer.playing = true) :
    sequencer.start now = ⟨(), sequencer, [.notice (.startAsked .alreadyPlaying)]⟩ := by
  have htransport : sequencer.transport.playing = true := hplaying
  simp [start, Transport.start, htransport]

theorem start_of_empty (hplaying : sequencer.playing = false) (hcurrent : sequencer.current = none) :
    sequencer.start now = ⟨(), sequencer, [.notice (.startAsked .nothingLoaded)]⟩ := by
  obtain ⟨current, transport, scheduler, mix⟩ := sequencer
  obtain rfl : current = none := hcurrent
  have htransport : transport.playing = false := hplaying
  simp [start, Transport.start, htransport]

theorem stop_of_playing (hplaying : sequencer.playing = true)
    (hcurrent : sequencer.current = some song) :
    let position := foldPosition (now - sequencer.transport.anchor) song.loopLength
    sequencer.stop now =
      { answer := ()
        sequencer :=
          { sequencer with
            transport := { sequencer.transport with playing := false, saved := position } }
        effects := [.notice (.stopAsked (.pausedAt position)), .silence now] } := by
  have htransport : sequencer.transport.playing = true := hplaying
  simp [stop, Transport.stop, htransport, hcurrent, StopOutcome.ended]

theorem stop_of_resting (hplaying : sequencer.playing = false) :
    sequencer.stop now = ⟨(), sequencer, [.notice (.stopAsked .alreadyStopped)]⟩ := by
  have htransport : sequencer.transport.playing = false := hplaying
  simp [stop, Transport.stop, htransport, StopOutcome.ended]

variable [Scalar γ]

theorem tick_of_playing (hplaying : sequencer.playing = true)
    (hcurrent : sequencer.current = some song) :
    let tick := sequencer.scheduler.tick song now sequencer.transport.anchor
    sequencer.tick now =
      { answer := some tick.report
        sequencer :=
          { sequencer with
            scheduler := tick.scheduler
            transport := sequencer.transport.rebase tick.report.anchor }
        effects := sequencer.tickEffects tick } := by
  simp [tick, hplaying, hcurrent]

theorem tick_of_resting (hplaying : sequencer.playing = false) :
    sequencer.tick now = ⟨none, sequencer, []⟩ := by
  simp [tick, hplaying]

theorem tick_of_empty (hcurrent : sequencer.current = none) :
    sequencer.tick now = ⟨none, sequencer, []⟩ := by
  simp [tick, hcurrent]

theorem load_current [Tuning τ] {soundtrack : Soundtrack} (hcurrent : sequencer.current = some song)
    (now : τ) :
    sequencer.load soundtrack song.id now =
      ⟨true, sequencer, [.notice (.songAlreadyLoaded song.id)]⟩ := by
  have hsome : sequencer.current.filter (fun other => other.id == song.id) = some song := by
    simp [hcurrent, Option.filter]
  simp [load, Soundtrack.load, hsome, LoadOutcome.notices]

section

variable [Tuning τ] {soundtrack : Soundtrack} {id : Nat}
  (hother : ∀ song ∈ sequencer.current, song.id ≠ id)
include hother

omit [Scalar τ] [Scalar γ] [Tuning τ] in
theorem filter_other : sequencer.current.filter (fun song => song.id == id) = none := by
  rw [Option.filter_eq_none_iff]
  intro song hmem
  simpa using hother song hmem

theorem load_unknown (hsong : soundtrack.song id = none) (now : τ) :
    sequencer.load soundtrack id now = ⟨false, sequencer, [.notice (.songUnknown id)]⟩ := by
  simp [load, Soundtrack.load, filter_other hother, hsong, LoadOutcome.notices]

theorem load_other {texts : PerRole String} (hsong : soundtrack.song id = some texts) (now : τ) :
    let song : Composition τ γ := Composition.compile id texts
    sequencer.load soundtrack id now =
      { answer := true
        sequencer :=
          { sequencer with current := some song, scheduler := sequencer.scheduler.rewind }
        effects := .notice (.songCompiled id song.loopLength song.eventCount) ::
          sequencer.silenceIfPlaying now ++ [.notice (.songLoaded id song.loopLength)] } := by
  simp [load, Soundtrack.load, filter_other hother, hsong, LoadOutcome.notices]

end

end

/-- What a sequencer takes no notice of: the song that it has and songs that do not exist, a start
while it plays or without a song, a stop while it rests, a volume that is not finite, and a tick while
nothing plays. -/
def Ignores [Scalar γ] (sequencer : Sequencer τ γ) (soundtrack : Soundtrack) : Request γ → Prop
  | .load id => (∃ song ∈ sequencer.current, song.id = id) ∨ soundtrack.song id = none
  | .start => sequencer.playing = true ∨ sequencer.current = none
  | .stop => sequencer.playing = false
  | .reset => False
  | .setVolume gain => Scalar.isFinite gain = false
  | .tick => sequencer.playing = false ∨ sequencer.current = none

/-- What a request does to a sequencer at a clock time. -/
inductive Transition [Scalar γ] [Tuning τ] (soundtrack : Soundtrack) (sequencer : Sequencer τ γ)
    (now : τ) (request : Request γ) : Prop where
  | ignores (reply : Reply τ) (notices : List (Notice τ γ))
    (hignores : sequencer.Ignores soundtrack request)
    (hperform : sequencer.perform soundtrack now request =
      ⟨reply, sequencer, notices.map .notice⟩)
  | replaces (id : Nat) (texts : PerRole String) (song : Composition τ γ)
    (hrequest : request = .load id) (hother : ∀ song ∈ sequencer.current, song.id ≠ id)
    (hsong : soundtrack.song id = some texts) (hcompiled : song = Composition.compile id texts)
    (hperform : sequencer.perform soundtrack now request =
      { answer := .found true
        sequencer :=
          { sequencer with current := some song, scheduler := sequencer.scheduler.rewind }
        effects := .notice (.songCompiled id song.loopLength song.eventCount) ::
          sequencer.silenceIfPlaying now ++ [.notice (.songLoaded id song.loopLength)] })
  | begins (song : Composition τ γ) (position : τ) (hrequest : request = .start)
    (hrests : sequencer.playing = false) (hcurrent : sequencer.current = some song)
    (hposition : position = foldPosition sequencer.transport.saved song.loopLength)
    (hperform : sequencer.perform soundtrack now request =
      { answer := .done
        sequencer :=
          { sequencer with
            transport :=
              { sequencer.transport with
                playing := true, anchor := now - position, saved := position }
            scheduler := sequencer.scheduler.seek song position }
        effects := [.notice (.startAsked (.playingFrom position))] })
  | pauses (position : τ) (hrequest : request = .stop) (hplays : sequencer.playing = true)
    (hposition : position = foldPosition (now - sequencer.transport.anchor)
      ((sequencer.current.map Composition.loopLength).getD 0))
    (hperform : sequencer.perform soundtrack now request =
      { answer := .done
        sequencer :=
          { sequencer with
            transport := { sequencer.transport with playing := false, saved := position } }
        effects := [.notice (.stopAsked (.pausedAt position)), .silence now] })
  | resets (hrequest : request = .reset)
    (hperform : sequencer.perform soundtrack now request =
      { answer := .done
        sequencer :=
          { sequencer with
            current := none
            transport := { sequencer.transport with playing := false, anchor := 0, saved := 0 }
            scheduler := sequencer.scheduler.rewind }
        effects := sequencer.silenceIfPlaying now ++ [.notice .transportReset] })
  | adjusts (gain : γ) (hrequest : request = .setVolume gain) (hfinite : Scalar.isFinite gain = true)
    (hperform : sequencer.perform soundtrack now request =
      { answer := .done
        sequencer :=
          { sequencer with
            transport := { sequencer.transport with volume := Scalar.clamp 0 1 gain } }
        effects := [] })
  | ticks (song : Composition τ γ) (tick : Tick τ γ) (hrequest : request = .tick)
    (hplays : sequencer.playing = true) (hcurrent : sequencer.current = some song)
    (htick : tick = sequencer.scheduler.tick song now sequencer.transport.anchor)
    (hperform : sequencer.perform soundtrack now request =
      { answer := .report (some tick.report)
        sequencer :=
          { sequencer with
            scheduler := tick.scheduler
            transport := { sequencer.transport with anchor := tick.report.anchor } }
        effects := sequencer.tickEffects tick })

section

variable [Scalar γ] [Tuning τ] (soundtrack : Soundtrack) (sequencer : Sequencer τ γ) (now : τ)

theorem transition_load (id : Nat) : Transition soundtrack sequencer now (.load id) := by
  by_cases hother : ∀ song ∈ sequencer.current, song.id ≠ id
  · cases hsong : soundtrack.song id with
    | none =>
        refine .ignores (.found false) [.songUnknown id] (.inr hsong) ?_
        rw [perform, load_unknown hother hsong]
        rfl
    | some texts =>
        refine .replaces id texts _ rfl hother hsong rfl ?_
        rw [perform, load_other hother hsong]
        rfl
  · push Not at hother
    obtain ⟨song, hcurrent, rfl⟩ := hother
    refine .ignores (.found true) [.songAlreadyLoaded song.id] (.inl ⟨song, hcurrent, rfl⟩) ?_
    rw [perform, load_current hcurrent]
    rfl

theorem transition_start : Transition soundtrack sequencer now .start := by
  cases hplaying : sequencer.playing with
  | true =>
      refine .ignores .done [.startAsked .alreadyPlaying] (.inl hplaying) ?_
      rw [perform, start_of_playing hplaying]
      rfl
  | false =>
      cases hcurrent : sequencer.current with
      | none =>
          refine .ignores .done [.startAsked .nothingLoaded] (.inr hcurrent) ?_
          rw [perform, start_of_empty hplaying hcurrent]
          rfl
      | some song =>
          refine .begins song _ rfl hplaying hcurrent rfl ?_
          rw [perform, start_of_resting hplaying hcurrent]
          rfl

theorem transition_stop : Transition soundtrack sequencer now .stop := by
  cases hplaying : sequencer.playing with
  | true =>
      have htransport : sequencer.transport.playing = true := hplaying
      refine .pauses _ rfl hplaying rfl ?_
      simp [perform, Performed.map, stop, Transport.stop, htransport, StopOutcome.ended]
  | false =>
      refine .ignores .done [.stopAsked .alreadyStopped] hplaying ?_
      rw [perform, stop_of_resting hplaying]
      rfl

theorem transition_setVolume (gain : γ) : Transition soundtrack sequencer now (.setVolume gain) := by
  cases hfinite : Scalar.isFinite gain with
  | true =>
      refine .adjusts gain rfl hfinite ?_
      simp [perform, Performed.map, setVolume, Transport.setVolume, hfinite]
  | false =>
      refine .ignores .done [] hfinite ?_
      simp [perform, Performed.map, setVolume, Transport.setVolume, hfinite]

theorem transition_tick : Transition soundtrack sequencer now .tick := by
  cases hplaying : sequencer.playing with
  | true =>
      cases hcurrent : sequencer.current with
      | none =>
          refine .ignores (.report none) [] (.inr hcurrent) ?_
          rw [perform, tick_of_empty hcurrent]
          rfl
      | some song =>
          refine .ticks song _ rfl hplaying hcurrent rfl ?_
          rw [perform, tick_of_playing hplaying hcurrent]
          rfl
  | false =>
      refine .ignores (.report none) [] (.inl hplaying) ?_
      rw [perform, tick_of_resting hplaying]
      rfl

/-- Every request is ignored or makes one of the six changes. -/
theorem transition (request : Request γ) : Transition soundtrack sequencer now request := by
  cases request with
  | load id => exact transition_load soundtrack sequencer now id
  | start => exact transition_start soundtrack sequencer now
  | stop => exact transition_stop soundtrack sequencer now
  | reset => exact .resets rfl rfl
  | setVolume gain => exact transition_setVolume soundtrack sequencer now gain
  | tick => exact transition_tick soundtrack sequencer now

end

end Sequencer

end Chiptune
