import Chiptune.Proofs.Sounding

/-!
From the notation to the sample: a rig that is paused and goes on, any number of times.

Main statement: every note begins once, at the sample nearest to the clock time at which playing
reaches it, unless a pause comes between its time and its sample.  The pause drops such a note, since
its stamp has not been played, and playing does not come back to it, since its time has.
-/
namespace Chiptune

variable {γ : Type} [Scalar γ] [Narrowing Rat γ] [Waveform γ]

namespace Recital

variable {recital : Recital γ} {fresh : Sequencer Rat γ} {song : Composition Rat γ}
  {rate : Nat} {handed : Role → List (Occurrence γ)}

/-- However starts, stops, ticks and buffers follow each other. -/
theorem Sounds.run [Tuning Rat] (soundtrack : Soundtrack) {limit : Rat} (beats : List Beat)
    (h : recital.Sounds fresh song rate handed) (hrate : 0 < rate) (htimed : song.WellTimed)
    (hloop : 0 < song.loopLength)
    (hstarts : ∀ role, ∀ event ∈ song.tracks.get role, event.start < song.loopLength)
    (hlimit : limit = min fresh.scheduler.lookahead song.loopLength)
    (hcounter : recital.rig.sink.counter +
      (beats.map (Beat.frames recital.rig.sink.speakers)).sum < 2 ^ 64)
    (hadmits : recital.Admits soundtrack limit beats) :
    ∃ later, (recital.run soundtrack beats).Sounds fresh song rate later := by
  induction beats generalizing recital handed with
  | nil => exact ⟨handed, h⟩
  | cons beat rest ih =>
      obtain ⟨hallows, hrest⟩ := hadmits
      obtain ⟨hnow, hfits⟩ := fits_step soundtrack hcounter
      have hresume : ∀ role, ∀ o ∈ song.timeline role ⌊recital.watch.played / song.loopLength⌋₊,
          song.timeOf o < recital.watch.played :=
        fun role o ho => Composition.timeOf_lt_of_mem hloop hstarts h.follows.keeps.nonneg ho
      obtain ⟨later, hlater⟩ := h.step soundtrack hrate htimed hloop hlimit
        (fun _ _ => hresume) hnow hallows
      exact ih hlater hfits hrest

/-- Pause and resume over an output.  A new rig loads a song whose events begin before the end of its
loop, and then starts, stops, ticks and fills buffers in any order, with ticks at the pace of the
lookahead and the loop while it plays, and the counter does not go round.  On every channel it then has
begun, each once and at its sample, the notes of the track whose sample has been played, except those
that a pause has cut off. -/
theorem onsets_unless_cut [Tuning Rat] (soundtrack : Soundtrack) (id : Nat)
    (texts : PerRole String) (lookahead : Rat) (volume : γ) (mix : PerRole γ)
    (rate speakers slots first : Nat) (beats : List Beat)
    (hsong : soundtrack.song id = some texts)
    (hloop : 0 < (Composition.compile id texts : Composition Rat γ).loopLength)
    (hstarts : ∀ role, ∀ event ∈
      (Composition.compile id texts : Composition Rat γ).tracks.get role,
      event.start < (Composition.compile id texts : Composition Rat γ).loopLength)
    (hrate : 0 < rate) (hcounter : first + (beats.map (Beat.frames speakers)).sum < 2 ^ 64)
    (hadmits : (opened soundtrack id lookahead volume mix rate speakers slots first).Admits
      soundtrack (min lookahead (Composition.compile id texts : Composition Rat γ).loopLength)
      beats) :
    let song : Composition Rat γ := Composition.compile id texts
    let fresh : Sequencer Rat γ := .initial lookahead volume mix
    let recital := (opened soundtrack id lookahead volume mix rate speakers slots first).run
      soundtrack beats
    ∀ role, ∃ begun, recital.Begun fresh song rate first role begun := by
  intro song fresh recital role
  have htimed : song.WellTimed := Composition.wellTimed_compile id texts
  have hopened : (opened soundtrack id lookahead volume mix rate speakers slots first).Sounds
      fresh song rate fun _ => [] :=
    sounds_opened hsong hloop lookahead volume mix speakers slots (by omega)
  have hheard := hears_opened hsong lookahead volume mix rate speakers slots first
  have hfits : (opened soundtrack id lookahead volume mix rate speakers slots first).rig.sink.counter +
      (beats.map (Beat.frames (opened soundtrack id lookahead volume mix rate speakers slots
        first).rig.sink.speakers)).sum < 2 ^ 64 := by
    rw [sink_opened hsong]
    exact hcounter
  obtain ⟨handed, hsounds⟩ := hopened.run soundtrack beats hrate htimed hloop hstarts rfl hfits hadmits
  exact ⟨_, hsounds.begun (hears_run soundtrack beats hheard hfits) hrate htimed hloop role⟩

open Octaves Curves in
/-- The first of two pauses cuts off the second note.  The second pause does no harm, and the next
note comes three samples late, as long as the rig stood still. -/
theorem onsets_unless_cut_over_two_pauses :
    let texts : PerRole String := ⟨"a8 r a", "", "", ""⟩
    let soundtrack : Soundtrack := ⟨fun _ => some texts, fun _ => none, id⟩
    let song : Composition Rat Rat := .compile 0 texts
    let fresh : Sequencer Rat Rat := .initial (2 / 5) 1 (.replicate 1)
    let beats : List Beat := [.cue .start, .cue .tick, .buffer 4, .cue .tick, .buffer 4, .cue .stop,
      .buffer 3, .cue .start, .cue .tick, .buffer 2, .cue .stop, .cue .start, .cue .tick, .buffer 4]
    let before : Recital Rat := opened soundtrack 0 (2 / 5) 1 (.replicate 1) 10 1 16 0
    let recital := before.run soundtrack beats
    (0 < song.loopLength ∧
      (∀ role, ∀ event ∈ song.tracks.get role, event.start < song.loopLength) ∧
      before.Admits soundtrack (min (2 / 5) song.loopLength) beats) ∧
    (∀ role, ∃ begun, recital.Begun fresh song 10 0 role begun) ∧
    recital.onsets.map Onset.sample = [0, 16] ∧ recital.cuts = [8, 13] ∧
    recital.rig.sink.renderer.channels.toList.map Channel.frequency = [440, 0, 0, 0] := by
  intro texts soundtrack song fresh beats before recital
  have hloop : 0 < song.loopLength := by decide +kernel
  have hstarts : ∀ role, ∀ event ∈ song.tracks.get role, event.start < song.loopLength := by
    intro role
    cases role <;> decide +kernel
  have hadmits : before.Admits soundtrack (min (2 / 5) song.loopLength) beats := by
    decide +kernel
  have hbegun := onsets_unless_cut soundtrack 0 texts (2 / 5) 1 (.replicate 1) 10 1 16 0 beats rfl
    hloop hstarts (by decide) (by decide) hadmits
  exact ⟨⟨hloop, hstarts, hadmits⟩, hbegun, by decide +kernel, by decide +kernel, by decide +kernel⟩

open Octaves Curves in
/-- A note half a sample before a pause is lost: its time lies more than a sample behind the time
played, and it has never begun. -/
theorem onset_lost_to_pause :
    let texts : PerRole String := ⟨"t80 l4 r a", "", "", ""⟩
    let soundtrack : Soundtrack := ⟨fun _ => some texts, fun _ => none, id⟩
    let song : Composition Rat Rat := .compile 0 texts
    let beats : List Beat := [.cue .start, .cue .tick, .buffer 8, .cue .stop, .cue .start, .cue .tick,
      .buffer 1]
    let before : Recital Rat := opened soundtrack 0 1 (1 / 2) (.replicate 1) 10 1 64 0
    let recital := before.run soundtrack beats
    (0 < song.loopLength ∧
      (∀ role, ∀ event ∈ song.tracks.get role, event.start < song.loopLength) ∧
      before.Admits soundtrack (min 1 song.loopLength) beats) ∧
    ∃ o ∈ song.timeline .lead 1,
      song.timeOf o + 1 / 10 ≤ recital.watch.played ∧ recital.onsets = [] := by
  intro texts soundtrack song beats before recital
  have hloop : 0 < song.loopLength := by decide +kernel
  have hstarts : ∀ role, ∀ event ∈ song.tracks.get role, event.start < song.loopLength := by
    intro role
    cases role <;> decide +kernel
  have hadmits : before.Admits soundtrack (min 1 song.loopLength) beats := by
    decide +kernel
  have hlost : ∃ o ∈ song.timeline .lead 1,
      song.timeOf o + 1 / 10 ≤ recital.watch.played ∧ recital.onsets = [] := by
    decide +kernel
  exact ⟨⟨hloop, hstarts, hadmits⟩, hlost⟩

end Recital

end Chiptune
