import Chiptune.Proofs.Sounding

/-!
From the notation to the sample: a rig that plays a song without a pause.

Main statement: every note begins once, at the sample nearest to its time, whatever the sizes of the
buffers and wherever the ticks fall between them.
-/
namespace Chiptune

variable {γ : Type}

/-- What goes on without a pause. -/
def Beat.Continues : Beat → Prop
  | .cue heard => heard = .tick
  | .buffer _ => True

instance : (beat : Beat) → Decidable beat.Continues
  | .cue heard => inferInstanceAs (Decidable (heard = .tick))
  | .buffer _ => .isTrue trivial

/-- An occurrence of a song that plays without a pause from some sample on. -/
def Sequencer.onsetFrom [Scalar γ] (fresh : Sequencer Rat γ) (song : Composition Rat γ)
    (rate first : Nat) (role : Role) (o : Occurrence γ) : Onset Rat γ :=
  ⟨nearest (first + song.timeOf o * rate),
    (fresh.dispatchOf ⟨role, o.event, first / rate + song.timeOf o⟩).stampedAt rate⟩

namespace Recital

variable [Scalar γ]

/-- A rig that has played without a pause since some sample, and has not been silenced. -/
structure Steady (recital : Recital γ) (rate first : Nat) : Prop where
  playing : recital.playing = true
  resumes : recital.watch.resumes = [⟨first / rate, 0⟩]
  pauses : recital.watch.pauses = []
  played : recital.watch.played = recital.rig.now - first / rate
  cuts : recital.cuts = []
  cutsAhead : recital.rig.sink.cutsAhead = []

variable [Narrowing Rat γ] [Waveform γ]

/-- What such a rig has begun of a track: some occurrences, none twice, each at the sample nearest to
its time; and they are those whose sample lies before the next one to be played.  The channel of the
track is what it becomes from silence if it begins each of them at its sample, and nothing else. -/
structure Accurate (recital : Recital γ) (fresh : Sequencer Rat γ) (song : Composition Rat γ)
    (rate first : Nat) (role : Role) (begun : List (Occurrence γ)) : Prop where
  onsets : onsetsOf role recital.onsets = begun.map (fresh.onsetFrom song rate first role)
  nodup : begun.Nodup
  sublist : ∃ cycles, begun.Sublist (song.timeline role cycles)
  mem_iff : ∀ cycles, ∀ o ∈ song.timeline role cycles,
    o ∈ begun ↔ nearest (first + song.timeOf o * rate) < recital.rig.sink.counter
  channel : recital.rig.sink.renderer.channels.get role =
    (Channel.silent role).replay (rate : γ) [] (begun.map (fresh.onsetFrom song rate first role))
      first (recital.rig.sink.counter - first)

variable {recital : Recital γ} {fresh : Sequencer Rat γ} {song : Composition Rat γ}
  {rate first : Nat} {handed : Role → List (Occurrence γ)}

omit [Narrowing Rat γ] [Waveform γ] in
theorem onset_noteOf (hrate : 0 < rate) (htimed : song.WellTimed) (hloop : 0 < song.loopLength)
    {role : Role} {cycles : Nat} {o : Occurrence γ} (ho : o ∈ song.timeline role cycles) :
    (fresh.noteOf song [⟨first / rate, 0⟩] role o).onset rate =
      fresh.onsetFrom song rate first role o := by
  have hrate' : (rate : Rat) ≠ 0 := Nat.cast_ne_zero.mpr hrate.ne'
  have hclock : clockAt [⟨first / rate, 0⟩] (song.timeOf o) = first / rate + song.timeOf o := by
    rw [clockAt, if_pos (htimed.timeOf_nonneg hloop ho), sub_zero]
  have hsample : (first / rate + song.timeOf o : Rat) * rate = first + song.timeOf o * rate := by
    field_simp
  rw [Sequencer.noteOf, hclock, Dispatch.onset, Sequencer.onsetFrom]
  exact congrArg (Onset.mk · _) (congrArg nearest hsample)

/-- Without a pause, what has been played is told by the counter. -/
theorem Steady.accurate (hsteady : recital.Steady rate first)
    (h : recital.Sounds fresh song rate handed)
    (hhears : recital.rig.sink.Hears (.ofRole Channel.silent) first recital.cuts recital.onsets)
    (hrate : 0 < rate) (htimed : song.WellTimed)
    (hloop : 0 < song.loopLength) (role : Role) :
    recital.Accurate fresh song rate first role
      (song.begun rate recital.watch (handed role)) := by
  obtain ⟨honsets, hnodup, ⟨cycles, hsublist⟩, hmem, hchannel⟩ :=
    h.begun hhears hrate htimed hloop role
  have hnotes : (song.begun rate recital.watch (handed role)).map (fun o =>
      (fresh.noteOf song recital.watch.resumes role o).onset rate) =
        (song.begun rate recital.watch (handed role)).map (fresh.onsetFrom song rate first role) := by
    rw [hsteady.resumes]
    exact List.map_congr_left fun o ho => onset_noteOf hrate htimed hloop (hsublist.subset ho)
  refine ⟨honsets.trans hnotes, hnodup, ⟨cycles, hsublist⟩, ?_, ?_⟩
  · intro more o ho
    have hnonneg := htimed.timeOf_nonneg hloop ho
    have hhalf := halfSample_pos hrate
    have hrate' : (rate : Rat) ≠ 0 := Nat.cast_ne_zero.mpr hrate.ne'
    have hsample : (first + song.timeOf o * rate : Rat) = (first / rate + song.timeOf o) * rate := by
      field_simp
    have hnow : recital.rig.now = recital.rig.sink.counter / rate := by
      rw [← h.rate_eq]
      rfl
    have hfirst : (0 : Rat) ≤ first / rate := by positivity
    rw [hmem more o ho, hsteady.pauses, hsteady.played, hnow, hsample,
      nearest_lt_iff hrate (by linarith)]
    constructor
    · rintro ⟨hsounded, _⟩
      linarith
    · intro hlt
      exact ⟨by linarith, fun ⟨_, hpause, _⟩ => List.not_mem_nil hpause⟩
  · rw [hchannel, hnotes, hsteady.cuts, Channel.cutAt_of_not_mem List.not_mem_nil]

/-- A start from rest at the beginning of a song. -/
theorem steady_start [Tuning Rat] (soundtrack : Soundtrack)
    (h : recital.Sounds fresh song rate handed) (hplaying : recital.playing = false)
    (hwatch : recital.watch = .initial) (hcuts : recital.cuts = [])
    (hahead : recital.rig.sink.cutsAhead = [])
    (hroom : .queueFull ∉ (recital.rig.request soundtrack (Cue.request .start)).notices) :
    (recital.step soundtrack (.cue .start)).Steady rate recital.rig.sink.counter := by
  have hnow : (recital.step soundtrack (.cue .start)).rig.now = recital.rig.now :=
    now_queued (sink_cue soundtrack .start hroom)
  have hrig : recital.rig.now = recital.rig.sink.counter / rate := by
    rw [← h.rate_eq]
    rfl
  have hafter : (recital.step soundtrack (.cue .start)).rig.sequencer.playing = true := by
    change (recital.rig.sequencer.start recital.rig.now).sequencer.playing = true
    rw [Sequencer.start_of_resting hplaying h.follows.current]
    rfl
  have hsilence : ∀ time, Effect.silence time ∉
      (recital.rig.sequencer.perform soundtrack recital.rig.now (Cue.request .start)).effects := by
    change ∀ time, Effect.silence time ∉ (recital.rig.sequencer.start recital.rig.now).effects
    rw [Sequencer.start_of_resting hplaying h.follows.current]
    simp
  have hswitch : (recital.step soundtrack (.cue .start)).watch =
      Stopwatch.initial.switch false true recital.rig.now := by
    change recital.watch.switch recital.playing
      (recital.step soundtrack (.cue .start)).rig.sequencer.playing recital.rig.now = _
    rw [hwatch, hplaying, hafter]
  refine ⟨hafter, ?_, ?_, ?_, hcuts, ?_⟩
  · rw [hswitch, hrig]
    rfl
  · rw [hswitch]
    rfl
  · rw [hswitch, hnow, hrig, sub_self]
    rfl
  · rw [sink_cue soundtrack .start hroom]
    exact Output.cutsAhead_queued hahead hsilence

/-- Playing goes on without a pause. -/
theorem Steady.step [Tuning Rat] (soundtrack : Soundtrack) {limit : Rat} {beat : Beat}
    (hsteady : recital.Steady rate first) (h : recital.Sounds fresh song rate handed)
    (hcontinues : beat.Continues)
    (hcounter : recital.rig.sink.counter + beat.frames recital.rig.sink.speakers < 2 ^ 64)
    (hallows : recital.Allows soundtrack limit beat) :
    (recital.step soundtrack beat).Steady rate first := by
  cases beat with
  | cue cue =>
      obtain rfl : cue = .tick := hcontinues
      have hnow : (recital.step soundtrack (.cue .tick)).rig.now = recital.rig.now :=
        now_queued (sink_cue soundtrack .tick hallows)
      refine ⟨?_, hsteady.resumes, hsteady.pauses, hnow ▸ hsteady.played, hsteady.cuts, ?_⟩
      · change (recital.rig.sequencer.tick recital.rig.now).sequencer.playing = true
        rw [Sequencer.tick_of_playing hsteady.playing h.follows.current]
        exact hsteady.playing
      · rw [sink_cue soundtrack .tick hallows]
        refine Output.cutsAhead_queued hsteady.cutsAhead ?_
        change ∀ time, Effect.silence time ∉ (recital.rig.sequencer.tick recital.rig.now).effects
        rw [Sequencer.tick_of_playing hsteady.playing h.follows.current]
        exact Sequencer.silence_not_mem_tickEffects _
  | buffer size =>
      have hlast : recital.rig.sink.counter + recital.frames size < 2 ^ 64 := hcounter
      have hnow := h.now_buffer soundtrack hlast
      refine ⟨hsteady.playing, ?_, ?_, ?_, ?_, rfl⟩
      · exact (Stopwatch.resumes_run ..).trans hsteady.resumes
      · exact (Stopwatch.pauses_run ..).trans hsteady.pauses
      · change (recital.watch.run recital.playing _).played = _
        rw [hnow, hsteady.playing, Stopwatch.run, if_pos rfl]
        dsimp only
        rw [hsteady.played]
        ring
      · change recital.cuts ++ recital.rig.sink.cutsAhead = []
        rw [hsteady.cuts, hsteady.cutsAhead, List.append_nil]

/-- However buffers and ticks follow each other. -/
theorem Steady.run [Tuning Rat] (soundtrack : Soundtrack) {limit : Rat} (beats : List Beat)
    (hsteady : recital.Steady rate first) (h : recital.Sounds fresh song rate handed)
    (hrate : 0 < rate) (htimed : song.WellTimed) (hloop : 0 < song.loopLength)
    (hlimit : limit = min fresh.scheduler.lookahead song.loopLength)
    (hcontinues : ∀ beat ∈ beats, beat.Continues)
    (hcounter : recital.rig.sink.counter +
      (beats.map (Beat.frames recital.rig.sink.speakers)).sum < 2 ^ 64)
    (hadmits : recital.Admits soundtrack limit beats) :
    (recital.run soundtrack beats).Steady rate first ∧
      ∃ later, (recital.run soundtrack beats).Sounds fresh song rate later := by
  induction beats generalizing recital handed with
  | nil => exact ⟨hsteady, handed, h⟩
  | cons beat rest ih =>
      obtain ⟨hallows, hrest⟩ := hadmits
      obtain ⟨hnow, hfits⟩ := fits_step soundtrack hcounter
      have hresume : beat = .cue .start → recital.playing = false →
          ∀ role, ∀ o ∈ song.timeline role ⌊recital.watch.played / song.loopLength⌋₊,
            song.timeOf o < recital.watch.played :=
        fun _ hplaying => absurd (hsteady.playing.symm.trans hplaying) (by simp)
      obtain ⟨later, hlater⟩ := h.step soundtrack hrate htimed hloop hlimit hresume hnow
        hallows
      exact ih (hsteady.step soundtrack h (hcontinues beat List.mem_cons_self) hnow hallows) hlater
        (fun next hnext => hcontinues next (List.mem_cons_of_mem beat hnext)) hfits hrest

/-- Accuracy to the sample.  A new rig loads a song, starts it at some sample and ticks at once; then
buffers of any size and ticks follow each other at the pace of the lookahead and the loop, and the
counter does not go round.  Every channel then has begun the notes of its track whose sample has been
played, each once, at the sample nearest to its time, and nothing else. -/
theorem onsets_sample_accurate [Tuning Rat] (soundtrack : Soundtrack) (id : Nat)
    (texts : PerRole String) (lookahead : Rat) (volume : γ) (mix : PerRole γ)
    (rate speakers slots first : Nat) (beats : List Beat)
    (hsong : soundtrack.song id = some texts)
    (hloop : 0 < (Composition.compile id texts : Composition Rat γ).loopLength)
    (hrate : 0 < rate) (hcounter : first + (beats.map (Beat.frames speakers)).sum < 2 ^ 64)
    (hcontinues : ∀ beat ∈ beats, beat.Continues)
    (hadmits : (opened soundtrack id lookahead volume mix rate speakers slots first).Admits soundtrack
      (min lookahead (Composition.compile id texts : Composition Rat γ).loopLength)
      (.cue .start :: .cue .tick :: beats)) :
    let song : Composition Rat γ := Composition.compile id texts
    let fresh : Sequencer Rat γ := .initial lookahead volume mix
    let recital := (opened soundtrack id lookahead volume mix rate speakers slots first).run
      soundtrack (.cue .start :: .cue .tick :: beats)
    ∀ role, ∃ begun, recital.Accurate fresh song rate first role begun := by
  intro song fresh recital role
  have htimed : song.WellTimed := Composition.wellTimed_compile id texts
  have hopened : (opened soundtrack id lookahead volume mix rate speakers slots first).Sounds fresh
      song rate fun _ => [] :=
    sounds_opened hsong hloop lookahead volume mix speakers slots (by omega)
  have hheard := hears_opened hsong lookahead volume mix rate speakers slots first
  have hsink := sink_opened (γ := γ) hsong lookahead volume mix rate speakers slots first
  have hfits : (opened soundtrack id lookahead volume mix rate speakers slots first).rig.sink.counter +
      ((.cue .start :: .cue .tick :: beats).map (Beat.frames (opened soundtrack id lookahead volume mix
        rate speakers slots first).rig.sink.speakers)).sum < 2 ^ 64 := by
    rw [hsink, List.map_cons, List.map_cons, List.sum_cons, List.sum_cons, Beat.frames, Beat.frames,
      Nat.zero_add, Nat.zero_add]
    exact hcounter
  obtain ⟨hnow, hnext⟩ := fits_step soundtrack hfits
  obtain ⟨hroom, hrest⟩ := hadmits
  have hresting : (opened soundtrack id lookahead volume mix rate speakers slots first).playing =
      false := by
    rw [opened_eq hsong]
    rfl
  have hsteady := steady_start soundtrack hopened hresting rfl rfl (hsink ▸ rfl) hroom
  rw [hsink] at hsteady
  have hbeginning : ∀ role, ∀ o ∈ song.timeline role ⌊(0 : Rat) / song.loopLength⌋₊,
      song.timeOf o < 0 := by
    intro role o ho
    rw [zero_div, Nat.floor_zero] at ho
    exact absurd ho List.not_mem_nil
  obtain ⟨handed, hsounds⟩ := hopened.step soundtrack hrate htimed hloop rfl
    (fun _ _ => hbeginning) hnow hroom
  have hgoes : ∀ beat ∈ (.cue .tick :: beats), beat.Continues := by
    intro beat hbeat
    rcases List.mem_cons.mp hbeat with rfl | hlater
    · exact rfl
    · exact hcontinues beat hlater
  obtain ⟨hend, later, hlater⟩ := hsteady.run soundtrack (.cue .tick :: beats) hsounds hrate htimed
    hloop rfl hgoes hnext hrest
  have hhears := hears_run soundtrack (.cue .start :: .cue .tick :: beats) hheard hfits
  exact ⟨_, hend.accurate hlater hhears hrate htimed hloop role⟩

open Octaves Curves in
/-- A loop of twelve and a half samples whose second note comes between two samples.  The third one
is the first again. -/
theorem onsets_sample_accurate_over_turn :
    let texts : PerRole String := ⟨"a8", "", "r r8 a", ""⟩
    let soundtrack : Soundtrack := ⟨fun _ => some texts, fun _ => none, id⟩
    let song : Composition Rat Rat := .compile 0 texts
    let fresh : Sequencer Rat Rat := .initial (2 / 5) 1 (.replicate 1)
    let beats : List Beat := [.buffer 8, .cue .tick, .buffer 6, .buffer 2, .cue .tick, .cue .tick,
      .buffer 8, .cue .tick, .buffer 8]
    let before : Recital Rat := opened soundtrack 0 (2 / 5) 1 (.replicate 1) 10 2 16 3
    let recital := before.run soundtrack (.cue .start :: .cue .tick :: beats)
    (0 < song.loopLength ∧ (∀ beat ∈ beats, beat.Continues) ∧
      before.Admits soundtrack (min (2 / 5) song.loopLength)
        (.cue .start :: .cue .tick :: beats)) ∧
    (∀ role, ∃ begun, recital.Accurate fresh song 10 3 role begun) ∧
    recital.onsets.map (fun onset => (onset.note.role, onset.sample)) =
      [(.lead, 3), (.bass, 11), (.lead, 16)] ∧
    recital.rig.sink.renderer.channels.toList.map Channel.frequency = [440, 0, 440, 0] := by
  intro texts soundtrack song fresh beats before recital
  have hloop : 0 < song.loopLength := by decide +kernel
  have hcontinues : ∀ beat ∈ beats, beat.Continues := by decide +kernel
  have hadmits : before.Admits soundtrack (min (2 / 5) song.loopLength)
      (.cue .start :: .cue .tick :: beats) := by
    decide +kernel
  have haccurate := onsets_sample_accurate soundtrack 0 texts (2 / 5) 1 (.replicate 1) 10 2 16 3
    beats rfl hloop (by decide) (by decide) hcontinues hadmits
  exact ⟨⟨hloop, hcontinues, hadmits⟩, haccurate, by decide +kernel, by decide +kernel⟩

open Octaves Curves in
/-- A song that starts with the last sample that the counter counts.  The stamp of its note cannot be
told from that of this sample, and so the note begins two samples early. -/
theorem onset_early_at_last_count :
    let texts : PerRole String := ⟨"r8 a", "", "", ""⟩
    let soundtrack : Soundtrack := ⟨fun _ => some texts, fun _ => none, id⟩
    let song : Composition Rat Rat := .compile 0 texts
    let fresh : Sequencer Rat Rat := .initial (1 / 2) 1 (.replicate 1)
    let before : Recital Rat := opened soundtrack 0 (1 / 2) 1 (.replicate 1) 8 1 16 maxCount
    let recital := before.run soundtrack [.cue .start, .cue .tick, .buffer 1]
    (0 < song.loopLength ∧
      before.Admits soundtrack (min (1 / 2) song.loopLength)
        [.cue .start, .cue .tick, .buffer 1]) ∧
    (song.timeline .lead 1).map (fun o => nearest (maxCount + song.timeOf o * 8)) =
      [maxCount + 2] ∧
    recital.onsets.map Onset.sample = [maxCount] ∧
    recital.rig.sink.renderer.channels.lead.frequency = 440 ∧
    ¬ ∃ begun, recital.Accurate fresh song 8 maxCount .lead begun := by
  intro texts soundtrack song fresh before recital
  have hloop : 0 < song.loopLength := by decide +kernel
  have hadmits : before.Admits soundtrack (min (1 / 2) song.loopLength)
      [.cue .start, .cue .tick, .buffer 1] := by
    decide +kernel
  have honsets : (onsetsOf .lead recital.onsets).length = 1 := by decide +kernel
  have hcounter : recital.rig.sink.counter = 0 := by decide +kernel
  refine ⟨⟨hloop, hadmits⟩, by decide +kernel, by decide +kernel, by decide +kernel, ?_⟩
  rintro ⟨begun, haccurate⟩
  have hnone : begun = [] := by
    refine List.eq_nil_iff_forall_not_mem.mpr fun o ho => ?_
    obtain ⟨cycles, hsublist⟩ := haccurate.sublist
    have hlt := (haccurate.mem_iff cycles o (hsublist.subset ho)).mp ho
    exact absurd (hcounter ▸ hlt) (Nat.not_lt_zero _)
  rw [haccurate.onsets, hnone] at honsets
  exact absurd honsets (by decide)

end Recital

end Chiptune
