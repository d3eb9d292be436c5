import Chiptune.Proofs.Interleaving
import Chiptune.Proofs.Levels

/-!
The mix of a rig never clips, in exact fractions.

Events are compiled at full volume, and a sequencer scales them by the gain of their part and by the
master volume as it hands them out.

Main statement: if the gains of a mix add up to full level at most, then whatever is requested and
played, each channel stays within the gain of its part, and holding the mix within full level changes
nothing.
-/
namespace Chiptune

open Set (Icc)

variable {τ γ : Type} [Scalar τ]

namespace Notation

variable [Scalar γ]

theorem Settings.volume_of_mem_sound {settings : Settings τ} {voice : Option (Voice τ)}
    {length : Option Nat} {event : NoteEvent τ γ}
    (h : event ∈ (settings.sound voice length).1) : event.volume = 1 := by
  obtain ⟨voice, _, rfl⟩ := List.mem_map.mp h
  rfl

variable [Tuning τ]

theorem Settings.volume_of_mem_step {settings : Settings τ} {token : Token} {event : NoteEvent τ γ}
    (h : event ∈ (settings.step token).1) : event.volume = 1 := by
  unfold Settings.step at h
  split at h
  case h_1 | h_2 | h_3 => exact volume_of_mem_sound h
  all_goals simp at h

theorem Settings.volume_of_mem_run {settings : Settings τ} {tokens : List Token}
    {event : NoteEvent τ γ} (h : event ∈ (settings.run tokens).1) : event.volume = 1 := by
  induction tokens generalizing settings with
  | nil => simp [Settings.run] at h
  | cons token rest ih =>
      rcases List.mem_append.mp h with hfirst | hrest
      · exact volume_of_mem_step hfirst
      · exact ih hrest

/-- Every event is compiled at full volume. -/
theorem volume_of_mem_compile {text : String} {event : NoteEvent τ γ}
    (h : event ∈ compile text) : event.volume = 1 :=
  Settings.volume_of_mem_run h

end Notation

/-- Every event of a composition is at full volume. -/
def Composition.FullVolume [Scalar γ] (composition : Composition τ γ) : Prop :=
  ∀ role, ∀ event ∈ composition.tracks.get role, event.volume = 1

theorem Composition.fullVolume_compile [Scalar γ] [Tuning τ] (id : Nat) (texts : PerRole String) :
    (compile id texts : Composition τ γ).FullVolume := by
  intro role event hmem
  rw [compile, PerRole.get_map] at hmem
  exact Notation.volume_of_mem_compile hmem

namespace Scheduler

theorem event_of_mem_pass {role : Role} {events : List (NoteEvent τ γ)} {head : Playhead}
    {now anchor loopLength horizon : τ} {scheduled : Scheduled τ γ}
    (h : scheduled ∈ (pass role events head now anchor loopLength horizon).scheduled) :
    scheduled.event ∈ events := by
  have hwithin {index : Nat} {anchor : τ} {event : NoteEvent τ γ}
      (hmem : event ∈ within events index anchor horizon) : event ∈ events :=
    List.mem_of_mem_drop ((List.takeWhile_sublist _).mem hmem)
  simp only [pass, List.mem_append, List.mem_map] at h
  rcases h with ⟨event, hdue, rfl⟩ | ⟨event, hearly, rfl⟩
  · exact hwithin (List.mem_of_mem_filter hdue)
  · split at hearly
    · exact hwithin hearly
    · simp at hearly

/-- What a tick hands out of a part is in the track of that part. -/
theorem event_of_mem_tick {scheduler : Scheduler τ} {composition : Composition τ γ} {now anchor : τ}
    {scheduled : Scheduled τ γ} (h : scheduled ∈ (scheduler.tick composition now anchor).scheduled) :
    scheduled.event ∈ composition.tracks.get scheduled.role := by
  unfold tick at h
  split at h
  · simp at h
  · obtain ⟨pass, hpass, hmem⟩ := List.mem_flatMap.mp h
    obtain ⟨role, rfl⟩ := PerRole.mem_toList.mp hpass
    rw [passAll, PerRole.get_ofRole] at hmem
    rw [role_of_mem_pass hmem]
    exact event_of_mem_pass hmem

end Scheduler

/-- The volume of a note lies between silence and the gain of its part. -/
def Dispatch.Within (note : Dispatch τ Rat) (gains : PerRole Rat) : Prop :=
  note.volume ∈ Icc 0 (gains.get note.role)

namespace Sequencer

/-- A sequencer with certain gains, a master volume up to full level, and a song at full volume. -/
structure Within (sequencer : Sequencer τ Rat) (gains : PerRole Rat) : Prop where
  mix_eq : sequencer.mix = gains
  volume : sequencer.transport.volume ∈ Icc 0 1
  song : ∀ song ∈ sequencer.current, song.FullVolume

variable {sequencer : Sequencer τ Rat} {gains : PerRole Rat}

theorem within_initial (lookahead : τ) (volume : Rat) (gains : PerRole Rat) :
    (initial lookahead volume gains).Within gains where
  mix_eq := rfl
  volume := clamp_mem zero_le_one volume
  song := by simp [initial]

omit [Scalar τ] in
/-- An event at full volume is handed out within the gain of its part. -/
theorem Within.dispatchOf (h : sequencer.Within gains) (hgains : ∀ role, 0 ≤ gains.get role)
    {scheduled : Scheduled τ Rat} (hevent : scheduled.event.volume = 1) :
    (sequencer.dispatchOf scheduled).Within gains := by
  have hgain := hgains scheduled.role
  have hvolume : (sequencer.dispatchOf scheduled).volume =
      gains.get scheduled.role * sequencer.transport.volume := by
    rw [Sequencer.dispatchOf, hevent, h.mix_eq, one_mul]
  rw [Dispatch.Within, hvolume]
  exact ⟨mul_nonneg hgain h.volume.1, mul_le_of_le_one_right hgain h.volume.2⟩

/-- What one request keeps, and what it hands out. -/
theorem Within.perform [Tuning τ] (h : sequencer.Within gains)
    (hgains : ∀ role, 0 ≤ gains.get role) (soundtrack : Soundtrack) (now : τ)
    (request : Request Rat) :
    let performed := sequencer.perform soundtrack now request
    performed.sequencer.Within gains ∧
      ∀ note ∈ performed.effects.filterMap Effect.note?, note.Within gains := by
  have hsilence : (sequencer.silenceIfPlaying now).filterMap Effect.note? = [] := by
    unfold silenceIfPlaying
    split <;> rfl
  cases transition soundtrack sequencer now request with
  | ignores reply notices hignores hperform =>
      rw [hperform]
      refine ⟨h, ?_⟩
      rw [Effect.filterMap_note_notices]
      exact List.forall_mem_nil _
  | replaces id texts song hrequest hother hsong hcompiled hperform =>
      rw [hperform]
      refine ⟨⟨h.mix_eq, h.volume, fun other hmem => ?_⟩, ?_⟩
      · obtain rfl : song = other := Option.mem_some.mp hmem
        exact hcompiled ▸ Composition.fullVolume_compile id texts
      · rw [List.filterMap_append, List.filterMap_cons_none rfl, hsilence]
        simp [Effect.note?]
  | begins song position hrequest hrests hcurrent hposition hperform =>
      rw [hperform]
      exact ⟨⟨h.mix_eq, h.volume, h.song⟩, by simp [Effect.note?]⟩
  | pauses position hrequest hplays hposition hperform =>
      rw [hperform]
      exact ⟨⟨h.mix_eq, h.volume, h.song⟩, by simp [Effect.note?]⟩
  | resets hrequest hperform =>
      rw [hperform]
      exact ⟨⟨h.mix_eq, h.volume, by simp⟩, by simp [hsilence, Effect.note?]⟩
  | adjusts gain hrequest hfinite hperform =>
      rw [hperform]
      exact ⟨⟨h.mix_eq, clamp_mem zero_le_one gain, h.song⟩, by simp⟩
  | ticks song tick hrequest hplays hcurrent htick hperform =>
      rw [hperform]
      refine ⟨⟨h.mix_eq, h.volume, h.song⟩, ?_⟩
      intro note hnote
      rw [filterMap_note_tickEffects] at hnote
      obtain ⟨scheduled, hscheduled, rfl⟩ := List.mem_map.mp hnote
      rw [htick] at hscheduled
      exact h.dispatchOf hgains
        (h.song song hcurrent scheduled.role _ (Scheduler.event_of_mem_tick hscheduled))

end Sequencer

namespace Output

/-- An output that holds only notes within the gains of their parts. -/
structure Within (output : Output τ Rat) (gains : PerRole Rat) : Prop where
  renderer : output.renderer.Within gains
  queue : ∀ note ∈ notesOf output.queue, note.Within gains

variable {output : Output τ Rat} {gains : PerRole Rat}

omit [Scalar τ] in
theorem Within.push (h : output.Within gains) {message : Message τ Rat}
    (hmessage : ∀ note ∈ notesOf [message], note.Within gains) :
    (output.push message).2.Within gains := by
  unfold Output.push
  split
  · refine ⟨h.renderer, ?_⟩
    intro note hnote
    rw [notesOf_append] at hnote
    exact (List.mem_append.mp hnote).elim (h.queue note) (hmessage note)
  · exact h

theorem Within.hearAll (h : output.Within gains) {effects : List (Effect τ Rat)}
    (heffects : ∀ note ∈ effects.filterMap Effect.note?, note.Within gains) :
    (Sink.hearAll output effects).2.Within gains := by
  induction effects generalizing output with
  | nil => exact h
  | cons effect rest ih =>
      cases effect with
      | notice notice => exact ih h heffects
      | dispatch note =>
          obtain ⟨hnote, hrest⟩ := List.forall_mem_cons.mp heffects
          have hstamped : ∀ stamped ∈ notesOf [.note (output.stamped note)], stamped.Within gains :=
            List.forall_mem_singleton.mpr hnote
          exact ih (h.push hstamped) hrest
      | silence time => exact ih (h.push (by simp [notesOf_stopAll, notesOf_nil])) heffects

omit [Scalar τ] in
theorem Within.drain (h : output.Within gains) : output.drain.Within gains :=
  ⟨h.renderer.drain h.queue, by simp [Output.drain, notesOf_nil]⟩

theorem Within.render [Narrowing τ Rat] [Waveform Rat] (h : output.Within gains)
    (hsine : ∀ phase : Rat, |Waveform.sine phase| ≤ 1) (counter frames : Nat) :
    (output.render counter frames).renderer.Within gains := by
  have hrate : (0 : Rat) ≤ (output.rate : Rat) := Nat.cast_nonneg output.rate
  exact Renderer.Within.frames hsine hrate h.renderer frames

end Output

namespace Interplay

variable [Tuning Extended] [Narrowing Extended Rat] [Waveform Rat]

/-- The renderer as it stands, and the sample that comes next.  While a buffer is being rendered, some
number of its frames is done. -/
def ongoing (interplay : Interplay Rat) (frames : Nat) : Take Extended Rat :=
  match interplay.phase with
  | .resting => ⟨interplay.rig.sink.renderer, interplay.rig.sink.counter, #[], #[]⟩
  | .drained counter _ => interplay.rig.sink.render counter frames
  | .rendered _ take => take

/-- Everything in a rig is within the gains, and so is what a buffer has rendered. -/
structure Within (interplay : Interplay Rat) (gains : PerRole Rat) : Prop where
  sequencer : interplay.rig.sequencer.Within gains
  output : interplay.rig.sink.Within gains
  rendered : ∀ count take, interplay.phase = .rendered count take → take.renderer.Within gains

variable {interplay : Interplay Rat} {gains : PerRole Rat}

omit [Tuning Extended] [Narrowing Extended Rat] [Waveform Rat] in
theorem within_opened (lookahead : Extended) (volume : Rat) (rate speakers slots counter : Nat)
    (hgains : ∀ role, 0 ≤ gains.get role) :
    (opened lookahead volume gains rate speakers slots counter).Within gains where
  sequencer := Sequencer.within_initial lookahead volume gains
  output := ⟨Renderer.within_initial hgains, by simp [opened, Output.initial, notesOf_nil]⟩
  rendered _ _ hphase := by cases hphase

section

variable (hsine : ∀ phase : Rat, |Waveform.sine phase| ≤ 1)
include hsine

omit [Tuning Extended] in
theorem Within.ongoing (h : interplay.Within gains) (frames : Nat) :
    (interplay.ongoing frames).renderer.Within gains := by
  unfold Interplay.ongoing
  split
  · exact h.output.renderer
  · exact h.output.render hsine _ frames
  · next hphase => exact h.rendered _ _ hphase

omit [Tuning Extended] in
theorem Within.proceed (h : interplay.Within gains) (frames : Nat) :
    (interplay.proceed frames).Within gains := by
  cases hphase : interplay.phase with
  | resting =>
      simp only [Interplay.proceed, hphase]
      exact ⟨h.sequencer, h.output.drain, by simp⟩
  | drained counter count =>
      simp only [Interplay.proceed, hphase]
      refine ⟨h.sequencer, h.output, ?_⟩
      rintro _ _ ⟨⟩
      exact h.output.render hsine counter count
  | rendered count take =>
      simp only [Interplay.proceed, hphase]
      exact ⟨h.sequencer, ⟨h.rendered count take hphase, h.output.queue⟩, by simp⟩

theorem Within.step (h : interplay.Within gains) (hgains : ∀ role, 0 ≤ gains.get role)
    (soundtrack : Soundtrack) (act : Act Rat) : (interplay.step soundtrack act).Within gains := by
  cases act with
  | request request =>
      obtain ⟨hsequencer, hnotes⟩ := h.sequencer.perform hgains soundtrack interplay.rig.now request
      exact ⟨hsequencer, h.output.hearAll hnotes, h.rendered⟩
  | proceed frames => exact h.proceed hsine frames

theorem Within.run (h : interplay.Within gains) (hgains : ∀ role, 0 ≤ gains.get role)
    (soundtrack : Soundtrack) (acts : List (Act Rat)) :
    (interplay.run soundtrack acts).Within gains := by
  induction acts generalizing interplay with
  | nil => exact h
  | cons act later ih => exact ih (h.step hsine hgains soundtrack act)

end

/-- The mix never clips.  A mix has gains that are not negative and add up to full level at most.  A new
sequencer with this mix on a new output is given any requests, between the parts of buffers of any
number of frames, at any rate.  Then at any time, also in the middle of a buffer, every envelope is
between silence and full level and every phase within one turn, and in the frame that comes next the
sample of each channel is within the gain of its part, so that their sum stays within full level, and
holding it there changes nothing.  Of the curves it is asked only that a sine lies between -1 and 1. -/
theorem unclipped_run (soundtrack : Soundtrack) (lookahead : Extended) (volume : Rat)
    (mix : PerRole Rat) (rate speakers slots counter : Nat) (acts : List (Act Rat))
    (hsine : ∀ phase : Rat, |Waveform.sine phase| ≤ 1) (hgains : ∀ role, 0 ≤ mix.get role)
    (hsum : mix.toList.sum ≤ 1) :
    let interplay := (opened lookahead volume mix rate speakers slots counter).run soundtrack acts
    ∀ frames, let take := interplay.ongoing frames
      take.renderer.Unclipped mix rate take.counter := by
  intro interplay frames take
  have hrate : (0 : Rat) ≤ rate := Nat.cast_nonneg rate
  have hopened := within_opened lookahead volume rate speakers slots counter hgains
  have hwithin : interplay.Within mix := hopened.run hsine hgains soundtrack acts
  exact (hwithin.ongoing hsine frames).unclipped hsine hrate hsum take.counter

/-- The gains of the initial settings add up to less than full level. -/
example : (Config.defaultMix : PerRole Rat).toList.sum = 43 / 100 := by decide +kernel

end Interplay

namespace Interplay

open Octaves Curves Extended in
/-- Two parts share full level, and one of them comes in while the other is held. -/
theorem unclipped_run_of_two_parts :
    let texts : PerRole String := ⟨"a", "r16 a", "", ""⟩
    let soundtrack : Soundtrack := ⟨fun _ => some texts, fun _ => none, id⟩
    let mix : PerRole Rat := ⟨1 / 2, 1 / 2, 0, 0⟩
    let acts : List (Act Rat) := [.request (.load 0), .request .start, .request .tick, .proceed 1,
      .proceed 0, .proceed 0, .request .tick, .proceed 2]
    let interplay := (opened (finite 0) 1 mix 8 1 64 0).run soundtrack acts
    let take := interplay.ongoing 1
    ((∀ phase : Rat, |Waveform.sine phase| ≤ 1) ∧ (∀ role, 0 ≤ mix.get role) ∧
      mix.toList.sum ≤ 1) ∧
    (take.renderer.parts 8 take.counter).toList = [3 / 10, 1 / 2, 0, 0] ∧
    take.renderer.Unclipped mix 8 take.counter := by
  intro texts soundtrack mix acts interplay take
  have hsine (phase : Rat) : |Waveform.sine phase| ≤ 1 := by
    change |(0 : Rat)| ≤ 1
    simp
  have hgains (role : Role) : 0 ≤ mix.get role := by cases role <;> decide +kernel
  have hsum : mix.toList.sum ≤ 1 := by decide +kernel
  have hparts : (take.renderer.parts 8 take.counter).toList = [3 / 10, 1 / 2, 0, 0] := by
    decide +kernel
  exact ⟨⟨hsine, hgains, hsum⟩, hparts, unclipped_run soundtrack (finite 0) 1 mix 8 1 64 0 acts
    hsine hgains hsum 1⟩

end Interplay

end Chiptune
