import Chiptune.Proofs.Draining

/-!
How loud the channels of a renderer get, in exact fractions.

Main statement: if the volume of every note is within the gain of its part, then through every frame
envelopes stay between silence and full level, phases stay within one turn, and the sample of a
channel stays within the gain of its part; if the gains add up to full level at most, holding the mix
within full level changes nothing.
-/
namespace Chiptune

open Set (Icc Ico)

variable {τ : Type}

/-- Segments take no negative time, and what is held lies between silence and full level. -/
structure Adsr.Proper (adsr : Adsr Rat) : Prop where
  attack : 0 ≤ adsr.attack
  decay : 0 ≤ adsr.decay
  sustain : adsr.sustain ∈ Icc 0 1
  release : 0 ≤ adsr.release

instance (adsr : Adsr Rat) : Decidable adsr.Proper :=
  decidable_of_iff ((0 ≤ adsr.attack ∧ 0 ≤ adsr.decay) ∧
      (0 ≤ adsr.sustain ∧ adsr.sustain ≤ 1) ∧ 0 ≤ adsr.release)
    ⟨fun h => ⟨h.1.1, h.1.2, h.2.1, h.2.2⟩, fun h => ⟨⟨h.attack, h.decay⟩, h.sustain, h.release⟩⟩

theorem Instrument.proper_tones (role : Role) : (tones role : Instrument Rat).adsr.Proper := by
  cases role <;> decide +kernel

theorem Instrument.proper_forVoice (role : Role) (voice : Voice τ) :
    (forVoice role voice : Instrument Rat).adsr.Proper := by
  cases voice with
  | tone frequency => exact proper_tones role
  | kick => exact show kick.adsr.Proper by decide +kernel
  | snare => exact show snare.adsr.Proper by decide +kernel

/-- No negative time has been spent in a stage, and a note fades from a level between silence and full
level. -/
def Stage.Proper : Stage Rat → Prop
  | .idle | .sustain => True
  | .attack time | .decay time => 0 ≤ time
  | .release time origin => 0 ≤ time ∧ origin ∈ Icc 0 1

structure Envelope.Proper (envelope : Envelope Rat) : Prop where
  stage : envelope.stage.Proper
  level : envelope.level ∈ Icc 0 1

namespace Envelope

theorem proper_idle : (idle : Envelope Rat).Proper := ⟨trivial, le_rfl, zero_le_one⟩

variable {envelope : Envelope Rat} {adsr : Adsr Rat} {time length dt : Rat}

theorem Proper.trigger (h : envelope.Proper) : envelope.trigger.Proper := ⟨le_rfl, h.level⟩

theorem Proper.release (h : envelope.Proper) : envelope.release.Proper := by
  unfold Envelope.release
  split
  · exact h
  · exact h
  all_goals exact ⟨⟨le_rfl, h.level⟩, h.level⟩

theorem progress_mem (htime : 0 ≤ time) (hlength : 0 ≤ length) :
    progress time length ∈ Icc 0 1 := by
  unfold progress Scalar.atMost
  split
  · exact ⟨zero_le_one, le_rfl⟩
  · split
    · next hlt => exact ⟨div_nonneg htime hlength, le_of_lt hlt⟩
    · exact ⟨zero_le_one, le_rfl⟩

theorem mul_mem_unit {x y : Rat} (hx : x ∈ Icc 0 1) (hy : y ∈ Icc 0 1) : x * y ∈ Icc 0 1 :=
  ⟨mul_nonneg hx.1 hy.1, mul_le_one₀ hx.2 hy.1 hy.2⟩

/-- Every stage gives a level between silence and full level. -/
theorem levelAt_mem (hadsr : adsr.Proper) {stage : Stage Rat} (hstage : stage.Proper) :
    levelAt adsr stage ∈ Icc 0 1 := by
  cases stage with
  | idle => exact ⟨le_rfl, zero_le_one⟩
  | attack time => exact progress_mem hstage hadsr.attack
  | decay time =>
      have hfall := mul_mem_unit (Set.Icc.mem_iff_one_sub_mem.mp hadsr.sustain)
        (progress_mem hstage hadsr.decay)
      exact Set.Icc.mem_iff_one_sub_mem.mp hfall
  | sustain => exact hadsr.sustain
  | release time origin =>
      have hleft := Set.Icc.mem_iff_one_sub_mem.mp (progress_mem hstage.1 hadsr.release)
      exact mul_mem_unit hstage.2 hleft

theorem proper_advance (hdt : 0 ≤ dt) {stage : Stage Rat} (hstage : stage.Proper) :
    (advance adsr dt stage).Proper := by
  cases stage with
  | idle => trivial
  | attack time =>
      simp only [advance]
      split
      · exact le_refl (0 : Rat)
      · exact add_nonneg hstage hdt
  | decay time =>
      simp only [advance]
      split
      · trivial
      · exact add_nonneg hstage hdt
  | sustain => trivial
  | release time origin =>
      simp only [advance]
      split
      · trivial
      · exact ⟨add_nonneg hstage.1 hdt, hstage.2⟩

theorem Proper.next (h : envelope.Proper) (hadsr : adsr.Proper) (hdt : 0 ≤ dt) :
    (envelope.next adsr dt).Proper :=
  ⟨proper_advance hdt h.stage, levelAt_mem hadsr h.stage⟩

end Envelope

namespace Channel

/-- A channel whose note is no louder than a gain. -/
structure Within (channel : Channel Rat) (gain : Rat) : Prop where
  adsr : channel.instrument.adsr.Proper
  envelope : channel.envelope.Proper
  phase : channel.phase ∈ Ico 0 1
  volume : channel.volume ∈ Icc 0 gain

variable {channel : Channel Rat} {gain : Rat}

theorem within_silent (role : Role) (hgain : 0 ≤ gain) : (silent role : Channel Rat).Within gain where
  adsr := Instrument.proper_tones role
  envelope := Envelope.proper_idle
  phase := ⟨le_rfl, zero_lt_one⟩
  volume := ⟨le_rfl, hgain⟩

theorem Within.noteOn [Zero τ] [Narrowing τ Rat] (h : channel.Within gain) (role : Role)
    (voice : Voice τ) {volume : Rat} (hvolume : volume ∈ Icc 0 gain) (samples : Nat) :
    (channel.noteOn role voice volume samples).Within gain where
  adsr := Instrument.proper_forVoice role voice
  envelope := h.envelope.trigger
  phase := h.phase
  volume := hvolume

theorem Within.stop (h : channel.Within gain) : channel.stop.Within gain :=
  { h with envelope := Envelope.proper_idle }

theorem Within.countGate (h : channel.Within gain) : channel.countGate.Within gain := by
  unfold Channel.countGate
  split
  · exact { h with envelope := h.envelope.release }
  · exact { h with }

/-- The phase keeps what is left of whole turns. -/
theorem movePhase_mem {phase : Rat} (hphase : phase ∈ Ico 0 1) (frequency rate : Rat) :
    movePhase phase frequency rate ∈ Ico 0 1 := by
  unfold movePhase
  split
  · exact ⟨Int.fract_nonneg (phase + frequency / rate), Int.fract_lt_one (phase + frequency / rate)⟩
  · exact hphase

theorem scalar_abs_eq (x : Rat) : Scalar.abs x = |x| := by
  change (if 0 ≤ x then x else -x) = |x|
  split
  · next hnonneg => exact (abs_of_nonneg hnonneg).symm
  · next hneg => exact (abs_of_neg (not_le.mp hneg)).symm

/-- Within one turn the triangle stays between its extremes. -/
theorem triangle_mem {phase : Rat} (hphase : phase ∈ Ico 0 1) :
    1 - (4 : Nat) * Scalar.abs (phase - 0.5) ∈ Icc (-1) 1 := by
  rw [scalar_abs_eq]
  have hnonneg : 0 ≤ |phase - 0.5| := abs_nonneg _
  have hdistance : |phase - 0.5| ≤ 0.5 :=
    abs_le.mpr ⟨by linarith [hphase.1], by linarith [hphase.2]⟩
  constructor
  · push_cast
    linarith
  · push_cast
    linarith

variable [Waveform Rat]

/-- Every wave form stays between its extremes, if the sine does. -/
theorem wave_mem (hsine : ∀ phase : Rat, |Waveform.sine phase| ≤ 1)
    (hphase : channel.phase ∈ Ico 0 1) : channel.wave.1 ∈ Icc (-1) 1 := by
  have hhigh : (1 : Rat) ∈ Icc (-1) 1 := ⟨by norm_num, le_rfl⟩
  have hlow : (-1 : Rat) ∈ Icc (-1) 1 := ⟨le_rfl, by norm_num⟩
  unfold wave
  split
  · dsimp only
    split
    · exact hhigh
    · exact hlow
  · exact triangle_mem hphase
  · exact abs_le.mp (hsine channel.phase)
  · dsimp only
    split
    · exact hhigh
    · exact hlow

/-- A sample of a channel is within the gain, and so is all that the channel keeps. -/
theorem Within.render (h : channel.Within gain)
    (hsine : ∀ phase : Rat, |Waveform.sine phase| ≤ 1) {rate : Rat} (hrate : 0 ≤ rate) :
    |(channel.render rate).1| ≤ gain ∧ (channel.render rate).2.Within gain := by
  cases hactive : channel.isActive with
  | false =>
      have hrender : channel.render rate = (0, channel) := if_neg (by simp [hactive])
      rw [hrender]
      exact ⟨abs_zero.trans_le (h.volume.1.trans h.volume.2), h⟩
  | true =>
      let counted := channel.countGate
      let envelope := counted.envelope.next counted.instrument.adsr (1 / rate)
      have hcounted : counted.Within gain := h.countGate
      have henvelope : envelope.Proper :=
        hcounted.envelope.next hcounted.adsr (one_div_nonneg.mpr hrate)
      have hrender : channel.render rate =
          (counted.wave.1 * envelope.level * counted.volume,
            { counted with
              envelope
              register := counted.wave.2.2
              phase := movePhase counted.phase counted.wave.2.1 rate
              elapsed := counted.elapsed + 1 / rate }) := if_pos hactive
      rw [hrender]
      refine ⟨?_, hcounted.adsr, henvelope, movePhase_mem hcounted.phase _ rate, hcounted.volume⟩
      have hwave : |counted.wave.1| ≤ 1 := abs_le.mpr (wave_mem hsine hcounted.phase)
      have hlevel : |envelope.level| ≤ 1 := abs_le.mpr
        ⟨by linarith [henvelope.level.1], henvelope.level.2⟩
      calc |counted.wave.1 * envelope.level * counted.volume|
          = |counted.wave.1| * |envelope.level| * counted.volume := by
            rw [abs_mul, abs_mul, abs_of_nonneg hcounted.volume.1]
        _ ≤ 1 * counted.volume := by
            gcongr
            · exact hcounted.volume.1
            · exact mul_le_one₀ hwave (abs_nonneg _) hlevel
        _ ≤ gain := (one_mul counted.volume).trans_le hcounted.volume.2

end Channel

theorem clamp_mem {low high : Rat} (h : low ≤ high) (x : Rat) :
    Scalar.clamp low high x ∈ Icc low high := by
  unfold Scalar.clamp
  split
  · exact ⟨le_rfl, h⟩
  · next hlow =>
      split
      · exact ⟨h, le_rfl⟩
      · next hhigh => exact ⟨not_lt.mp hlow, not_lt.mp hhigh⟩

theorem clamp_of_mem {low high x : Rat} (h : x ∈ Icc low high) : Scalar.clamp low high x = x :=
  (if_neg (not_lt.mpr h.1)).trans (if_neg (not_lt.mpr h.2))

theorem abs_sum_le {samples gains : PerRole Rat} (h : ∀ role, |samples.get role| ≤ gains.get role) :
    |samples.toList.sum| ≤ gains.toList.sum := by
  have hbounds (role : Role) := abs_le.mp (h role)
  have hlead := hbounds .lead
  have hharmony := hbounds .harmony
  have hbass := hbounds .bass
  have hpercussion := hbounds .percussion
  simp only [PerRole.get] at hlead hharmony hbass hpercussion
  simp only [PerRole.toList, List.sum_cons, List.sum_nil, add_zero]
  exact abs_le.mpr ⟨by linarith, by linarith⟩

/-- The volume of a note lies between silence and the gain of its part. -/
def StampedNote.Within (note : StampedNote τ Rat) (gains : PerRole Rat) : Prop :=
  note.volume ∈ Icc 0 (gains.get note.role)

namespace Renderer

/-- A sum that stays within full level is mixed as it is. -/
theorem mix_of_mem {samples : PerRole Rat} (h : samples.toList.sum ∈ Icc (-1) 1) :
    mix samples = samples.toList.sum := by
  rw [List.sum_eq_foldl] at h ⊢
  exact clamp_of_mem h

/-- Channels and notes that stay within the gains of their parts. -/
structure Within (renderer : Renderer τ Rat) (gains : PerRole Rat) : Prop where
  channels : ∀ role, (renderer.channels.get role).Within (gains.get role)
  pending : ∀ note ∈ renderer.pending, note.Within gains

variable {renderer : Renderer τ Rat} {gains : PerRole Rat}

theorem within_initial (hgains : ∀ role, 0 ≤ gains.get role) :
    (initial : Renderer τ Rat).Within gains where
  channels role := by
    rw [initial, PerRole.get_ofRole]
    exact Channel.within_silent role (hgains role)
  pending := by simp [initial]

theorem Within.drain (h : renderer.Within gains) {messages : List (Message τ Rat)}
    (hmessages : ∀ note ∈ notesOf messages, note.Within gains) :
    (renderer.drain messages).Within gains where
  channels role := by
    have hchannels : (renderer.drain messages).channels =
        if messages.any Message.isSilence then renderer.channels.map Channel.stop
        else renderer.channels := by
      rw [← channels_foldl_accept messages ⟨renderer, false⟩]
      unfold Renderer.drain
      dsimp only
      split <;> rfl
    rw [hchannels]
    split
    · rw [PerRole.get_map]
      exact (h.channels role).stop
    · exact h.channels role
  pending note hnote := by
    have hmem := (drain_subperm renderer messages).subset hnote
    exact (List.mem_append.mp hmem).elim (h.pending note) (hmessages note)

variable [Zero τ] [Narrowing τ Rat]

/-- Notes begin on channels in any state. -/
theorem within_foldl_begin {notes : List (StampedNote τ Rat)} {channels : PerRole (Channel Rat)}
    (hchannels : ∀ role, (channels.get role).Within (gains.get role))
    (hnotes : ∀ note ∈ notes, note.Within gains) (role : Role) :
    ((notes.foldl begin channels).get role).Within (gains.get role) := by
  induction notes generalizing channels with
  | nil => exact hchannels role
  | cons note later ih =>
      refine ih (fun other => ?_) fun note hnote => hnotes note (List.mem_cons_of_mem _ hnote)
      by_cases hother : other = note.role
      · subst hother
        rw [begin, PerRole.get_modify_self]
        exact (hchannels note.role).noteOn _ _ (hnotes note List.mem_cons_self) _
      · rw [begin, PerRole.get_modify_of_ne channels hother]
        exact hchannels other

variable [Waveform Rat]

/-- The samples of the four channels in a frame. -/
def parts (renderer : Renderer τ Rat) (rate : Rat) (now : Nat) : PerRole Rat :=
  ((renderer.frame rate now).begun.foldl begin renderer.channels).map fun channel =>
    (channel.render rate).1

/-- What holds of the channels at a moment, and of the frame that comes next: holding its mix within
full level leaves the sum of its samples as it is. -/
structure Unclipped (renderer : Renderer τ Rat) (gains : PerRole Rat) (rate : Rat) (now : Nat) :
    Prop where
  level : ∀ role, (renderer.channels.get role).envelope.level ∈ Icc 0 1
  phase : ∀ role, (renderer.channels.get role).phase ∈ Ico 0 1
  part : ∀ role, |(renderer.parts rate now).get role| ≤ gains.get role
  sum : (renderer.parts rate now).toList.sum ∈ Icc (-1) 1
  sample : (renderer.frame rate now).sample = (renderer.parts rate now).toList.sum

variable (hsine : ∀ phase : Rat, |Waveform.sine phase| ≤ 1) {rate : Rat} (hrate : 0 ≤ rate)
include hsine hrate

/-- One frame: every sample is within its gain, and so is the renderer after it. -/
theorem Within.frame (h : renderer.Within gains) (now : Nat) :
    (∀ role, |(renderer.parts rate now).get role| ≤ gains.get role) ∧
      (renderer.frame rate now).renderer.Within gains := by
  have hbegun : ∀ note ∈ (renderer.frame rate now).begun, note.Within gains := fun note hnote =>
    h.pending note ((List.takeWhile_sublist _).mem hnote)
  have hrender (role : Role) :=
    (within_foldl_begin h.channels hbegun role).render hsine hrate
  refine ⟨fun role => ?_, fun role => ?_, fun note hnote => ?_⟩
  · rw [parts, PerRole.get_map]
    exact (hrender role).1
  · have hchannels : (renderer.frame rate now).renderer.channels =
        ((renderer.frame rate now).begun.foldl begin renderer.channels).map fun channel =>
          (channel.render rate).2 := rfl
    rw [hchannels, PerRole.get_map]
    exact (hrender role).2
  · exact h.pending note (List.mem_of_mem_drop hnote)

theorem Within.frames {take : Take τ Rat} (h : take.renderer.Within gains) (frames : Nat) :
    (take.frames rate frames).renderer.Within gains := by
  induction frames generalizing take with
  | zero => exact h
  | succ frames ih => exact ih (h.frame hsine hrate take.counter).2

/-- With gains that add up to full level at most, four channels within their gains do not clip. -/
theorem Within.unclipped (h : renderer.Within gains) (hsum : gains.toList.sum ≤ 1) (now : Nat) :
    renderer.Unclipped gains rate now := by
  have hpart := (h.frame hsine hrate now).1
  have hmem := abs_le.mp ((abs_sum_le hpart).trans hsum)
  exact
    { level := fun role => (h.channels role).envelope.level
      phase := fun role => (h.channels role).phase
      part := hpart
      sum := hmem
      sample := mix_of_mem hmem }

end Renderer

end Chiptune
