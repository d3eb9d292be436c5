import Chiptune.Proofs.NoteLength

/-!
What a new note leaves of the old one.

A trigger leaves the level that an envelope has.  The first sample of a note with an open gate takes
its level from the attack, so nothing is left of the old level; a note without length is released
before its first sample and fades from the level that it finds.

Main statement: after the same note two channels have the same envelope from the first sample on,
whatever they played before, if the note has a length or they were at the same level.
-/
namespace Chiptune

variable {τ γ : Type}

namespace Channel

/-- Two channels whose envelopes are the same and move alike. -/
structure Alike (first second : Channel γ) : Prop where
  envelope : first.envelope = second.envelope
  gate : first.gate = second.gate
  instrument : first.instrument = second.instrument

variable [Scalar γ] [Waveform γ] {first second : Channel γ}

/-- One sample keeps two channels alike. -/
theorem Alike.render (h : first.Alike second) (rate : γ) :
    (first.render rate).2.Alike (second.render rate).2 := by
  have hsame : first.isActive = second.isActive :=
    congrArg (fun envelope : Envelope γ => !envelope.isIdle) h.envelope
  cases hactive : second.isActive with
  | false =>
      rw [render_of_idle rate hactive, render_of_idle rate (hsame.trans hactive)]
      exact h
  | true =>
      obtain ⟨henvelope, hgate, hinstrument⟩ := render_of_active rate hactive
      obtain ⟨henvelope', hgate', hinstrument'⟩ := render_of_active rate (hsame.trans hactive)
      refine ⟨?_, ?_, ?_⟩
      · rw [henvelope, henvelope', h.envelope, h.gate, h.instrument]
      · rw [hgate, hgate', h.gate]
      · rw [hinstrument, hinstrument', h.instrument]

theorem Alike.after (h : first.Alike second) (rate : γ) (n : Nat) :
    (first.after rate n).Alike (second.after rate n) := by
  induction n with
  | zero => exact h
  | succ n ih => exact ih.render rate

theorem after_succ (channel : Channel γ) (rate : γ) (n : Nat) :
    channel.after rate (n + 1) = ((channel.render rate).2).after rate n := by
  induction n with
  | zero => rfl
  | succ n ih => rw [Channel.after, ih, Channel.after]

variable [Zero τ] [Narrowing τ γ]

/-- The first sample of a note, on a channel in any state. -/
theorem envelope_render_noteOn (channel : Channel γ) (role : Role) (voice : Voice τ) (volume : γ)
    (samples : Nat) (rate : γ) :
    ((channel.noteOn role voice volume samples).render rate).2.envelope =
      (if samples = 0 then ⟨.release 0 channel.envelope.level, channel.envelope.level⟩
        else ⟨.attack 0, channel.envelope.level⟩ : Envelope γ).next
          (Instrument.forVoice role voice).adsr (1 / rate) :=
  have hactive : (channel.noteOn role voice volume samples).isActive = true := rfl
  (render_of_active rate hactive).1

/-- The first sample of the same note makes two channels alike, unless the note is released before it
and finds different levels. -/
theorem alike_render_noteOn (role : Role) (voice : Voice τ) (volume : γ) {samples : Nat} (rate : γ)
    (h : 0 < samples ∨ first.envelope.level = second.envelope.level) :
    ((first.noteOn role voice volume samples).render rate).2.Alike
      ((second.noteOn role voice volume samples).render rate).2 := by
  have hactive (channel : Channel γ) :
      (channel.noteOn role voice volume samples).isActive = true := rfl
  have hfirst := render_of_active rate (hactive first)
  have hsecond := render_of_active rate (hactive second)
  refine ⟨?_, hfirst.2.1.trans hsecond.2.1.symm, hfirst.2.2.trans hsecond.2.2.symm⟩
  rw [envelope_render_noteOn, envelope_render_noteOn]
  rcases h with hsamples | hlevel
  · -- An attack sets the level of its first sample without regard to the level that is kept.
    rw [if_neg hsamples.ne', if_neg hsamples.ne']
    rfl
  · rw [hlevel]

/-- A new note replaces the old one, if it has a length.  Two channels in any states are given the same
note.  If the note lasts for a sample at least, or both channels were at the same level, their envelopes
are the same from the first sample on.  The first level of a note without length is that of a fade from
the level that the channel had. -/
theorem envelope_after_noteOn (first second : Channel γ) (role : Role) (voice : Voice τ) (volume : γ)
    (samples : Nat) (rate : γ) :
    let adsr := (Instrument.forVoice role voice : Instrument γ).adsr
    let note (channel : Channel γ) := channel.noteOn role voice volume samples
    (0 < samples ∨ first.envelope.level = second.envelope.level →
        ∀ n, ((note first).after rate (n + 1)).envelope =
          ((note second).after rate (n + 1)).envelope) ∧
      (samples = 0 → ∀ channel, ((note channel).after rate 1).envelope.level =
        Envelope.levelAt adsr (.release 0 channel.envelope.level)) := by
  intro adsr note
  refine ⟨fun h n => ?_, fun hsamples channel => ?_⟩
  · rw [after_succ, after_succ]
    exact ((alike_render_noteOn role voice volume rate h).after rate n).envelope
  · have hrender := envelope_render_noteOn channel role voice volume samples rate
    rw [if_pos hsamples] at hrender
    exact congrArg Envelope.level hrender

open Curves in
/-- A note of one sample on a channel that sounds and on one that has been silent, and a note without
length on two channels that have been silent for different times. -/
theorem envelope_after_noteOn_in_turn :
    let silence : Channel Extended := silent .lead
    let sounding := (silence.noteOn .lead (.tone (440 : Rat)) 1 10).after (.finite 100) 2
    let note (samples : Nat) (channel : Channel Extended) :=
      channel.noteOn .lead (.tone (330 : Rat)) 1 samples
    (sounding.envelope.level = 1 ∧ silence.envelope.level = 0 ∧ 0 < 1) ∧
      (∀ n, ((note 1 sounding).after (.finite 100) (n + 1)).envelope =
        ((note 1 silence).after (.finite 100) (n + 1)).envelope) ∧
      ((note 0 sounding).after (.finite 100) 1).envelope.level =
        Envelope.levelAt (Instrument.tones .lead).adsr (.release 0 1) := by
  intro silence sounding note
  have hsounding : sounding.envelope.level = 1 := by decide +kernel
  refine ⟨⟨hsounding, rfl, Nat.one_pos⟩, ?_, ?_⟩
  · exact (envelope_after_noteOn sounding silence .lead (.tone (330 : Rat)) 1 1 (.finite 100)).1
      (.inl Nat.one_pos)
  · have hlevel := (envelope_after_noteOn sounding silence .lead (.tone (330 : Rat)) 1 0
      (.finite 100)).2 rfl sounding
    rw [hsounding] at hlevel
    exact hlevel

open Curves in
/-- The level of an old note comes through in a note without length. -/
theorem old_level_in_note_without_length :
    let silence : Channel Extended := silent .lead
    let sounding := (silence.noteOn .lead (.tone (440 : Rat)) 1 10).after (.finite 100) 2
    let note (channel : Channel Extended) := channel.noteOn .lead (.tone (330 : Rat)) 1 0
    let first := ((note silence).after (.finite 100) 1).envelope
    let second := ((note sounding).after (.finite 100) 1).envelope
    (first.level = 0 ∧ second.level = 1) ∧ first ≠ second := by
  intro silence sounding note first second
  have hlevels : first.level = 0 ∧ second.level = 1 := by decide +kernel
  refine ⟨hlevels, fun hsame => ?_⟩
  have hlevel : (0 : Extended) = 1 := hlevels.1.symm.trans (hsame ▸ hlevels.2)
  exact absurd hlevel (by decide +kernel)

end Channel

end Chiptune
