import Chiptune.Proofs.Fading
import Chiptune.Synth.Channel

/-!
How long a note sounds on a channel.

A note is held while its gate is open, whatever the times of its attack and its decay, and fades for
the release of its instrument when the gate has run out.  Nothing that a channel did before the note
makes a difference to that.

Main statement: a note is held for the samples of its gate, fades for the least number of samples that
lasts as long as the release, and then leaves the channel silent and unchanged.
-/
namespace Chiptune

variable {τ γ : Type}

namespace Channel

variable {channel : Channel γ}

theorem isActive_eq_false_iff : channel.isActive = false ↔ channel.envelope.stage = .idle := by
  rw [isActive, Bool.not_eq_false', Envelope.isIdle_iff]

/-- What no idle envelope is in is a stage of an active channel. -/
theorem isActive_of_stage {p : Stage γ → Bool} (hp : p .idle = false)
    (h : p channel.envelope.stage = true) : channel.isActive = true := by
  by_contra hidle
  rw [Bool.not_eq_true, isActive_eq_false_iff] at hidle
  rw [hidle, hp] at h
  exact Bool.false_ne_true h

theorem isActive_of_isHeld (h : channel.envelope.stage.isHeld = true) : channel.isActive = true :=
  isActive_of_stage rfl h

theorem isActive_of_isReleasing (h : channel.envelope.stage.isReleasing = true) :
    channel.isActive = true :=
  isActive_of_stage rfl h

variable [Scalar γ]

theorem gate_countGate (channel : Channel γ) : channel.countGate.gate = channel.gate - 1 := by
  unfold countGate
  split
  · next hgate => simp [hgate]
  · rfl

theorem instrument_countGate (channel : Channel γ) :
    channel.countGate.instrument = channel.instrument := by
  unfold countGate
  split <;> rfl

theorem envelope_countGate (channel : Channel γ) :
    channel.countGate.envelope =
      if channel.gate = 0 then channel.envelope.release else channel.envelope := by
  unfold countGate
  split <;> rfl

variable [Waveform γ]

def after (channel : Channel γ) (rate : γ) : Nat → Channel γ
  | 0 => channel
  | n + 1 => ((channel.after rate n).render rate).2

variable (rate : γ)

theorem render_of_idle (h : channel.isActive = false) : channel.render rate = (0, channel) :=
  if_neg (by simp [h])

/-- All that one sample does to the envelope, the gate and the instrument of an active channel. -/
theorem render_of_active (h : channel.isActive = true) :
    (channel.render rate).2.envelope =
        (if channel.gate = 0 then channel.envelope.release else channel.envelope).next
          channel.instrument.adsr (1 / rate) ∧
      (channel.render rate).2.gate = channel.gate - 1 ∧
      (channel.render rate).2.instrument = channel.instrument := by
  rw [← envelope_countGate, ← gate_countGate]
  simp only [render, h, if_true, instrument_countGate, and_self]

/-- While the gate is open a note is held. -/
theorem held_after (h : channel.envelope.stage.isHeld = true) {n : Nat} (hn : n ≤ channel.gate) :
    (channel.after rate n).envelope.stage.isHeld = true ∧
      (channel.after rate n).gate = channel.gate - n ∧
      (channel.after rate n).instrument = channel.instrument := by
  induction n with
  | zero => exact ⟨h, rfl, rfl⟩
  | succ n ih =>
      obtain ⟨hheld, hgate, hinstrument⟩ := ih (by omega)
      have hopen : (channel.after rate n).gate ≠ 0 := by omega
      obtain ⟨henvelope, hgate', hinstrument'⟩ := render_of_active rate (isActive_of_isHeld hheld)
      rw [if_neg hopen] at henvelope
      refine ⟨?_, by rw [after, hgate', hgate, Nat.sub_sub], hinstrument'.trans hinstrument⟩
      rw [after, henvelope]
      exact Envelope.isHeld_advance hheld

/-- A channel that does not hold a note moves on in its fade. -/
theorem stage_render_of_not_isHeld (h : channel.envelope.stage.isHeld = false)
    (hgate : channel.gate = 0) :
    (channel.render rate).2.envelope.stage =
        Envelope.advance channel.instrument.adsr (1 / rate) channel.envelope.stage ∧
      (channel.render rate).2.gate = 0 ∧
      (channel.render rate).2.instrument = channel.instrument := by
  cases hactive : channel.isActive with
  | false =>
      have hidle := isActive_eq_false_iff.mp hactive
      rw [render_of_idle rate hactive, hidle]
      exact ⟨rfl, hgate, rfl⟩
  | true =>
      obtain ⟨henvelope, hgate', hinstrument⟩ := render_of_active rate hactive
      rw [if_pos hgate, Envelope.release_of_not_isHeld h] at henvelope
      exact ⟨congrArg Envelope.stage henvelope, by rw [hgate', hgate], hinstrument⟩

/-- When the gate has run out the note fades from the level it has. -/
theorem fading_after (h : channel.envelope.stage.isHeld = true) (n : Nat) :
    let adsr := channel.instrument.adsr
    let later := channel.after rate (channel.gate + (n + 1))
    later.envelope.stage = (Envelope.advance adsr (1 / rate))^[n + 1]
        (.release 0 (channel.after rate channel.gate).envelope.level) ∧
      later.gate = 0 ∧ later.instrument = channel.instrument := by
  induction n with
  | zero =>
      -- The sample that finds the gate at zero releases the note, and is itself one of the fade.
      obtain ⟨hheld, hgate, hinstrument⟩ := held_after rate h le_rfl
      rw [Nat.sub_self] at hgate
      obtain ⟨henvelope, hgate', hinstrument'⟩ := render_of_active rate (isActive_of_isHeld hheld)
      rw [if_pos hgate, Envelope.release_of_isHeld hheld, hinstrument] at henvelope
      rw [hgate] at hgate'
      exact ⟨congrArg Envelope.stage henvelope, hgate', hinstrument'.trans hinstrument⟩
  | succ n ih =>
      obtain ⟨hstage, hgate, hinstrument⟩ := ih
      have hnot : (channel.after rate (channel.gate + (n + 1))).envelope.stage.isHeld = false := by
        rw [hstage]
        exact Envelope.isHeld_advance_iterate_of_not rfl (n + 1)
      obtain ⟨hstage', hgate', hinstrument'⟩ := stage_render_of_not_isHeld rate hnot hgate
      rw [hstage, hinstrument] at hstage'
      refine ⟨?_, hgate', hinstrument'.trans hinstrument⟩
      rw [Function.iterate_succ_apply']
      exact hstage'

/-- The three parts of a note: it is held, it fades, and it is over. -/
theorem stage_after (h : channel.envelope.stage.isHeld = true) {fade : Nat}
    (hfade : Envelope.LastsFor channel.instrument.adsr.release (1 / rate) fade) (n : Nat) :
    (n ≤ channel.gate → (channel.after rate n).envelope.stage.isHeld = true) ∧
      (channel.gate < n → n < channel.gate + fade →
        (channel.after rate n).envelope.stage.isReleasing = true) ∧
      (channel.gate + fade ≤ n → (channel.after rate n).envelope.stage = .idle) := by
  refine ⟨fun hn => (held_after rate h hn).1, fun hgate hlt => ?_, fun hle => ?_⟩
  · obtain ⟨k, rfl⟩ : ∃ k, n = channel.gate + (k + 1) := ⟨n - channel.gate - 1, by omega⟩
    rw [(fading_after rate h k).1, Envelope.advance_iterate_release hfade (by omega)]
    rfl
  · obtain ⟨k, rfl⟩ : ∃ k, n = channel.gate + (fade + k) := ⟨n - channel.gate - fade, by omega⟩
    obtain ⟨last, hlast⟩ := Nat.exists_eq_add_one_of_ne_zero
      (Nat.add_pos_left hfade.pos k).ne'
    rw [hlast, (fading_after rate h last).1, ← hlast]
    exact Envelope.advance_iterate_idle hfade k

theorem isActive_after_iff (h : channel.envelope.stage.isHeld = true) {fade : Nat}
    (hfade : Envelope.LastsFor channel.instrument.adsr.release (1 / rate) fade) (n : Nat) :
    (channel.after rate n).isActive = true ↔ n < channel.gate + fade := by
  obtain ⟨hheld, hfading, hidle⟩ := stage_after rate h hfade n
  constructor
  · intro hactive
    by_contra hle
    rw [isActive_eq_false_iff.mpr (hidle (not_lt.mp hle))] at hactive
    exact Bool.false_ne_true hactive
  · intro hlt
    rcases Nat.lt_or_ge channel.gate n with hgate | hgate
    · exact isActive_of_isReleasing (hfading hgate hlt)
    · exact isActive_of_isHeld (hheld hgate)

theorem isReleasing_after_iff (h : channel.envelope.stage.isHeld = true) {fade : Nat}
    (hfade : Envelope.LastsFor channel.instrument.adsr.release (1 / rate) fade) (n : Nat) :
    (channel.after rate n).envelope.stage.isReleasing = true ↔
      channel.gate < n ∧ n < channel.gate + fade := by
  obtain ⟨hheld, hfading, hidle⟩ := stage_after rate h hfade n
  refine ⟨fun hreleasing => ⟨?_, ?_⟩, fun hn => hfading hn.1 hn.2⟩
  · by_contra hgate
    rw [Stage.isReleasing_of_isHeld (hheld (not_lt.mp hgate))] at hreleasing
    exact Bool.false_ne_true hreleasing
  · by_contra hle
    rw [hidle (not_lt.mp hle)] at hreleasing
    exact Bool.false_ne_true hreleasing

end Channel

/-- The instruments have the same releases among numbers of which some are infinite or none. -/
theorem Instrument.release_forVoice (role : Role) (voice : Voice τ) :
    (forVoice role voice : Instrument Extended).adsr.release =
      .finite (forVoice role voice : Instrument Rat).adsr.release := by
  cases voice with
  | tone frequency => cases role <;> rfl
  | kick => rfl
  | snare => rfl

namespace Channel

variable [Zero τ] [Narrowing τ Extended] [Waveform Extended]

/-- How long a note sounds.  On a channel in any state a note begins, of any part, voice and volume, and
nothing follows but samples at a positive rate.  The channel is active for the samples of the gate and
then for the least number of samples, at least one, that lasts as long as the release; it fades only in
the second part; and every later sample is zero and changes nothing. -/
theorem noteOn_lasts (channel : Channel Extended) (role : Role) (voice : Voice τ) (volume : Extended)
    (samples : Nat) {rate : Rat} (hrate : 0 < rate) :
    let release := (Instrument.forVoice role voice : Instrument Rat).adsr.release
    let length := samples + max 1 ⌈release * rate⌉₊
    let note := channel.noteOn role voice volume samples
    ∀ n, let later := note.after (.finite rate) n
      (later.isActive = true ↔ n < length) ∧
        (later.envelope.stage.isReleasing = true ↔ samples < n ∧ n < length) ∧
        (length ≤ n → later.render (.finite rate) = (0, later)) := by
  intro release length note n later
  have hdt : (1 / .finite rate : Extended) = .finite (1 / rate) :=
    Extended.finite_div_finite 1 hrate.ne'
  have hfade : Envelope.LastsFor note.instrument.adsr.release (1 / .finite rate)
      (max 1 ⌈release * rate⌉₊) := by
    have hlasts := (Envelope.lastsFor_samplesOf release (one_div_pos.mpr hrate)).finite
    rw [Envelope.samplesOf, div_div_eq_mul_div, div_one] at hlasts
    rw [hdt]
    exact (Instrument.release_forVoice role voice).symm ▸ hlasts
  have hnote : note.envelope.stage.isHeld = true := rfl
  have hactive := isActive_after_iff (.finite rate) hnote hfade n
  refine ⟨hactive, isReleasing_after_iff (.finite rate) hnote hfade n, fun hle => ?_⟩
  exact render_of_idle (.finite rate) (Bool.eq_false_iff.mpr fun h => (hactive.mp h).not_ge hle)

end Channel

namespace Curves

/-- Curves that are straight lines. -/
scoped instance extendedWaveform : Waveform Extended := ⟨fun _ => 0, fun _ => 1⟩

scoped instance widening : Narrowing Rat Extended := ⟨.finite⟩

end Curves

namespace Channel

open Curves in
/-- A note that ends within its attack, on a channel that fades from what is no number. -/
theorem noteOn_lasts_within_attack :
    let channel : Channel Extended :=
      { silent .lead with envelope := ⟨.release (.finite (1 / 100)) .nan, .nan⟩ }
    let note := channel.noteOn .lead (.tone (440 : Rat)) (.infinite false) 3
    let later := note.after (.finite 1000)
    (0 : Rat) < 1000 ∧ (later 3).envelope.stage.isReleasing = false ∧
      (later 52).isActive = true ∧ (later 53).render (.finite 1000) = (0, later 53) := by
  intro channel note later
  have hrate : (0 : Rat) < 1000 := by norm_num
  have hlength : 3 + max 1 ⌈(Instrument.forVoice .lead (.tone (440 : Rat)) :
      Instrument Rat).adsr.release * 1000⌉₊ = 53 := by decide +kernel
  have hlasts := noteOn_lasts channel .lead (.tone (440 : Rat)) (.infinite false) 3 hrate
  dsimp only at hlasts
  rw [hlength] at hlasts
  refine ⟨hrate, Bool.eq_false_iff.mpr fun hreleasing => ?_, ?_, (hlasts 53).2.2 le_rfl⟩
  · exact absurd ((hlasts 3).2.1.mp hreleasing).1 (lt_irrefl 3)
  · exact (hlasts 52).1.mpr (by decide)

end Channel

end Chiptune
