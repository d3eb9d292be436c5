import Chiptune.Proofs.Extended
import Chiptune.Scalar.Exact
import Chiptune.Synth.Envelope

/-!
How long a released note fades.

The seconds spent in a stage are added up sample by sample, so a fade ends with the first sample at
which the sum has reached the length of the release.

Main statements: an envelope that fades is idle from that sample on and not before; in exact
fractions it is the least whole number of samples that lasts as long as the release, and at least
one.
-/
namespace Chiptune

variable {γ : Type}

namespace Stage

/-- Whether a note is held: it has begun and has not been released. -/
def isHeld : Stage γ → Bool
  | .attack _ | .decay _ | .sustain => true
  | .idle | .release _ _ => false

def isReleasing : Stage γ → Bool
  | .release _ _ => true
  | .idle | .attack _ | .decay _ | .sustain => false

theorem isReleasing_of_isHeld {stage : Stage γ} (h : stage.isHeld = true) :
    stage.isReleasing = false := by
  cases stage with
  | attack _ | decay _ | sustain => rfl
  | idle | release _ _ => exact absurd h Bool.false_ne_true

end Stage

namespace Envelope

theorem isIdle_iff {envelope : Envelope γ} : envelope.isIdle = true ↔ envelope.stage = .idle := by
  unfold isIdle
  split
  · next hstage => simp [hstage]
  · next hstage => simpa using hstage

variable [Scalar γ]

/-- Seconds that a number of samples add up to. -/
def elapsed (dt : γ) : Nat → γ
  | 0 => 0
  | n + 1 => elapsed dt n + dt

/-- A segment of some length is over after a number of samples, and not before. -/
structure LastsFor (length dt : γ) (samples : Nat) : Prop where
  pos : 0 < samples
  reached : length ≤ elapsed dt samples
  before : ∀ n, 0 < n → n < samples → ¬ length ≤ elapsed dt n

variable {adsr : Adsr γ} {dt origin : γ} {stage : Stage γ} {samples : Nat}

theorem advance_idle : advance adsr dt .idle = .idle := rfl

/-- A note that is held stays so, whatever the times of its segments. -/
theorem isHeld_advance (h : stage.isHeld = true) : (advance adsr dt stage).isHeld = true := by
  cases stage with
  | idle => exact absurd h Bool.false_ne_true
  | attack time =>
      rw [advance]
      split <;> rfl
  | decay time =>
      rw [advance]
      split <;> rfl
  | sustain => rfl
  | release time origin => exact absurd h Bool.false_ne_true

/-- A note that is not held is not held later. -/
theorem isHeld_advance_of_not (h : stage.isHeld = false) :
    (advance adsr dt stage).isHeld = false := by
  cases stage with
  | idle => rfl
  | release _ _ =>
      rw [advance]
      split <;> rfl
  | attack _ | decay _ | sustain => exact absurd h.symm Bool.false_ne_true

theorem isHeld_advance_iterate_of_not (h : stage.isHeld = false) (n : Nat) :
    ((advance adsr dt)^[n] stage).isHeld = false := by
  induction n with
  | zero => exact h
  | succ n ih =>
      rw [Function.iterate_succ_apply']
      exact isHeld_advance_of_not ih

theorem release_of_isHeld {envelope : Envelope γ} (h : envelope.stage.isHeld = true) :
    envelope.release = ⟨.release 0 envelope.level, envelope.level⟩ := by
  obtain ⟨stage, level⟩ := envelope
  cases stage with
  | attack _ | decay _ | sustain => rfl
  | idle | release _ _ => exact absurd h Bool.false_ne_true

theorem release_of_not_isHeld {envelope : Envelope γ} (h : envelope.stage.isHeld = false) :
    envelope.release = envelope := by
  obtain ⟨stage, level⟩ := envelope
  cases stage with
  | idle | release _ _ => rfl
  | attack _ | decay _ | sustain => exact absurd h.symm Bool.false_ne_true

/-- A released note fades until its release is over. -/
theorem advance_iterate_release (h : LastsFor adsr.release dt samples) {n : Nat}
    (hn : n < samples) :
    (advance adsr dt)^[n] (.release 0 origin) = .release (elapsed dt n) origin := by
  induction n with
  | zero => rfl
  | succ n ih =>
      rw [Function.iterate_succ_apply', ih (by omega), advance]
      exact if_neg (h.before (n + 1) n.succ_pos hn)

/-- From then on it is idle. -/
theorem advance_iterate_idle (h : LastsFor adsr.release dt samples) (n : Nat) :
    (advance adsr dt)^[samples + n] (.release 0 origin) = .idle := by
  induction n with
  | zero =>
      obtain ⟨last, rfl⟩ := Nat.exists_eq_succ_of_ne_zero h.pos.ne'
      rw [Nat.add_zero, Function.iterate_succ_apply', advance_iterate_release h last.lt_succ_self,
        advance]
      exact if_pos h.reached
  | succ n ih => rw [← Nat.add_assoc, Function.iterate_succ_apply', ih, advance_idle]

theorem elapsed_eq_mul (dt : Rat) (n : Nat) : elapsed dt n = n * dt := by
  induction n with
  | zero => exact (by simp : (0 : Rat) = (0 : Nat) * dt)
  | succ n ih =>
      rw [elapsed, ih]
      push_cast
      ring

theorem elapsed_finite (dt : Rat) (n : Nat) :
    elapsed (Extended.finite dt) n = .finite (elapsed dt n) := by
  induction n with
  | zero => rfl
  | succ n ih => rw [elapsed, ih, Extended.finite_add_finite, elapsed]

/-- Samples that a segment of some length lasts for. -/
def samplesOf (length dt : Rat) : Nat := max 1 ⌈length / dt⌉₊

theorem samplesOf_pos (length dt : Rat) : 0 < samplesOf length dt :=
  Nat.one_pos.trans_le (le_max_left ..)

theorem length_le_elapsed_iff {length dt : Rat} (hdt : 0 < dt) {n : Nat} (hn : 0 < n) :
    length ≤ elapsed dt n ↔ samplesOf length dt ≤ n := by
  rw [elapsed_eq_mul, samplesOf, max_le_iff, Nat.ceil_le, div_le_iff₀ hdt]
  exact (and_iff_right hn).symm

theorem lastsFor_samplesOf (length : Rat) {dt : Rat} (hdt : 0 < dt) :
    LastsFor length dt (samplesOf length dt) where
  pos := samplesOf_pos length dt
  reached := (length_le_elapsed_iff hdt (samplesOf_pos length dt)).mpr le_rfl
  before _ hn hlt hle := hlt.not_ge ((length_le_elapsed_iff hdt hn).mp hle)

/-- The same among numbers of which some are infinite or none. -/
theorem LastsFor.finite {length dt : Rat} (h : LastsFor length dt samples) :
    LastsFor (Extended.finite length) (.finite dt) samples where
  pos := h.pos
  reached := by simpa [elapsed_finite] using h.reached
  before := by simpa [elapsed_finite] using h.before

end Envelope

end Chiptune
