import Chiptune.Proofs.Extended
import Chiptune.Proofs.Tick

/-!
Compiled songs and ticks in extended time, where a tempo or a length of zero makes a note endless and
a song may have a loop that never comes round.

Main statement: at a clock time that is a fraction, a tick finds the current cycle begun at a fraction
and the next one still to come, and hands out nothing that is past its time.
-/
namespace Chiptune

open Extended

variable {γ : Type}

namespace Octaves

/-- The same tuning in extended time. -/
scoped instance extendedTuning : Tuning Extended :=
  ⟨fun semitones => finite (440 * 2 ^ (semitones / 12))⟩

end Octaves

namespace Notation.Settings

variable [Scalar γ]

/-- No command makes tempo, length or time negative, or no number. -/
structure Forward (settings : Settings Extended) : Prop where
  tempo : 0 ≤ settings.tempo
  length : 0 ≤ settings.length
  time : 0 ≤ settings.time

theorem forward_initial : (Settings.initial : Settings Extended).Forward :=
  ⟨natCast_nonneg 120, natCast_nonneg 4, finite_le_finite.mpr le_rfl⟩

theorem Forward.duration_nonneg {settings : Settings Extended} (h : settings.Forward)
    (length : Option Nat) : 0 ≤ settings.duration (length.map Nat.cast) := by
  have hlength : 0 ≤ (length.map (Nat.cast : Nat → Extended)).getD settings.length := by
    cases length with
    | none => exact h.length
    | some n => exact natCast_nonneg n
  have hbeat : 0 ≤ ((60 : Nat) : Extended) / settings.tempo := by
    rw [natCast_eq_finite (by norm_num)]
    exact div_nonneg_of_pos (by norm_num) h.tempo
  have hpart : 0 ≤ ((4 : Nat) : Extended) /
      (length.map (Nat.cast : Nat → Extended)).getD settings.length := by
    rw [natCast_eq_finite (by norm_num)]
    exact div_nonneg_of_pos (by norm_num) hlength
  unfold duration
  dsimp only
  split
  · exact finite_le_finite.mpr le_rfl
  · next hnumber =>
      rcases mul_nonneg_or_eq_nan hbeat hpart with hnonneg | hnan
      · exact hnonneg
      · exact absurd (decide_eq_true hnan) hnumber

theorem Forward.sound {settings : Settings Extended} (h : settings.Forward)
    (voice : Option (Voice Extended)) (length : Option Nat) :
    let sounded := settings.sound (γ := γ) voice length
    (∀ event ∈ sounded.1, 0 ≤ event.start) ∧ sounded.2.Forward := by
  refine ⟨?_, h.tempo, h.length, Extended.add_nonneg h.time (h.duration_nonneg length)⟩
  intro event hevent
  obtain ⟨voice, _, rfl⟩ := List.mem_map.mp hevent
  exact h.time

variable [Tuning Extended]

theorem Forward.step {settings : Settings Extended} (h : settings.Forward) (token : Token) :
    let stepped := settings.step (γ := γ) token
    (∀ event ∈ stepped.1, 0 ≤ event.start) ∧ stepped.2.Forward := by
  cases token with
  | note letter accidental length => exact h.sound _ length
  | drum drum length => exact h.sound _ length
  | rest length => exact h.sound _ length
  | tempo value =>
      cases value with
      | none => exact ⟨by simp [Settings.step], h⟩
      | some value =>
          simp only [Settings.step]
          exact ⟨by simp, natCast_nonneg value, h.length, h.time⟩
  | octave value => cases value <;> exact ⟨by simp [Settings.step], h.tempo, h.length, h.time⟩
  | length value =>
      cases value with
      | none => exact ⟨by simp [Settings.step], h⟩
      | some value =>
          simp only [Settings.step]
          exact ⟨by simp, h.tempo, natCast_nonneg value, h.time⟩
  | octaveUp => exact ⟨by simp [Settings.step], h.tempo, h.length, h.time⟩
  | octaveDown => exact ⟨by simp [Settings.step], h.tempo, h.length, h.time⟩
  | other character => exact ⟨by simp [Settings.step], h⟩

theorem Forward.run {settings : Settings Extended} (h : settings.Forward) (tokens : List Token) :
    ∀ event ∈ (settings.run (γ := γ) tokens).1, 0 ≤ event.start := by
  induction tokens generalizing settings with
  | nil => simp [Settings.run]
  | cons token rest ih =>
      obtain ⟨hevents, hstep⟩ := h.step (γ := γ) token
      intro event hevent
      rcases List.mem_append.mp hevent with hnow | hlater
      · exact hevents event hnow
      · exact ih hstep event hlater

end Notation.Settings

namespace Composition

/-- No event begins before the loop does. -/
def FromZero (composition : Composition Extended γ) : Prop :=
  ∀ role, ∀ event ∈ composition.tracks.get role, 0 ≤ event.start

theorem fromZero_compile [Scalar γ] [Tuning Extended] (id : Nat) (texts : PerRole String) :
    (compile id texts : Composition Extended γ).FromZero := by
  intro role
  have htrack : (compile (γ := γ) id texts : Composition Extended γ).tracks.get role =
      Notation.compile (texts.get role) := PerRole.get_map _ _ _
  rw [htrack]
  exact Notation.Settings.forward_initial.run _

/-- A loop that is not silent has a length, which may be infinite. -/
theorem loopLength_of_not_degenerate {composition : Composition Extended γ}
    (h : composition.isDegenerate = false) :
    (∃ length : Rat, 0 < length ∧ composition.loopLength = finite length) ∨
      composition.loopLength = infinite false := by
  have hlength : composition.loopLength ≠ nan ∧ ¬ composition.loopLength ≤ 0 := by
    simpa [isDegenerate, Scalar.isNaN] using h
  obtain ⟨hnumber, hpos⟩ := hlength
  cases hloop : composition.loopLength with
  | nan => exact absurd hloop hnumber
  | finite length =>
      rw [hloop] at hpos
      exact .inl ⟨length, not_le.mp fun hle => hpos (finite_le_finite.mpr hle), rfl⟩
  | infinite negative =>
      rw [hloop] at hpos
      cases negative with
      | false => exact .inr rfl
      | true => exact absurd (le_iff.mpr (.inl rfl)) hpos

end Composition

namespace Scheduler

variable {now anchor : Rat}

/-- With fractions, as many cycles have passed as outside the extended numbers. -/
theorem cyclesPassed_finite {length : Rat} (hlength : 0 < length) :
    cyclesPassed (finite length) (finite now) (finite anchor) =
      (cyclesPassed length now anchor).map finite := by
  have hatLeast (x : Rat) : Scalar.atLeast 1 (finite x) = finite (Scalar.atLeast 1 x) := by
    unfold Scalar.atLeast
    rw [one_eq_finite]
    simp only [finite_lt_finite]
    split <;> rfl
  have hfloor : Scalar.floor (finite (now - anchor) / finite length) =
      finite (Scalar.floor ((now - anchor) / length)) := by
    rw [finite_div_finite _ hlength.ne']
    rfl
  unfold cyclesPassed
  simp only [finite_sub_finite, finite_le_finite, hfloor, hatLeast]
  split <;> rfl

theorem cyclesPassed_infinite :
    cyclesPassed (infinite false) (finite now) (finite anchor) = none := by
  unfold cyclesPassed
  simp [le_iff]

theorem nextCycle_finite (heads : PerRole Playhead) (cycles : Rat) :
    nextCycle (finite cycles) heads = nextCycle cycles heads := by
  unfold nextCycle
  rw [one_eq_finite, finite_beq_finite]

/-- Where a tick stands after the turn of the loop: it has skipped some cycles, and the next one is
still to come. -/
structure Turned (loopLength : Extended) (now anchor : Rat) (cycles : Nat) (begun : Rat) :
    Prop where
  next : finite now < finite begun + loopLength
  begun_eq : ∀ length, loopLength = finite length → begun = anchor + cycles * length

variable {composition : Composition Extended γ}

/-- A tick of a song whose loop has a length. -/
theorem tick_of_length {length : Rat} (hlength : 0 < length)
    (hloop : composition.loopLength = finite length) (scheduler : Scheduler Extended)
    (now anchor : Rat) :
    scheduler.tick composition (finite now) (finite anchor) =
      let cycles := turns length now anchor
      let begun := finite (anchor + cycles * length)
      let passes := passAll composition (headsAfter scheduler.heads cycles) (finite now) begun
        (finite now + scheduler.lookahead)
      let scheduled := passes.toList.flatMap Pass.scheduled
      { scheduler := { scheduler with heads := passes.map Pass.head }
        report := ⟨begun, decide (cycles ≠ 0), scheduled.length, (passes.map Pass.missed).total⟩
        cycles := if cycles = 0 then none else some (finite cycles)
        scheduled } := by
  have hdegenerate : composition.isDegenerate = false := by
    have hpositive : ¬ finite length ≤ 0 := fun hle => hlength.not_ge (finite_le_finite.mp hle)
    simp [Composition.isDegenerate, hloop, Scalar.isNaN, hpositive]
  unfold tick
  rw [hdegenerate, hloop, cyclesPassed_finite hlength, cyclesPassed_eq hlength]
  by_cases hcycles : turns length now anchor = 0
  · simp [hcycles, headsAfter]
  · simp [hcycles, nextCycle_finite, nextCycle_eq]

/-- A tick of a song that is not silent. -/
theorem tick_of_loop (scheduler : Scheduler Extended) (now anchor : Rat)
    (hloop : composition.isDegenerate = false) :
    ∃ cycles begun, Turned composition.loopLength now anchor cycles begun ∧
      scheduler.tick composition (finite now) (finite anchor) =
        let passes := passAll composition (headsAfter scheduler.heads cycles) (finite now)
          (finite begun) (finite now + scheduler.lookahead)
        let scheduled := passes.toList.flatMap Pass.scheduled
        { scheduler := { scheduler with heads := passes.map Pass.head }
          report := ⟨finite begun, decide (cycles ≠ 0), scheduled.length,
            (passes.map Pass.missed).total⟩
          cycles := if cycles = 0 then none else some (finite cycles)
          scheduled } := by
  rcases Composition.loopLength_of_not_degenerate hloop with ⟨length, hlength, heq⟩ | heq
  · refine ⟨turns length now anchor, anchor + turns length now anchor * length, ⟨?_, ?_⟩,
      tick_of_length hlength heq scheduler now anchor⟩
    · have hturn : now < anchor + (turns length now anchor + 1) * length :=
        lt_turns_succ_mul hlength
      rw [heq, finite_add_finite, finite_lt_finite]
      linarith
    · rintro _ h
      rw [heq, finite.injEq] at h
      rw [h]
  · refine ⟨0, anchor, ⟨?_, ?_⟩, ?_⟩
    · rw [heq, finite_add_infinite, finite_lt_infinite]
    · rintro _ h
      rw [heq] at h
      exact absurd h (by simp)
    · unfold tick
      rw [hloop, heq, cyclesPassed_infinite]
      simp [headsAfter]

end Scheduler

end Chiptune
