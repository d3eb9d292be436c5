import Chiptune.Proofs.Fading
import Chiptune.Proofs.Levels

/-!
The shape of an envelope, in exact fractions.

Notes begin and are released at any time between two samples, also before the attack or the decay of
the note before is over.

Main statement: levels stay between silence and full level, rise through the attack of a note and fall
from then on; a release begins at the level of the last sample and reaches silence after the least
number of samples that lasts as long as it should.
-/
namespace Chiptune

open Set (Icc)

variable {γ : Type}

def Stage.isRising : Stage γ → Bool
  | .attack _ => true
  | .idle | .decay _ | .sustain | .release _ _ => false

inductive Gesture where
  | trigger
  | release
  /-- A sample is taken. -/
  | next
deriving DecidableEq, Repr

/-- An envelope, and the levels of the samples taken from it. -/
structure Contour (γ : Type) where
  envelope : Envelope γ
  levels : List γ

namespace Contour

variable [Scalar γ]

def initial : Contour γ := ⟨.idle, []⟩

def step (adsr : Adsr γ) (dt : γ) (contour : Contour γ) : Gesture → Contour γ
  | .trigger => { contour with envelope := contour.envelope.trigger }
  | .release => { contour with envelope := contour.envelope.release }
  | .next =>
    let envelope := contour.envelope.next adsr dt
    ⟨envelope, contour.levels ++ [envelope.level]⟩

def run (adsr : Adsr γ) (dt : γ) (contour : Contour γ) (gestures : List Gesture) : Contour γ :=
  gestures.foldl (step adsr dt) contour

variable {adsr : Adsr γ} {dt : γ}

/-- Samples alone take an envelope through its stages. -/
theorem stage_run_next (contour : Contour γ) (n : Nat) :
    (contour.run adsr dt (.replicate n .next)).envelope.stage =
      (Envelope.advance adsr dt)^[n] contour.envelope.stage := by
  induction n generalizing contour with
  | zero => rfl
  | succ n ih => exact ih (contour.step adsr dt .next)

theorem level_run_next (contour : Contour γ) (n : Nat) :
    (contour.run adsr dt (.replicate (n + 1) .next)).envelope.level =
      Envelope.levelAt adsr ((Envelope.advance adsr dt)^[n] contour.envelope.stage) := by
  rw [List.replicate_succ', run, List.foldl_append, ← stage_run_next]
  rfl

variable (adsr dt) in
/-- Without a trigger an envelope that does not hold a note goes through its stages, and the levels of
its samples are those of the stages. -/
theorem run_of_not_mem_trigger {contour : Contour γ} {later : List Gesture}
    (h : contour.envelope.stage.isHeld = false) (hlater : .trigger ∉ later) :
    (contour.run adsr dt later).envelope.stage =
        (Envelope.advance adsr dt)^[later.count .next] contour.envelope.stage ∧
      (contour.run adsr dt later).levels = contour.levels ++ (List.range (later.count .next)).map
        fun n => Envelope.levelAt adsr ((Envelope.advance adsr dt)^[n] contour.envelope.stage) := by
  induction later generalizing contour with
  | nil => exact ⟨rfl, (List.append_nil _).symm⟩
  | cons gesture later ih =>
      have hgesture := List.ne_of_not_mem_cons hlater
      have hrest := List.not_mem_of_not_mem_cons hlater
      cases gesture with
      | trigger => exact absurd rfl hgesture
      | release =>
          have hsame : contour.step adsr dt .release = contour := by
            rw [step, Envelope.release_of_not_isHeld h]
          rw [run, List.foldl_cons, hsame, List.count_cons_of_ne (by decide)]
          exact ih h hrest
      | next =>
          have hnext : (contour.step adsr dt .next).envelope.stage.isHeld = false :=
            Envelope.isHeld_advance_of_not h
          obtain ⟨hstage, hlevels⟩ := ih hnext hrest
          rw [List.count_cons_self]
          refine ⟨hstage, ?_⟩
          rw [run, List.foldl_cons]
          refine hlevels.trans ?_
          rw [List.range_succ_eq_map, List.map_cons, List.map_map]
          exact List.append_assoc ..

end Contour

namespace Envelope

variable {adsr : Adsr Rat} {dt : Rat} {stage : Stage Rat}

theorem progress_mono {length earlier later : Rat} (hlength : 0 ≤ length) (h : earlier ≤ later) :
    progress earlier length ≤ progress later length := by
  unfold progress Scalar.atMost
  have hdiv : earlier / length ≤ later / length := div_le_div_of_nonneg_right h hlength
  split
  · exact le_rfl
  · split
    · next hearlier =>
        split
        · exact hdiv
        · exact le_of_lt hearlier
    · next hearlier => rw [if_neg fun hlater => hearlier (hdiv.trans_lt hlater)]

/-- What rises has risen before, to no higher level. -/
theorem levelAt_le_of_isRising (hadsr : adsr.Proper) (hdt : 0 ≤ dt)
    (h : (advance adsr dt stage).isRising = true) :
    stage.isRising = true ∧ levelAt adsr stage ≤ levelAt adsr (advance adsr dt stage) := by
  cases stage with
  | attack time =>
      rw [advance] at h ⊢
      split at h
      · exact absurd h Bool.false_ne_true
      · next hlasts =>
          rw [if_neg hlasts]
          exact ⟨rfl, progress_mono hadsr.attack (le_add_of_nonneg_right hdt)⟩
  | idle | sustain => exact absurd h Bool.false_ne_true
  | decay _ | release _ _ =>
      rw [advance] at h
      split at h
      · exact absurd h Bool.false_ne_true
      · exact absurd h Bool.false_ne_true

/-- What does not rise does not rise later, and falls or stays. -/
theorem levelAt_advance_le (hadsr : adsr.Proper) (hdt : 0 ≤ dt) (hstage : stage.Proper)
    (h : stage.isRising = false) :
    (advance adsr dt stage).isRising = false ∧
      levelAt adsr (advance adsr dt stage) ≤ levelAt adsr stage := by
  cases stage with
  | attack _ => exact absurd h.symm Bool.false_ne_true
  | idle | sustain => exact ⟨rfl, le_rfl⟩
  | decay time =>
      have hfall : 0 ≤ 1 - adsr.sustain := sub_nonneg.mpr hadsr.sustain.2
      rw [advance]
      split
      · -- The decay ends no lower than the level that is held.
        have hpart := (progress_mem hstage hadsr.decay).2
        have hfallen := mul_le_of_le_one_right hfall hpart
        refine ⟨rfl, ?_⟩
        rw [levelAt, levelAt]
        linarith
      · have hmore := progress_mono hadsr.decay (le_add_of_nonneg_right (a := time) hdt)
        exact ⟨rfl, sub_le_sub_left (mul_le_mul_of_nonneg_left hmore hfall) 1⟩
  | release time origin =>
      rw [advance]
      split
      · exact ⟨rfl, (levelAt_mem hadsr hstage).1⟩
      · have hmore := progress_mono hadsr.release (le_add_of_nonneg_right (a := time) hdt)
        exact ⟨rfl, mul_le_mul_of_nonneg_left (sub_le_sub_left hmore 1) hstage.2.1⟩

theorem proper_advance_iterate (hdt : 0 ≤ dt) (hstage : stage.Proper) (n : Nat) :
    ((advance adsr dt)^[n] stage).Proper := by
  induction n with
  | zero => exact hstage
  | succ n ih =>
      rw [Function.iterate_succ_apply']
      exact proper_advance hdt ih

/-- Up to a sample in an attack the levels have risen. -/
theorem levelAt_iterate_le_of_isRising (hadsr : adsr.Proper) (hdt : 0 ≤ dt) {earlier later : Nat}
    (hle : earlier ≤ later) (h : ((advance adsr dt)^[later] stage).isRising = true) :
    levelAt adsr ((advance adsr dt)^[earlier] stage) ≤
      levelAt adsr ((advance adsr dt)^[later] stage) := by
  induction later, hle using Nat.le_induction with
  | base => exact le_rfl
  | succ later _ ih =>
      -- An attack can only be reached from an attack, so the rise is followed back to the start.
      rw [Function.iterate_succ_apply'] at h ⊢
      obtain ⟨hrising, hlevel⟩ := levelAt_le_of_isRising hadsr hdt h
      exact (ih hrising).trans hlevel

/-- From a sample outside an attack the levels fall or stay. -/
theorem levelAt_iterate_le (hadsr : adsr.Proper) (hdt : 0 ≤ dt) (hstage : stage.Proper)
    {earlier later : Nat} (hle : earlier ≤ later)
    (h : ((advance adsr dt)^[earlier] stage).isRising = false) :
    ((advance adsr dt)^[later] stage).isRising = false ∧
      levelAt adsr ((advance adsr dt)^[later] stage) ≤
        levelAt adsr ((advance adsr dt)^[earlier] stage) := by
  induction later, hle using Nat.le_induction with
  | base => exact ⟨h, le_rfl⟩
  | succ later _ ih =>
      have hproper : ((advance adsr dt)^[later] stage).Proper :=
        proper_advance_iterate hdt hstage later
      obtain ⟨hfalling, hlevel⟩ := levelAt_advance_le hadsr hdt hproper ih.1
      rw [Function.iterate_succ_apply']
      exact ⟨hfalling, hlevel.trans ih.2⟩

end Envelope

namespace Contour

variable {adsr : Adsr Rat} {dt : Rat} {contour : Contour Rat}

/-- Levels between silence and full level, the last of which the envelope holds. -/
structure Proper (contour : Contour Rat) : Prop where
  envelope : contour.envelope.Proper
  levels : ∀ level ∈ contour.levels, level ∈ Icc 0 1
  last : contour.envelope.level = contour.levels.getLast?.getD 0

theorem proper_initial : (initial : Contour Rat).Proper where
  envelope := Envelope.proper_idle
  levels := by simp [initial]
  last := rfl

theorem Proper.step (h : contour.Proper) (hadsr : adsr.Proper) (hdt : 0 ≤ dt) (gesture : Gesture) :
    (contour.step adsr dt gesture).Proper := by
  cases gesture with
  | trigger => exact ⟨h.envelope.trigger, h.levels, h.last⟩
  | release =>
      have hlevel : contour.envelope.release.level = contour.envelope.level := by
        unfold Envelope.release
        split <;> rfl
      exact ⟨h.envelope.release, h.levels, hlevel.trans h.last⟩
  | next =>
      have henvelope := h.envelope.next hadsr hdt
      refine ⟨henvelope, ?_, ?_⟩
      · intro level hmem
        rcases List.mem_append.mp hmem with hold | hnew
        · exact h.levels level hold
        · exact List.mem_singleton.mp hnew ▸ henvelope.level
      · simp [Contour.step]

theorem Proper.run (h : contour.Proper) (hadsr : adsr.Proper) (hdt : 0 ≤ dt)
    (gestures : List Gesture) : (contour.run adsr dt gestures).Proper := by
  induction gestures generalizing contour with
  | nil => exact h
  | cons gesture later ih => exact ih (h.step hadsr hdt gesture)

/-- A release that takes time begins at the level of the sample before it. -/
theorem level_next_release (h : contour.envelope.stage.isHeld = true) (hrelease : 0 < adsr.release) :
    ((contour.step adsr dt .release).step adsr dt .next).envelope.level = contour.envelope.level := by
  have hprogress : Envelope.progress 0 adsr.release = 0 := by
    unfold Envelope.progress Scalar.atMost
    rw [if_neg (by simpa using hrelease.ne'), zero_div, if_pos zero_lt_one]
  have hlevel : ((contour.step adsr dt .release).step adsr dt .next).envelope.level =
      contour.envelope.level * (1 - Envelope.progress 0 adsr.release) := by
    simp only [step, Envelope.release_of_isHeld h, Envelope.next, Envelope.levelAt]
  rw [hlevel, hprogress, sub_zero, mul_one]

/-- After a release, and without another trigger, an envelope is idle from the sample on that ends its
fade, and every level from there on is zero. -/
theorem idle_after_release (h : contour.envelope.stage.isHeld = true) (hdt : 0 < dt)
    {later : List Gesture} (hlater : .trigger ∉ later) :
    let after := (contour.step adsr dt .release).run adsr dt later
    let fade := Envelope.samplesOf adsr.release dt
    (after.envelope.isIdle = true ↔ fade ≤ later.count .next) ∧
      ∀ level ∈ after.levels.drop (contour.levels.length + fade), level = 0 := by
  intro after fade
  have hfade := Envelope.lastsFor_samplesOf adsr.release hdt
  have hreleased : (contour.step adsr dt .release).envelope.stage =
      .release 0 contour.envelope.level :=
    congrArg Envelope.stage (Envelope.release_of_isHeld h)
  have hnotHeld : (contour.step adsr dt .release).envelope.stage.isHeld = false := hreleased ▸ rfl
  obtain ⟨hstage, hlevels⟩ := run_of_not_mem_trigger adsr dt hnotHeld hlater
  rw [hreleased] at hstage hlevels
  have hidle (n : Nat) : (Envelope.advance adsr dt)^[n] (.release 0 contour.envelope.level) = .idle ↔
      fade ≤ n := by
    constructor
    · intro hidle
      by_contra hlt
      rw [Envelope.advance_iterate_release hfade (not_le.mp hlt)] at hidle
      cases hidle
    · intro hle
      obtain ⟨more, rfl⟩ := Nat.exists_eq_add_of_le hle
      exact Envelope.advance_iterate_idle hfade more
  constructor
  · rw [← hidle, ← hstage]
    exact Envelope.isIdle_iff
  · intro level hmem
    have hsame : (contour.step adsr dt .release).levels = contour.levels := rfl
    rw [hlevels, hsame, List.drop_length_add_append, List.mem_drop_iff_getElem] at hmem
    obtain ⟨n, _, rfl⟩ := hmem
    rw [List.getElem_map, List.getElem_range, (hidle (fade + n)).mpr (Nat.le_add_right fade n),
      Envelope.levelAt]

/-- The shape of an envelope.  Its segments take no negative time and it holds a level between silence
and full level; it is triggered, released and sampled in any order.  Then every level lies between
silence and full level.  If only samples follow, their levels have risen up to each one taken in an
attack, and fall or stay from each one taken outside of it.  If a note is held and is released now, then
the next level is the last one before it, if the release takes time; and until there is another trigger
the envelope is idle from the sample on that completes the release, and not before, and every later
level is zero. -/
theorem contour_shape {adsr : Adsr Rat} (hadsr : adsr.Proper) {dt : Rat} (hdt : 0 < dt)
    (gestures : List Gesture) :
    let contour := (initial : Contour Rat).run adsr dt gestures
    (∀ level ∈ contour.levels, level ∈ Icc 0 1) ∧
      (∀ earlier later, earlier ≤ later →
        let stage n := (contour.run adsr dt (.replicate n .next)).envelope.stage
        let level n := (contour.run adsr dt (.replicate (n + 1) .next)).envelope.level
        ((stage later).isRising = true → level earlier ≤ level later) ∧
          ((stage earlier).isRising = false → level later ≤ level earlier)) ∧
      (contour.envelope.stage.isHeld = true →
        let released := contour.step adsr dt .release
        let fade := max 1 ⌈adsr.release / dt⌉₊
        (0 < adsr.release →
          (released.step adsr dt .next).envelope.level = contour.levels.getLast?.getD 0) ∧
        ∀ later, .trigger ∉ later →
          let after := released.run adsr dt later
          (after.envelope.isIdle = true ↔ fade ≤ later.count .next) ∧
            ∀ level ∈ after.levels.drop (contour.levels.length + fade), level = 0) := by
  intro contour
  have hproper : contour.Proper := proper_initial.run hadsr hdt.le gestures
  refine ⟨hproper.levels, fun earlier later hle => ?_, fun hheld => ⟨fun hrelease => ?_, ?_⟩⟩
  · simp only [stage_run_next, level_run_next]
    exact ⟨Envelope.levelAt_iterate_le_of_isRising hadsr hdt.le hle,
      fun h => (Envelope.levelAt_iterate_le hadsr hdt.le hproper.envelope.stage hle h).2⟩
  · exact (level_next_release hheld hrelease).trans hproper.last
  · exact fun later hlater => idle_after_release hheld hdt hlater

/-- A note that is released and begun anew in its attack, and released once more before the attack is
over. -/
theorem contour_shape_of_broken_attack :
    let adsr : Adsr Rat := ⟨1 / 100, 0, 1 / 2, 1 / 100⟩
    let dt : Rat := 3 / 1000
    let gestures : List Gesture :=
      [.trigger, .next, .next, .next, .release, .next, .trigger, .next, .next]
    let later : List Gesture := [.next, .next, .release, .next, .next, .next]
    let contour := (initial : Contour Rat).run adsr dt gestures
    let released := contour.step adsr dt .release
    let level n := (contour.run adsr dt (.replicate (n + 1) .next)).envelope.level
    ((adsr.Proper ∧ 0 < dt ∧ 0 < adsr.release) ∧
      (contour.envelope.stage.isHeld = true ∧ .trigger ∉ later) ∧
      (contour.run adsr dt (.replicate 1 .next)).envelope.stage.isRising = true) ∧
    contour.levels = [0, 3 / 10, 3 / 5, 3 / 5, 0, 3 / 10] ∧ level 0 ≤ level 1 ∧
      (released.step adsr dt .next).envelope.level = 3 / 10 ∧
      (released.run adsr dt later).envelope.isIdle = true := by
  intro adsr dt gestures later contour released level
  have hadsr : adsr.Proper := by decide +kernel
  have hdt : 0 < dt := by decide +kernel
  have hrelease : 0 < adsr.release := by decide +kernel
  have hheld : contour.envelope.stage.isHeld = true := by decide +kernel
  have hlater : .trigger ∉ later := by decide
  have hrising : (contour.run adsr dt (.replicate 1 .next)).envelope.stage.isRising = true := by
    decide +kernel
  have hlevels : contour.levels = [0, 3 / 10, 3 / 5, 3 / 5, 0, 3 / 10] := by decide +kernel
  have hlast : contour.levels.getLast?.getD 0 = 3 / 10 := by
    rw [hlevels]
    rfl
  have hfade : max 1 ⌈adsr.release / dt⌉₊ = 4 := by decide +kernel
  obtain ⟨-, hbetween, hreleased⟩ := contour_shape hadsr hdt gestures
  have hnext := (hreleased hheld).1 hrelease
  have hidle := ((hreleased hheld).2 later hlater).1
  rw [hfade] at hidle
  exact ⟨⟨⟨hadsr, hdt, hrelease⟩, ⟨hheld, hlater⟩, hrising⟩, hlevels,
    (hbetween 0 1 (Nat.zero_le 1)).1 hrising, hnext.trans hlast, hidle.mpr (by decide)⟩

end Contour

end Chiptune
