import Mathlib
import Chiptune.Composition
import Chiptune.Scalar.Exact

/-!
Compiled tracks in exact time: the events of a track follow one another without overlap, and none
begins before the loop or after its end.
-/
namespace Chiptune

variable {γ : Type}

/-- Events that follow one another between two times, each beginning no earlier than the one before
it ends. -/
structure Paced (first last : Rat) (events : List (NoteEvent Rat γ)) : Prop where
  le : first ≤ last
  forward : ∀ event ∈ events, 0 ≤ event.duration
  apart : events.Pairwise fun earlier later => earlier.finish ≤ later.start
  begins : ∀ event ∈ events, first ≤ event.start
  ends : ∀ event ∈ events, event.finish ≤ last

namespace Paced

variable {first middle last : Rat} {events later : List (NoteEvent Rat γ)}

theorem nil (h : first ≤ last) : Paced first last ([] : List (NoteEvent Rat γ)) :=
  ⟨h, by simp, .nil, by simp, by simp⟩

theorem append (h : Paced first middle events) (hlater : Paced middle last later) :
    Paced first last (events ++ later) where
  le := h.le.trans hlater.le
  forward event hevent := by
    rcases List.mem_append.mp hevent with hevent | hevent
    · exact h.forward event hevent
    · exact hlater.forward event hevent
  apart := by
    refine List.pairwise_append.mpr ⟨h.apart, hlater.apart, ?_⟩
    intro a ha b hb
    exact (h.ends a ha).trans (hlater.begins b hb)
  begins event hevent := by
    rcases List.mem_append.mp hevent with hevent | hevent
    · exact h.begins event hevent
    · exact h.le.trans (hlater.begins event hevent)
  ends event hevent := by
    rcases List.mem_append.mp hevent with hevent | hevent
    · exact (h.ends event hevent).trans hlater.le
    · exact hlater.ends event hevent

theorem start_le_finish (h : Paced first last events) {event : NoteEvent Rat γ}
    (hevent : event ∈ events) : event.start ≤ event.finish :=
  le_add_of_nonneg_right (h.forward event hevent)

theorem sorted (h : Paced first last events) :
    events.Pairwise fun earlier later => earlier.start ≤ later.start := by
  apply h.apart.imp_of_mem
  intro a b ha _ hab
  exact (h.start_le_finish ha).trans hab

/-- The last event of a track is the last to end. -/
theorem finish_le_trackLength (h : Paced first last events) {event : NoteEvent Rat γ}
    (hevent : event ∈ events) : event.finish ≤ Composition.trackLength events := by
  induction events using List.reverseRecOn with
  | nil => simp at hevent
  | append_singleton pre final _ =>
      have hlength : Composition.trackLength (pre ++ [final]) = final.finish := by
        simp [Composition.trackLength]
      rw [hlength]
      rcases List.mem_append.mp hevent with hpre | hfinal
      · have hapart := (List.pairwise_append.mp h.apart).2.2 event hpre final (by simp)
        exact hapart.trans (h.start_le_finish (by simp))
      · rw [List.mem_singleton.mp hfinal]

end Paced

namespace Notation.Settings

variable [Scalar γ]

/-- Tempo and length are never negative. -/
def Plain (settings : Settings Rat) : Prop := 0 ≤ settings.tempo ∧ 0 ≤ settings.length

theorem plain_initial : (Settings.initial : Settings Rat).Plain := by
  constructor
  · exact Nat.cast_nonneg (α := Rat) 120
  · exact Nat.cast_nonneg (α := Rat) 4

theorem duration_nonneg {settings : Settings Rat} (h : settings.Plain) (length : Option Nat) :
    0 ≤ settings.duration (length.map Nat.cast) := by
  have hlength : 0 ≤ (length.map (Nat.cast : Nat → Rat)).getD settings.length := by
    cases length with
    | none => exact h.2
    | some n => exact Nat.cast_nonneg (α := Rat) n
  change 0 ≤ ((60 : Nat) / settings.tempo) *
    ((4 : Nat) / (length.map (Nat.cast : Nat → Rat)).getD settings.length)
  have htempo := h.1
  positivity

theorem sound_paced {settings : Settings Rat} (h : settings.Plain) (voice : Option (Voice Rat))
    (length : Option Nat) :
    let sounded := settings.sound (γ := γ) voice length
    Paced settings.time sounded.2.time sounded.1 ∧ sounded.2.Plain := by
  have hduration := duration_nonneg h length
  have hle : settings.time ≤ settings.time + settings.duration (length.map Nat.cast) :=
    le_add_of_nonneg_right hduration
  refine ⟨?_, h⟩
  cases voice with
  | none => exact .nil hle
  | some voice =>
      refine ⟨hle, ?_, List.pairwise_singleton _ _, ?_, ?_⟩
      all_goals
        intro event hevent
        rw [sound, Option.toList_some, List.map_singleton, List.mem_singleton] at hevent
        subst hevent
      · exact hduration
      · exact le_rfl
      · exact le_rfl

variable [Tuning Rat]

theorem step_paced {settings : Settings Rat} (h : settings.Plain) (token : Token) :
    let stepped := settings.step (γ := γ) token
    Paced settings.time stepped.2.time stepped.1 ∧ stepped.2.Plain := by
  cases token with
  | note letter accidental length => exact sound_paced h _ length
  | drum drum length => exact sound_paced h _ length
  | rest length => exact sound_paced h _ length
  | tempo value =>
      cases value with
      | none => exact ⟨.nil le_rfl, h⟩
      | some value => exact ⟨.nil le_rfl, Nat.cast_nonneg (α := Rat) value, h.2⟩
  | octave value => cases value <;> exact ⟨.nil le_rfl, h⟩
  | length value =>
      cases value with
      | none => exact ⟨.nil le_rfl, h⟩
      | some value => exact ⟨.nil le_rfl, h.1, Nat.cast_nonneg (α := Rat) value⟩
  | octaveUp => exact ⟨.nil le_rfl, h⟩
  | octaveDown => exact ⟨.nil le_rfl, h⟩
  | other character => exact ⟨.nil le_rfl, h⟩

theorem run_paced {settings : Settings Rat} (h : settings.Plain) (tokens : List Token) :
    let ran := settings.run (γ := γ) tokens
    Paced settings.time ran.2.time ran.1 := by
  induction tokens generalizing settings with
  | nil => exact .nil le_rfl
  | cons token rest ih =>
      obtain ⟨hstep, hplain⟩ := step_paced (γ := γ) h token
      exact hstep.append (ih hplain)

end Notation.Settings

namespace Composition

/-- A composition whose events are in order, begin at zero or later, and end by the end of the
loop. -/
structure WellTimed (composition : Composition Rat γ) : Prop where
  sorted : ∀ role, (composition.tracks.get role).Pairwise fun earlier later =>
    earlier.start ≤ later.start
  nonneg : ∀ role, ∀ event ∈ composition.tracks.get role, 0 ≤ event.start
  bounded : ∀ role, ∀ event ∈ composition.tracks.get role, event.start ≤ composition.loopLength

theorem le_atLeast (bound x : Rat) : bound ≤ Scalar.atLeast bound x ∧ x ≤ Scalar.atLeast bound x := by
  unfold Scalar.atLeast
  split
  · next h => exact ⟨h.le, le_rfl⟩
  · next h => exact ⟨le_rfl, not_lt.mp h⟩

theorem trackLength_le_longest (tracks : PerRole (List (NoteEvent Rat γ))) (role : Role) :
    trackLength (tracks.get role) ≤ longest tracks := by
  have hfold (lengths : List Rat) : ∀ start : Rat,
      start ≤ lengths.foldl Scalar.atLeast start ∧
        ∀ length ∈ lengths, length ≤ lengths.foldl Scalar.atLeast start := by
    induction lengths with
    | nil => simp
    | cons head rest ih =>
        intro start
        obtain ⟨hstart, hrest⟩ := ih (Scalar.atLeast start head)
        have hhead := le_atLeast start head
        refine ⟨hhead.1.trans hstart, ?_⟩
        intro length hlength
        rcases List.mem_cons.mp hlength with rfl | hlength
        · exact hhead.2.trans hstart
        · exact hrest length hlength
  apply (hfold _ 0).2
  rw [PerRole.mem_toList]
  exact ⟨role, (PerRole.get_map trackLength tracks role).symm⟩

variable [Scalar γ] [Tuning Rat]

theorem compile_paced (id : Nat) (texts : PerRole String) (role : Role) :
    ∃ last, Paced 0 last ((compile (γ := γ) id texts : Composition Rat γ).tracks.get role) := by
  have htrack : (compile (γ := γ) id texts : Composition Rat γ).tracks.get role =
      Notation.compile (texts.get role) := PerRole.get_map _ _ _
  rw [htrack]
  exact ⟨_, Notation.Settings.run_paced Notation.Settings.plain_initial _⟩

/-- Compiling gives events in order that lie inside the loop. -/
theorem wellTimed_compile (id : Nat) (texts : PerRole String) :
    (compile id texts : Composition Rat γ).WellTimed where
  sorted role := by
    obtain ⟨last, hpaced⟩ := compile_paced (γ := γ) id texts role
    exact hpaced.sorted
  nonneg role event hevent := by
    obtain ⟨last, hpaced⟩ := compile_paced (γ := γ) id texts role
    exact hpaced.begins event hevent
  bounded role event hevent := by
    obtain ⟨last, hpaced⟩ := compile_paced (γ := γ) id texts role
    calc event.start ≤ event.finish := hpaced.start_le_finish hevent
      _ ≤ trackLength _ := hpaced.finish_le_trackLength hevent
      _ ≤ longest _ := trackLength_le_longest _ role

end Composition

namespace Octaves

/-- A tuning with exact frequencies for every A, and for no other pitch. -/
scoped instance tuning : Tuning Rat := ⟨fun semitones => 440 * 2 ^ (semitones / 12)⟩

end Octaves

end Chiptune
