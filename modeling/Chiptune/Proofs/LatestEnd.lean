import Chiptune.Proofs.ExtendedTime

/-!
The order of compiled tracks in extended time, where a tempo or a length may be zero or too large
for a double, and a note may last for ever.

Main statement: the events of a track follow one another at times that are numbers, so the loop ends
with the latest of all events although its length is read off the last event of each track.
-/
namespace Chiptune

open Extended

variable {γ : Type}

namespace Extended

/-- A number between zero and infinity. -/
def IsTime (time : Extended) : Prop := time ≠ nan ∧ 0 ≤ time ∧ time ≤ infinite false

theorem isTime_iff {time : Extended} : time.IsTime ↔ 0 ≤ time :=
  ⟨fun h => h.2.1, fun h => ⟨ne_nan_of_nonneg h, h, le_infinite_of_nonneg h⟩⟩

/-- The longest of several lengths, or the one to begin with, is among them and above them all. -/
theorem foldl_atLeast {lengths : List Extended} {least : Extended} (hleast : 0 ≤ least)
    (hlengths : ∀ length ∈ lengths, 0 ≤ length) :
    let longest := lengths.foldl Scalar.atLeast least
    least ≤ longest ∧ (∀ length ∈ lengths, length ≤ longest) ∧
      (longest = least ∨ longest ∈ lengths) := by
  induction lengths generalizing least with
  | nil => exact ⟨le_self_of_nonneg hleast, by simp, .inl rfl⟩
  | cons head rest ih =>
      obtain ⟨hhead, hrest⟩ := List.forall_mem_cons.mp hlengths
      rw [List.foldl_cons, Scalar.atLeast]
      split
      · next hlt =>
          obtain ⟨hle, hbound, hattained⟩ := ih hhead hrest
          refine ⟨Extended.le_trans (le_iff.mpr (.inl hlt)) hle,
            List.forall_mem_cons.mpr ⟨hle, hbound⟩, .inr ?_⟩
          rcases hattained with heq | hmem
          · rw [heq]
            exact List.mem_cons_self
          · exact List.mem_cons_of_mem _ hmem
      · next hlt =>
          obtain ⟨hle, hbound, hattained⟩ := ih hleast hrest
          have hhead_le : head ≤ least :=
            le_of_not_lt (ne_nan_of_nonneg hleast) (ne_nan_of_nonneg hhead) hlt
          refine ⟨hle, List.forall_mem_cons.mpr ⟨Extended.le_trans hhead_le hle, hbound⟩, ?_⟩
          exact hattained.imp_right (List.mem_cons_of_mem _)

end Extended

/-- Events at times that are numbers, each beginning no earlier than those before it end. -/
structure InTurn (events : List (NoteEvent Extended γ)) : Prop where
  start : ∀ event ∈ events, event.start.IsTime
  duration : ∀ event ∈ events, event.duration.IsTime
  apart : events.Pairwise fun earlier later => earlier.finish ≤ later.start

/-- Events that follow one another between two times. -/
inductive Between : Extended → List (NoteEvent Extended γ) → Extended → Prop
  | nil {first last : Extended} (le : first ≤ last) : Between first [] last
  | cons {first last : Extended} {event : NoteEvent Extended γ}
      {later : List (NoteEvent Extended γ)} (begins : first ≤ event.start)
      (lasts : 0 ≤ event.duration) (goesOn : Between event.finish later last) :
      Between first (event :: later) last

namespace Between

variable {earliest first middle last : Extended} {events later : List (NoteEvent Extended γ)}

theorem earlier (hle : earliest ≤ first) (h : Between first events last) :
    Between earliest events last := by
  cases h with
  | nil le => exact .nil (Extended.le_trans hle le)
  | cons begins lasts goesOn => exact .cons (Extended.le_trans hle begins) lasts goesOn

theorem append (h : Between first events middle) (hlater : Between middle later last) :
    Between first (events ++ later) last := by
  induction h with
  | nil le => exact hlater.earlier le
  | cons begins lasts _ ih => exact .cons begins lasts (ih hlater)

/-- Nothing begins before the first moment, as no event takes time back. -/
theorem le_start (h : Between first events last) (hfirst : 0 ≤ first) :
    ∀ event ∈ events, first ≤ event.start := by
  induction h with
  | nil => simp
  | @cons first last head later begins lasts _ ih =>
      have hhead : 0 ≤ head.start := Extended.le_trans hfirst begins
      have hfinish : head.start ≤ head.finish := le_add_of_nonneg hhead lasts
      intro event hevent
      rcases List.mem_cons.mp hevent with rfl | hlater
      · exact begins
      · calc first ≤ head.start := begins
          _ ≤ head.finish := hfinish
          _ ≤ event.start := ih (Extended.le_trans hhead hfinish) event hlater

theorem inTurn (h : Between first events last) (hfirst : 0 ≤ first) : InTurn events := by
  induction h with
  | nil => exact ⟨by simp, by simp, .nil⟩
  | @cons first last head later begins lasts goesOn ih =>
      have hhead : 0 ≤ head.start := Extended.le_trans hfirst begins
      have hfinish : 0 ≤ head.finish := Extended.add_nonneg hhead lasts
      obtain ⟨hstart, hduration, hapart⟩ := ih hfinish
      exact ⟨List.forall_mem_cons.mpr ⟨isTime_iff.mpr hhead, hstart⟩,
        List.forall_mem_cons.mpr ⟨isTime_iff.mpr lasts, hduration⟩,
        List.pairwise_cons.mpr ⟨goesOn.le_start hfinish, hapart⟩⟩

end Between

namespace Notation

namespace Settings

variable [Scalar γ]

theorem Forward.between_sound {settings : Settings Extended} (h : settings.Forward)
    (voice : Option (Voice Extended)) (length : Option Nat) :
    Between settings.time (settings.sound (γ := γ) voice length).1
      (settings.sound (γ := γ) voice length).2.time := by
  have hduration := h.duration_nonneg length
  unfold Settings.sound
  generalize settings.duration (length.map Nat.cast) = duration at hduration
  have hlater : 0 ≤ settings.time + duration := Extended.add_nonneg h.time hduration
  cases voice with
  | none => exact .nil (le_add_of_nonneg h.time hduration)
  | some voice =>
      exact .cons (le_self_of_nonneg h.time) hduration (.nil (le_self_of_nonneg hlater))

variable [Tuning Extended]

theorem Forward.between_step {settings : Settings Extended} (h : settings.Forward) (token : Token) :
    let stepped := settings.step (γ := γ) token
    Between settings.time stepped.1 stepped.2.time := by
  have hstay : Between settings.time ([] : List (NoteEvent Extended γ)) settings.time :=
    .nil (le_self_of_nonneg h.time)
  cases token with
  | note letter accidental length => exact h.between_sound _ length
  | drum drum length => exact h.between_sound _ length
  | rest length => exact h.between_sound _ length
  | tempo value => cases value <;> simpa only [Settings.step] using hstay
  | octave value => cases value <;> simpa only [Settings.step] using hstay
  | length value => cases value <;> simpa only [Settings.step] using hstay
  | octaveUp => exact hstay
  | octaveDown => exact hstay
  | other character => exact hstay

theorem Forward.between_run {settings : Settings Extended} (h : settings.Forward)
    (tokens : List Token) :
    let ran := settings.run (γ := γ) tokens
    Between settings.time ran.1 ran.2.time := by
  induction tokens generalizing settings with
  | nil => exact .nil (le_self_of_nonneg h.time)
  | cons token rest ih => exact (h.between_step token).append (ih (h.step (γ := γ) token).2)

end Settings

theorem inTurn_compile [Scalar γ] [Tuning Extended] (text : String) :
    InTurn (compile text : List (NoteEvent Extended γ)) :=
  (Settings.forward_initial.between_run (tokens text)).inTurn Settings.forward_initial.time

end Notation

namespace InTurn

variable {events : List (NoteEvent Extended γ)} {event : NoteEvent Extended γ}

theorem start_le_finish (h : InTurn events) (hevent : event ∈ events) :
    event.start ≤ event.finish :=
  le_add_of_nonneg (h.start event hevent).2.1 (h.duration event hevent).2.1

theorem finish_nonneg (h : InTurn events) (hevent : event ∈ events) : 0 ≤ event.finish :=
  Extended.add_nonneg (h.start event hevent).2.1 (h.duration event hevent).2.1

/-- The last event of a track is the last to end. -/
theorem finish_le_trackLength (h : InTurn events) (hevent : event ∈ events) :
    event.finish ≤ Composition.trackLength events := by
  rcases List.eq_nil_or_concat' events with rfl | ⟨before, final, rfl⟩
  · simp at hevent
  · have hlength : Composition.trackLength (before ++ [final]) = final.finish := by
      simp [Composition.trackLength]
    rw [hlength]
    rcases List.mem_append.mp hevent with hbefore | hfinal
    · calc event.finish ≤ final.start :=
            (List.pairwise_append.mp h.apart).2.2 event hbefore final (by simp)
        _ ≤ final.finish := h.start_le_finish (by simp)
    · rw [List.mem_singleton.mp hfinal]
      exact le_self_of_nonneg (h.finish_nonneg (by simp))

end InTurn

namespace Composition

/-- The times at which the events of four tracks end. -/
def ends (tracks : PerRole (List (NoteEvent Extended γ))) : Set Extended :=
  {time | ∃ role, ∃ event ∈ tracks.get role, event.finish = time}

theorem trackLength_eq_zero_or_finish (events : List (NoteEvent Extended γ)) :
    trackLength events = 0 ∨ ∃ event ∈ events, event.finish = trackLength events := by
  rcases List.eq_nil_or_concat' events with rfl | ⟨before, final, rfl⟩
  · exact .inl rfl
  · exact .inr ⟨final, by simp, by simp [trackLength]⟩

section

variable {tracks : PerRole (List (NoteEvent Extended γ))}
  (htracks : ∀ role, InTurn (tracks.get role))
include htracks

theorem ends_nonneg : ∀ time ∈ ends tracks, 0 ≤ time := by
  rintro _ ⟨role, event, hevent, rfl⟩
  exact (htracks role).finish_nonneg hevent

theorem trackLength_nonneg (role : Role) : 0 ≤ trackLength (tracks.get role) := by
  rcases trackLength_eq_zero_or_finish (tracks.get role) with hzero | ⟨event, hevent, hfinish⟩
  · rw [hzero]
    exact zero_le_zero
  · rw [← hfinish]
    exact (htracks role).finish_nonneg hevent

/-- No track is longer than the longest, which is one of the four unless it has no length. -/
theorem longest_spec :
    0 ≤ longest tracks ∧ (∀ role, trackLength (tracks.get role) ≤ longest tracks) ∧
      (longest tracks = 0 ∨ ∃ role, longest tracks = trackLength (tracks.get role)) := by
  have hmem (length : Extended) : length ∈ (tracks.map trackLength).toList ↔
      ∃ role, length = trackLength (tracks.get role) := by simp
  have hlengths : ∀ length ∈ (tracks.map trackLength).toList, 0 ≤ length := by
    intro length hlength
    obtain ⟨role, rfl⟩ := (hmem length).mp hlength
    exact trackLength_nonneg htracks role
  obtain ⟨hnonneg, hbound, hattained⟩ := foldl_atLeast zero_le_zero hlengths
  refine ⟨hnonneg, fun role => hbound _ ((hmem _).mpr ⟨role, rfl⟩), ?_⟩
  exact hattained.imp_right (hmem _).mp

theorem longest_mem_upperBounds : longest tracks ∈ upperBounds (ends tracks) := by
  rintro _ ⟨role, event, hevent, rfl⟩
  calc event.finish ≤ trackLength (tracks.get role) :=
        (htracks role).finish_le_trackLength hevent
    _ ≤ longest tracks := (longest_spec htracks).2.1 role

/-- The longest track, which is found from the last events alone, ends with the latest of all. -/
theorem isGreatest_longest :
    ends tracks = ∅ ∧ longest tracks = 0 ∨ IsGreatest (ends tracks) (longest tracks) := by
  have hbound := longest_mem_upperBounds htracks
  obtain ⟨_, _, hattained⟩ := longest_spec htracks
  have hcases : longest tracks = 0 ∨ longest tracks ∈ ends tracks := by
    rcases hattained with hzero | ⟨role, hrole⟩
    · exact .inl hzero
    · rcases trackLength_eq_zero_or_finish (tracks.get role) with hzero | ⟨event, hevent, hfinish⟩
      · exact .inl (hrole.trans hzero)
      · exact .inr ⟨role, event, hevent, hfinish.trans hrole.symm⟩
  rcases hcases with hzero | hmem
  · rcases Set.eq_empty_or_nonempty (ends tracks) with hempty | ⟨time, htime⟩
    · exact .inl ⟨hempty, hzero⟩
    · have heq : time = 0 := eq_zero_of_le_zero (ends_nonneg htracks time htime)
        (hzero ▸ hbound htime)
      exact .inr ⟨by rwa [hzero, ← heq], hbound⟩
  · exact .inr ⟨hmem, hbound⟩

theorem start_le_longest (role : Role) :
    ∀ event ∈ tracks.get role, event.start ≤ longest tracks := by
  intro event hevent
  calc event.start ≤ event.finish := (htracks role).start_le_finish hevent
    _ ≤ longest tracks := longest_mem_upperBounds htracks ⟨role, event, hevent, rfl⟩

/-- A loop with no length is one in which all events end as it begins. -/
theorem longest_le_zero_iff : longest tracks ≤ 0 ↔ ∀ time ∈ ends tracks, time = 0 := by
  constructor
  · intro hzero time htime
    exact eq_zero_of_le_zero (ends_nonneg htracks time htime)
      (Extended.le_trans (longest_mem_upperBounds htracks htime) hzero)
  · intro hends
    have hzero : longest tracks = 0 := by
      rcases isGreatest_longest htracks with ⟨_, hzero⟩ | ⟨hmem, _⟩
      · exact hzero
      · exact hends _ hmem
    rw [hzero]
    exact zero_le_zero

end

/-- Whatever the text, its events follow one another at times that are numbers.  Whatever the four
texts, the loop ends with the latest of all their events, and plays as silence just when all of them
end as it begins. -/
theorem compile_in_turn [Scalar γ] [Tuning Extended] :
    (∀ text, InTurn (Notation.compile text : List (NoteEvent Extended γ))) ∧
      ∀ id texts, let composition : Composition Extended γ := compile id texts
        (ends composition.tracks = ∅ ∧ composition.loopLength = 0 ∨
            IsGreatest (ends composition.tracks) composition.loopLength) ∧
          (∀ role, ∀ event ∈ composition.tracks.get role,
            event.start ≤ composition.loopLength) ∧
          composition.loopLength ≠ nan ∧
          (composition.isDegenerate = true ↔ ∀ time ∈ ends composition.tracks, time = 0) := by
  refine ⟨Notation.inTurn_compile, fun id texts => ?_⟩
  intro composition
  have htracks (role : Role) : InTurn (composition.tracks.get role) := by
    rw [show composition.tracks.get role = Notation.compile (texts.get role) from
      PerRole.get_map _ _ _]
    exact Notation.inTurn_compile _
  have hnumber : composition.loopLength ≠ nan := ne_nan_of_nonneg (longest_spec htracks).1
  refine ⟨isGreatest_longest htracks, start_le_longest htracks, hnumber, ?_⟩
  rw [← longest_le_zero_iff htracks, isDegenerate, Bool.or_eq_true, decide_eq_true_iff]
  exact or_iff_right (by simpa [Scalar.isNaN] using hnumber)

end Composition

end Chiptune
