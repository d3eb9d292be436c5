import Chiptune.Proofs.Cut
import Chiptune.Proofs.Samples
import Chiptune.Proofs.Stopwatch
import Chiptune.Proofs.Timeline

/-!
What pauses leave of the notes handed out, which part of it has sounded and which is late.

A pause silences the notes whose sample has not been played, and playing goes on with the notes whose
time has not been played.  A note whose time has passed and whose sample has not is in neither set.
-/
namespace Chiptune

variable {γ : Type}

/-- One of the pauses comes after a time and not after the sample of that time. -/
def CutAt (pauses : List Rat) (rate : Nat) (time : Rat) : Prop :=
  ∃ pause ∈ pauses, time < pause ∧ pause ≤ time + halfSample rate

instance (pauses : List Rat) (rate : Nat) (time : Rat) : Decidable (CutAt pauses rate time) :=
  inferInstanceAs (Decidable (∃ pause ∈ pauses, time < pause ∧ pause ≤ time + halfSample rate))

theorem cutAt_cons {pause : Rat} {pauses : List Rat} {rate : Nat} {time : Rat} :
    CutAt (pause :: pauses) rate time ↔
      time < pause ∧ pause ≤ time + halfSample rate ∨ CutAt pauses rate time :=
  List.exists_mem_cons_iff ..

namespace Composition

/-- The occurrences that no pause has cut off. -/
def spared (song : Composition Rat γ) (rate : Nat) (pauses : List Rat)
    (occurrences : List (Occurrence γ)) : List (Occurrence γ) :=
  occurrences.filter fun o => !decide (CutAt pauses rate (song.timeOf o))

def sounded (song : Composition Rat γ) (rate : Nat) (played : Rat) (o : Occurrence γ) : Bool :=
  decide (song.timeOf o + halfSample rate < played)

/-- What has sounded of the occurrences handed out. -/
def begun (song : Composition Rat γ) (rate : Nat) (watch : Stopwatch)
    (handed : List (Occurrence γ)) : List (Occurrence γ) :=
  (song.spared rate watch.pauses handed).filter (song.sounded rate watch.played)

/-- What is still to sound of them. -/
def late (song : Composition Rat γ) (rate : Nat) (watch : Stopwatch)
    (handed : List (Occurrence γ)) : List (Occurrence γ) :=
  (song.spared rate watch.pauses handed).filter fun o => !song.sounded rate watch.played o

variable {song : Composition Rat γ} {rate : Nat} {watch after : Stopwatch}
  {handed reached : List (Occurrence γ)} {o : Occurrence γ}

theorem mem_begun : o ∈ song.begun rate watch handed ↔ o ∈ handed ∧
    song.timeOf o + halfSample rate < watch.played ∧ ¬CutAt watch.pauses rate (song.timeOf o) := by
  simp [begun, spared, sounded, and_comm]

theorem mem_late : o ∈ song.late rate watch handed ↔ o ∈ handed ∧
    watch.played ≤ song.timeOf o + halfSample rate ∧ ¬CutAt watch.pauses rate (song.timeOf o) := by
  simp [late, spared, sounded, and_comm]

/-- No pause has cut off what is still to be played. -/
theorem spared_append (hpaused : ∀ pause ∈ watch.pauses, pause ≤ watch.played)
    (hreached : ∀ o ∈ reached, watch.played ≤ song.timeOf o) :
    song.spared rate watch.pauses (handed ++ reached) =
      song.spared rate watch.pauses handed ++ reached := by
  have hahead : song.spared rate watch.pauses reached = reached := by
    rw [spared, List.filter_eq_self]
    intro o ho
    simp only [Bool.not_eq_true', decide_eq_false_iff_not]
    rintro ⟨pause, hpause, hlt, _⟩
    exact absurd (hlt.trans_le (hpaused pause hpause)) (hreached o ho).not_gt
  rw [spared, List.filter_append]
  exact congrArg _ hahead

theorem not_sounded (hrate : 0 < rate) (ho : watch.played ≤ song.timeOf o) :
    song.sounded rate watch.played o = false := by
  have hhalf := halfSample_pos hrate
  exact decide_eq_false (by linarith)

theorem begun_append (hrate : 0 < rate) (hplayed : after.played = watch.played)
    (hpauses : after.pauses = watch.pauses) (hpaused : ∀ pause ∈ watch.pauses, pause ≤ watch.played)
    (hreached : ∀ o ∈ reached, watch.played ≤ song.timeOf o) :
    song.begun rate after (handed ++ reached) = song.begun rate watch handed := by
  have hnone : reached.filter (song.sounded rate watch.played) = [] := by
    rw [List.filter_eq_nil_iff]
    intro o ho
    simp [not_sounded hrate (hreached o ho)]
  rw [begun, hpauses, hplayed, spared_append hpaused hreached, List.filter_append, hnone,
    List.append_nil, begun]

theorem late_append (hrate : 0 < rate) (hplayed : after.played = watch.played)
    (hpauses : after.pauses = watch.pauses) (hpaused : ∀ pause ∈ watch.pauses, pause ≤ watch.played)
    (hreached : ∀ o ∈ reached, watch.played ≤ song.timeOf o) :
    song.late rate after (handed ++ reached) = song.late rate watch handed ++ reached := by
  have hall : reached.filter (fun o => !song.sounded rate watch.played o) = reached := by
    rw [List.filter_eq_self]
    intro o ho
    simp [not_sounded hrate (hreached o ho)]
  rw [late, hpauses, hplayed, spared_append hpaused hreached, List.filter_append, hall, late]

/-- A pause cuts off, of what has been played, what has not sounded. -/
theorem spared_pause (hrate : 0 < rate) :
    song.spared rate (watch.played :: watch.pauses)
        (handed.filter fun o => decide (song.timeOf o < watch.played)) =
      song.begun rate watch handed := by
  rw [begun, spared, spared, List.filter_filter, List.filter_filter]
  apply List.filter_congr
  intro o _
  have hhalf := halfSample_pos hrate
  rw [Bool.eq_iff_iff]
  simp only [cutAt_cons, sounded, Bool.and_eq_true, Bool.not_eq_true', decide_eq_true_eq,
    decide_eq_false_iff_not, not_or, not_and, not_le]
  constructor
  · rintro ⟨⟨hnew, hold⟩, hlt⟩
    exact ⟨hnew hlt, hold⟩
  · rintro ⟨hsounded, hold⟩
    exact ⟨⟨fun _ => hsounded, hold⟩, by linarith⟩

theorem begun_pause (hrate : 0 < rate) (hplayed : after.played = watch.played)
    (hpauses : after.pauses = watch.played :: watch.pauses) :
    song.begun rate after (handed.filter fun o => decide (song.timeOf o < watch.played)) =
      song.begun rate watch handed := by
  rw [begun, hpauses, hplayed, spared_pause hrate, begun, List.filter_filter]
  simp only [Bool.and_self]

theorem late_pause (hrate : 0 < rate) (hplayed : after.played = watch.played)
    (hpauses : after.pauses = watch.played :: watch.pauses) :
    song.late rate after (handed.filter fun o => decide (song.timeOf o < watch.played)) = [] := by
  rw [late, hpauses, hplayed, spared_pause hrate, List.filter_eq_nil_iff]
  intro o ho
  simp [(List.mem_filter.mp ho).2]

/-- What has sounded has sounded for good. -/
theorem sounded_run (playing : Bool) {seconds : Rat} (hseconds : 0 ≤ seconds)
    (hsounded : song.sounded rate watch.played o = true) :
    song.sounded rate (watch.run playing seconds).played o = true :=
  decide_eq_true ((of_decide_eq_true hsounded).trans_le (watch.played_le_run playing hseconds))

/-- What sounds while time goes by was late before. -/
theorem begun_run (playing : Bool) {seconds : Rat} (hseconds : 0 ≤ seconds)
    (hsorted : handed.Pairwise fun a b => song.timeOf a ≤ song.timeOf b) :
    song.begun rate (watch.run playing seconds) handed =
      song.begun rate watch handed ++ (song.late rate watch handed).filter
        (song.sounded rate (watch.run playing seconds).played) := by
  have hturn : (song.spared rate watch.pauses handed).Pairwise fun a b =>
      song.sounded rate watch.played b = true → song.sounded rate watch.played a = true := by
    apply (hsorted.filter _).imp
    intro a b hab hb
    exact decide_eq_true (lt_of_le_of_lt (by linarith) (of_decide_eq_true hb))
  have hstill : ∀ o, song.sounded rate watch.played o = true →
      song.sounded rate (watch.run playing seconds).played o = true :=
    fun o => sounded_run playing hseconds
  rw [begun, Stopwatch.pauses_run, filter_of_imp hstill hturn, begun, late, List.filter_filter]

theorem late_run (playing : Bool) {seconds : Rat} (hseconds : 0 ≤ seconds) :
    song.late rate (watch.run playing seconds) handed =
      (song.late rate watch handed).filter fun o =>
        !song.sounded rate (watch.run playing seconds).played o := by
  rw [late, Stopwatch.pauses_run, late, List.filter_filter]
  apply List.filter_congr
  intro o _
  cases hsounded : song.sounded rate watch.played o with
  | false => simp
  | true => simp [sounded_run playing hseconds hsounded]

end Composition

end Chiptune
