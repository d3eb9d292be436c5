import Chiptune.Proofs.Cut
import Chiptune.Proofs.Intake

/-!
Which notes begin in a buffer, and at which sample.

Main statement: while the counter does not go round, a buffer begins exactly the notes whose stamp
lies before its end, each at its stamp or, if that has passed, with the first sample.
-/
namespace Chiptune

variable {τ γ : Type}

/-- A counter that stays below `2 ^ 64` does not go round. -/
theorem SampleClock.after_of_lt {counter samples : Nat} (h : counter + samples < 2 ^ 64) :
    after counter samples = counter + samples := Nat.mod_eq_of_lt h

def onsetsOf (role : Role) (onsets : List (Onset τ γ)) : List (Onset τ γ) :=
  onsets.filter fun onset => decide (onset.note.role = role)

theorem onsetsOf_append (role : Role) (first second : List (Onset τ γ)) :
    onsetsOf role (first ++ second) = onsetsOf role first ++ onsetsOf role second :=
  List.filter_append _ _

/-- A note as it begins in a buffer that starts at some sample. -/
def StampedNote.onset (first : Nat) (note : StampedNote τ γ) : Onset τ γ :=
  ⟨max first note.stamp, note⟩

/-- Whether a note begins in a buffer from one sample up to another. -/
def StampedNote.begins (first last : Nat) (note : StampedNote τ γ) : Bool :=
  decide (max first note.stamp < last)

/-- What a single frame begins. -/
theorem StampedNote.due_eq_begins (first : Nat) :
    (fun note : StampedNote τ γ => decide (note.stamp ≤ first)) = begins first (first + 1) := by
  funext note
  exact decide_eq_decide.mpr (by omega)

/-- In order, no note that begins follows one that does not. -/
theorem InOrder.turn {notes : List (StampedNote τ γ)} (h : InOrder notes) (first last : Nat) :
    notes.Pairwise fun a b => b.begins first last = true → a.begins first last = true := by
  apply h.imp
  intro a b hab hb
  exact decide_eq_true ((max_le_max_left first hab).trans_lt (of_decide_eq_true hb))

theorem InOrder.dropWhile {notes : List (StampedNote τ γ)} (h : InOrder notes)
    (p : StampedNote τ γ → Bool) : InOrder (notes.dropWhile p) :=
  List.Pairwise.sublist (List.dropWhile_sublist p) h

/-- What does not begin with the first sample has a later stamp. -/
theorem InOrder.lt_of_mem_dropWhile {notes : List (StampedNote τ γ)} (h : InOrder notes)
    {first : Nat} {note : StampedNote τ γ}
    (hnote : note ∈ notes.dropWhile (StampedNote.begins first (first + 1))) :
    first < note.stamp := by
  have hnot := not_of_mem_dropWhile (h.turn first (first + 1)) hnote
  simp only [StampedNote.begins, decide_eq_true_eq] at hnot
  omega

namespace Take

variable [Scalar γ] [Zero τ] [Narrowing τ γ] [Waveform γ]

theorem pending_step (take : Take τ γ) (rate : γ) :
    (take.step rate).renderer.pending =
      take.renderer.pending.dropWhile (StampedNote.begins take.counter (take.counter + 1)) := by
  rw [← StampedNote.due_eq_begins]
  exact drop_length_takeWhile

theorem onsets_step (take : Take τ γ) (rate : γ) :
    (take.step rate).onsets.toList = take.onsets.toList ++
      (take.renderer.pending.takeWhile
        (StampedNote.begins take.counter (take.counter + 1))).map
          (StampedNote.onset take.counter) := by
  have honset : ∀ note ∈ take.renderer.pending.takeWhile
      (StampedNote.begins take.counter (take.counter + 1)),
      Onset.mk take.counter note = note.onset take.counter := by
    intro note hnote
    have hbegins : note.begins take.counter (take.counter + 1) = true :=
      List.mem_takeWhile_imp hnote
    have hlt : max take.counter note.stamp < take.counter + 1 := of_decide_eq_true hbegins
    exact congrArg (Onset.mk · note) (by omega)
  rw [← List.map_congr_left honset, ← StampedNote.due_eq_begins]
  simp [step, Renderer.frame]

/-- What a number of frames does to the notes that wait. -/
structure Plays (after take : Take τ γ) (frames : Nat) : Prop where
  counter : after.counter = take.counter + frames
  pending : after.renderer.pending =
    take.renderer.pending.dropWhile
      (StampedNote.begins take.counter (take.counter + frames))
  onsets : after.onsets.toList = take.onsets.toList ++
    (take.renderer.pending.takeWhile
      (StampedNote.begins take.counter (take.counter + frames))).map
        (StampedNote.onset take.counter)

/-- The first frame begins what is due, and the others find only later notes. -/
theorem frames_plays (take : Take τ γ) (rate : γ) (frames : Nat)
    (horder : InOrder take.renderer.pending) (hcounter : take.counter + frames < 2 ^ 64) :
    Plays (take.frames rate frames) take frames := by
  induction frames generalizing take with
  | zero =>
      have hnone : StampedNote.begins (τ := τ) (γ := γ) take.counter (take.counter + 0) =
          fun _ => false := by
        funext note
        exact decide_eq_false (by omega)
      refine ⟨rfl, ?_, ?_⟩
      · rw [hnone]
        cases hpending : take.renderer.pending <;> simp [frames, hpending]
      · rw [hnone]
        cases hpending : take.renderer.pending <;> simp [frames]
  | succ frames ih =>
      have hstep : (take.step rate).counter = take.counter + 1 :=
        SampleClock.after_of_lt (by omega)
      have hrest : InOrder (take.step rate).renderer.pending :=
        pending_step take rate ▸ horder.dropWhile _
      obtain ⟨hafter, hpending, honsets⟩ := ih (take.step rate) hrest (by omega)
      have himp : ∀ note : StampedNote τ γ,
          note.begins take.counter (take.counter + 1) = true →
            note.begins take.counter (take.counter + (frames + 1)) = true := by
        intro note hnote
        exact decide_eq_true ((of_decide_eq_true hnote).trans_le (by omega))
      have hbegins : ∀ note ∈ take.renderer.pending.dropWhile
          (StampedNote.begins take.counter (take.counter + 1)),
          note.begins (take.counter + 1) (take.counter + 1 + frames) =
            note.begins take.counter (take.counter + (frames + 1)) := by
        intro note hnote
        have hlate := horder.lt_of_mem_dropWhile hnote
        exact decide_eq_decide.mpr (by omega)
      have honset : ∀ note ∈ (take.renderer.pending.dropWhile
          (StampedNote.begins take.counter (take.counter + 1))).takeWhile
            (StampedNote.begins take.counter (take.counter + (frames + 1))),
          note.onset (take.counter + 1) = note.onset take.counter := by
        intro note hnote
        have hlate := horder.lt_of_mem_dropWhile ((List.takeWhile_prefix _).subset hnote)
        exact congrArg (Onset.mk · note) (by omega)
      rw [pending_step, hstep] at hpending honsets
      refine ⟨?_, ?_, ?_⟩
      · rw [Take.frames, hafter, hstep]
        omega
      · rw [Take.frames, hpending, dropWhile_of_imp himp]
        exact dropWhile_congr hbegins
      · rw [Take.frames, honsets, onsets_step, takeWhile_of_imp himp, List.map_append,
          List.append_assoc, takeWhile_congr hbegins, List.map_congr_left honset]

end Take

end Chiptune
