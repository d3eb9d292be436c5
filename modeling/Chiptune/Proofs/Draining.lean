import Chiptune.Proofs.InFlight
import Chiptune.Scalar.Exact

/-!
What a renderer takes in.

Messages are taken in one by one and the notes are sorted at the end, so a silence filters a list of
which only the front is in order, and a full list drops notes that a silence before them might have
made room for.

Main statement: it makes no difference where a queue is cut in two; the notes stay in order and
within the capacity, and while there is room they are the stable sort of those that no later silence
takes back; every channel is cut if there was a silence, and none otherwise.
-/
namespace Chiptune

variable {τ γ : Type}

namespace Message

def isSilence : Message τ γ → Bool
  | .note _ => false
  | .stopAll _ => true

/-- Whether a message takes a note back that has arrived before it. -/
def takesBack (note : StampedNote τ γ) : Message τ γ → Bool
  | .note _ => false
  | .stopAll stamp => decide (stamp ≤ note.stamp)

end Message

/-- The notes among messages that no later message takes back, in the order of their arrival. -/
def keptOf : List (Message τ γ) → List (StampedNote τ γ)
  | [] => []
  | .note note :: later => if later.any (·.takesBack note) then keptOf later else note :: keptOf later
  | .stopAll _ :: later => keptOf later

theorem any_takesBack_notes (note : StampedNote τ γ) (notes : List (StampedNote τ γ))
    (later : List (Message τ γ)) :
    (notes.map Message.note ++ later).any (·.takesBack note) = later.any (·.takesBack note) := by
  simp [Message.takesBack]

theorem keptOf_notes (notes : List (StampedNote τ γ)) : keptOf (notes.map .note) = notes := by
  induction notes with
  | nil => rfl
  | cons note rest ih => simp [keptOf, Message.takesBack, ih]

/-- A silence takes back the notes before it that have its stamp or a later one. -/
theorem keptOf_stopAll (notes : List (StampedNote τ γ)) (stamp : Nat) (later : List (Message τ γ)) :
    keptOf (notes.map .note ++ .stopAll stamp :: later) =
      keptOf ((earlier stamp notes).map .note ++ later) := by
  induction notes with
  | nil => rfl
  | cons note rest ih =>
      have hany : (rest.map Message.note ++ .stopAll stamp :: later).any (·.takesBack note) =
          (decide (stamp ≤ note.stamp) || later.any (·.takesBack note)) :=
        any_takesBack_notes note rest (.stopAll stamp :: later)
      rw [List.map_cons, List.cons_append, keptOf, hany, ih]
      by_cases hstamp : note.stamp < stamp
      · have hearlier : earlier stamp (note :: rest) = note :: earlier stamp rest :=
          List.filter_cons_of_pos (decide_eq_true hstamp)
        rw [hearlier, List.map_cons, List.cons_append, keptOf, any_takesBack_notes,
          decide_eq_false hstamp.not_ge, Bool.false_or]
      · have hearlier : earlier stamp (note :: rest) = earlier stamp rest :=
          List.filter_cons_of_neg (by simpa using hstamp)
        rw [hearlier, decide_eq_true (not_lt.mp hstamp), Bool.true_or, if_pos rfl]

/-- Taking messages in one by one leaves the notes that none of them takes back. -/
theorem foldl_heard_eq_keptOf (messages : List (Message τ γ)) (notes : List (StampedNote τ γ)) :
    messages.foldl Message.heard notes = keptOf (notes.map .note ++ messages) := by
  induction messages generalizing notes with
  | nil => rw [List.foldl_nil, List.append_nil, keptOf_notes]
  | cons message later ih =>
      rw [List.foldl_cons, ih]
      cases message with
      | note note => simp [Message.heard]
      | stopAll stamp => exact (keptOf_stopAll notes stamp later).symm

namespace Renderer

variable [Scalar γ]

omit [Scalar γ] in
theorem sort_eq_iff {first second : Renderer τ γ} : first.sort = second.sort ↔
    first.channels = second.channels ∧
      sortBy StampedNote.stamp first.pending = sortBy StampedNote.stamp second.pending :=
  Renderer.mk.injEq .. ▸ Iff.rfl

omit [Scalar γ] in
theorem sort_sort (renderer : Renderer τ γ) : renderer.sort.sort = renderer.sort :=
  sort_eq_iff.mpr ⟨rfl, sortBy_of_ascending (ascending_sortBy _ _)⟩

/-- A message does the same to notes that are sorted and to notes that are still to be sorted. -/
theorem sort_accept_congr {first second : Intake τ γ}
    (h : first.renderer.sort = second.renderer.sort) (message : Message τ γ) :
    (first.accept message).renderer.sort = (second.accept message).renderer.sort := by
  obtain ⟨hchannels, hpending⟩ := sort_eq_iff.mp h
  have hlength : first.renderer.pending.length = second.renderer.pending.length := by
    rw [← (perm_sortBy StampedNote.stamp first.renderer.pending).length_eq, hpending,
      (perm_sortBy StampedNote.stamp second.renderer.pending).length_eq]
  cases message with
  | note note =>
      simp only [Intake.accept, hlength]
      split
      · refine sort_eq_iff.mpr ⟨hchannels, ?_⟩
        rw [← sortBy_sortBy_append, hpending, sortBy_sortBy_append]
      · exact h
  | stopAll stamp =>
      refine sort_eq_iff.mpr ⟨congrArg (PerRole.map Channel.stop) hchannels, ?_⟩
      simp only [Intake.accept]
      rw [← filter_sortBy, hpending, filter_sortBy]

theorem sort_foldl_accept_congr {first second : Intake τ γ}
    (h : first.renderer.sort = second.renderer.sort) (messages : List (Message τ γ)) :
    (messages.foldl Intake.accept first).renderer.sort =
      (messages.foldl Intake.accept second).renderer.sort := by
  induction messages generalizing first second with
  | nil => exact h
  | cons message later ih => exact ih (sort_accept_congr h message)

/-- A queue may be taken in at once or in two parts. -/
theorem drain_append {renderer : Renderer τ γ} (horder : InOrder renderer.pending)
    (first second : List (Message τ γ)) :
    renderer.drain (first ++ second) = (renderer.drain first).drain second := by
  rw [drain_eq_sort _ horder, drain_eq_sort _ (inOrder_drain horder first),
    drain_eq_sort first horder, List.foldl_append]
  exact sort_foldl_accept_congr (sort_sort _).symm second

theorem length_foldl_accept_le (messages : List (Message τ γ)) {intake : Intake τ γ}
    (hfits : intake.renderer.pending.length ≤ pendingCapacity) :
    (messages.foldl Intake.accept intake).renderer.pending.length ≤ pendingCapacity := by
  induction messages generalizing intake with
  | nil => exact hfits
  | cons message later ih =>
      apply ih
      cases message with
      | note note =>
          unfold Intake.accept
          dsimp only
          split
          · next hroom => simpa using hroom
          · exact hfits
      | stopAll stamp => exact (List.length_filter_le _ _).trans hfits

theorem channels_foldl_accept (messages : List (Message τ γ)) (intake : Intake τ γ) :
    (messages.foldl Intake.accept intake).renderer.channels =
      if messages.any Message.isSilence then intake.renderer.channels.map Channel.stop
      else intake.renderer.channels := by
  induction messages generalizing intake with
  | nil => rfl
  | cons message later ih =>
      rw [List.foldl_cons, ih, List.any_cons]
      cases message with
      | note note =>
          have hsame : (intake.accept (.note note)).renderer.channels = intake.renderer.channels := by
            unfold Intake.accept
            dsimp only
            split <;> rfl
          rw [hsame]
          rfl
      | stopAll stamp =>
          rw [Message.isSilence, Bool.true_or, if_pos rfl]
          split <;> rfl

theorem channels_drain (renderer : Renderer τ γ) (messages : List (Message τ γ)) :
    (renderer.drain messages).channels =
      if messages.any Message.isSilence then renderer.channels.map Channel.stop
      else renderer.channels := by
  rw [← channels_foldl_accept messages ⟨renderer, false⟩]
  unfold drain
  dsimp only
  split <;> rfl

/-- What taking messages in makes of a renderer. -/
structure TakesIn (renderer after : Renderer τ γ) (messages : List (Message τ γ)) : Prop where
  order : InOrder after.pending
  fits : after.pending.length ≤ pendingCapacity
  /-- Nothing waits but notes that waited before or have arrived. -/
  notes : after.pending.Subperm (renderer.pending ++ notesOf messages)
  /-- With room at all times, only what is taken back is gone. -/
  kept : renderer.Roomy messages → after.pending =
    sortBy StampedNote.stamp (keptOf (renderer.pending.map .note ++ messages))
  channels : after.channels =
    if messages.any Message.isSilence then renderer.channels.map Channel.stop
    else renderer.channels

theorem takesIn_drain {renderer : Renderer τ γ} (horder : InOrder renderer.pending)
    (hfits : renderer.pending.length ≤ pendingCapacity) (messages : List (Message τ γ)) :
    renderer.TakesIn (renderer.drain messages) messages where
  order := inOrder_drain horder messages
  fits := (drain_perm renderer messages).length_eq.trans_le (length_foldl_accept_le messages hfits)
  notes := drain_subperm renderer messages
  kept hroom := by
    rw [drain_pending horder hroom, foldl_heard_eq_keptOf]
    rfl
  channels := channels_drain renderer messages

/-- Emptying a queue.  The notes of a renderer are in order and within its capacity, and it takes in
notes and silences in any order.  It is left the same by taking in a queue at once and in two parts.
Its notes are then in order and within the capacity; if the list was never full, they are the stable
sort of the notes it had followed by those that arrived, less every note that a later silence of its
stamp or an earlier one takes back; and its channels are cut if there was a silence, and are left
alone if there was none. -/
theorem drain_in_parts (renderer : Renderer τ γ) (first second : List (Message τ γ))
    (horder : InOrder renderer.pending) (hfits : renderer.pending.length ≤ pendingCapacity) :
    renderer.drain (first ++ second) = (renderer.drain first).drain second ∧
      renderer.TakesIn (renderer.drain (first ++ second)) (first ++ second) :=
  ⟨drain_append horder first second, takesIn_drain horder hfits (first ++ second)⟩

/-- The first silence comes with the last note of the first part and takes the notes of its own sample
back, from before and behind the old ones; the second part puts a note in front of what is left, and
its silence takes back one note of two with one stamp. -/
theorem drain_in_parts_over_two_silences :
    let note (stamp : Nat) (role : Role) : StampedNote Rat Rat := ⟨stamp, role, .tone 440, 1, 2⟩
    let renderer : Renderer Rat Rat :=
      ⟨.ofRole Channel.silent, [note 3 .lead, note 5 .bass, note 5 .lead]⟩
    let first : List (Message Rat Rat) :=
      [.note (note 5 .harmony), .note (note 3 .percussion), .stopAll 5]
    let second : List (Message Rat Rat) := [.note (note 7 .lead), .note (note 2 .bass), .stopAll 7,
      .note (note 7 .harmony)]
    let after := renderer.drain (first ++ second)
    (InOrder renderer.pending ∧ renderer.pending.length ≤ pendingCapacity) ∧
      renderer.Roomy (first ++ second) ∧
      after.pending.map (fun note => (note.stamp, note.role)) =
        [(2, .bass), (3, .lead), (3, .percussion), (7, .harmony)] ∧
      after = (renderer.drain first).drain second ∧
      renderer.TakesIn after (first ++ second) := by
  intro note renderer first second after
  have horder : InOrder renderer.pending := by simp [InOrder, renderer, note]
  have hfits : renderer.pending.length ≤ pendingCapacity := by decide
  have hroom : renderer.Roomy (first ++ second) := by decide_cbv
  have hpending : after.pending.map (fun note => (note.stamp, note.role)) =
      [(2, .bass), (3, .lead), (3, .percussion), (7, .harmony)] := by decide_cbv
  exact ⟨⟨horder, hfits⟩, hroom, hpending, drain_in_parts renderer first second horder hfits⟩

end Renderer

end Chiptune
