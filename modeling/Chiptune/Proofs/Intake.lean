import Chiptune.Proofs.StableOrder
import Chiptune.Synth.Output

/-!
The notes that wait in an output, with the renderer or still in the queue.

Main statement: as long as the list of the renderer never fills up, a buffer begins with the stable
sort, by stamp, of everything that was waiting.
-/
namespace Chiptune

variable {τ γ : Type}

/-- Notes in the order of their stamps. -/
def InOrder (notes : List (StampedNote τ γ)) : Prop :=
  notes.Pairwise fun earlier later => earlier.stamp ≤ later.stamp

/-- What a message does to a list of notes that wait, if there is room for them. -/
def Message.heard (notes : List (StampedNote τ γ)) : Message τ γ → List (StampedNote τ γ)
  | .note arriving => notes ++ [arriving]
  | .stopAll stamp => notes.filter fun note => decide (note.stamp < stamp)

namespace Renderer

/-- The order in which a renderer sorts its notes. -/
def byStamp (earlier later : StampedNote τ γ) : Bool := decide (earlier.stamp ≤ later.stamp)

theorem inOrder_mergeSort (notes : List (StampedNote τ γ)) : InOrder (notes.mergeSort byStamp) :=
  ascending_sortBy StampedNote.stamp notes

/-- Sorting leaves alone any selection of the notes that is in order already. -/
theorem filter_mergeSort {notes : List (StampedNote τ γ)} {p : StampedNote τ γ → Bool}
    (h : InOrder (notes.filter p)) : (notes.mergeSort byStamp).filter p = notes.filter p :=
  filter_sortBy_of_ascending h

variable [Scalar γ]

/-- The list of notes is at no point full while messages are taken in. -/
def Roomy (renderer : Renderer τ γ) (messages : List (Message τ γ)) : Prop :=
  ∀ taken ∈ messages.inits,
    (taken.foldl Intake.accept ⟨renderer, false⟩).renderer.pending.length < pendingCapacity

instance (renderer : Renderer τ γ) (messages : List (Message τ γ)) :
    Decidable (renderer.Roomy messages) :=
  inferInstanceAs (Decidable (∀ taken ∈ messages.inits, _ < pendingCapacity))

theorem accept_pending {intake : Intake τ γ}
    (hroom : intake.renderer.pending.length < pendingCapacity) (message : Message τ γ) :
    (intake.accept message).renderer.pending = message.heard intake.renderer.pending := by
  cases message with
  | note note => simp [Intake.accept, Message.heard, hroom]
  | stopAll stamp => rfl

theorem foldl_accept_pending (messages : List (Message τ γ)) {intake : Intake τ γ}
    (hroom : ∀ taken ∈ messages.inits,
      (taken.foldl Intake.accept intake).renderer.pending.length < pendingCapacity) :
    (messages.foldl Intake.accept intake).renderer.pending =
      messages.foldl Message.heard intake.renderer.pending := by
  induction messages generalizing intake with
  | nil => rfl
  | cons message rest ih =>
      have hnow : intake.renderer.pending.length < pendingCapacity := hroom [] (by simp)
      have hlater : ∀ taken ∈ rest.inits, (taken.foldl Intake.accept
          (intake.accept message)).renderer.pending.length < pendingCapacity := by
        intro taken htaken
        apply hroom (message :: taken)
        rw [List.inits_cons]
        exact List.mem_cons_of_mem _ (List.mem_map_of_mem htaken)
      rw [List.foldl_cons, List.foldl_cons, ih hlater, accept_pending hnow]

theorem accept_of_not_arrived {intake : Intake τ γ} {message : Message τ γ}
    (h : (intake.accept message).arrived = false) :
    intake.arrived = false ∧
      (intake.accept message).renderer.pending.Sublist intake.renderer.pending := by
  cases message with
  | note note =>
      unfold Intake.accept at h ⊢
      dsimp only at h ⊢
      split at h
      · simp at h
      · next hfull => simpa [hfull] using h
  | stopAll stamp => exact ⟨h, List.filter_sublist⟩

/-- If no note has arrived, nothing new waits. -/
theorem foldl_accept_of_not_arrived (messages : List (Message τ γ)) {intake : Intake τ γ}
    (h : (messages.foldl Intake.accept intake).arrived = false) :
    intake.arrived = false ∧ (messages.foldl Intake.accept intake).renderer.pending.Sublist
      intake.renderer.pending := by
  induction messages generalizing intake with
  | nil => exact ⟨h, List.Sublist.refl _⟩
  | cons message rest ih =>
      obtain ⟨hnow, hrest⟩ := ih h
      obtain ⟨hbefore, hfirst⟩ := accept_of_not_arrived hnow
      exact ⟨hbefore, hrest.trans hfirst⟩

/-- Only a note that has arrived can be out of order, so that it makes no difference if nothing is
sorted again when none has. -/
theorem drain_eq_sort {renderer : Renderer τ γ} (messages : List (Message τ γ))
    (horder : InOrder renderer.pending) :
    renderer.drain messages = (messages.foldl Intake.accept ⟨renderer, false⟩).renderer.sort := by
  unfold drain
  dsimp only
  split
  · rfl
  · next hnone =>
      have hsublist := (foldl_accept_of_not_arrived messages (Bool.eq_false_iff.mpr hnone)).2
      exact congrArg (Renderer.mk _)
        (sortBy_of_ascending (List.Pairwise.sublist hsublist horder)).symm

/-- What a buffer begins with is the stable sort of what was waiting. -/
theorem drain_pending {renderer : Renderer τ γ} {messages : List (Message τ γ)}
    (horder : InOrder renderer.pending) (hroom : renderer.Roomy messages) :
    (renderer.drain messages).pending =
      (messages.foldl Message.heard renderer.pending).mergeSort byStamp := by
  rw [drain_eq_sort messages horder, ← foldl_accept_pending messages hroom]
  rfl

end Renderer

end Chiptune
