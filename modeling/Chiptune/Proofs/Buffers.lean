import Chiptune.Proofs.Onsets
import Chiptune.Proofs.Playback

/-!
An output between two buffers and over one of them, told by the notes that wait in it.

Main statement: requests whose messages all find room in the queue add their notes to those that
wait, or cut them at a silence; a buffer begins the notes that wait up to its end, each part in its
own order.
-/
namespace Chiptune

variable {τ γ : Type}

namespace Output

def waiting (output : Output τ γ) : List (StampedNote τ γ) :=
  output.queue.foldl Message.heard output.renderer.pending

def queued (output : Output τ γ) (messages : List (Message τ γ)) : Output τ γ :=
  { output with queue := output.queue ++ messages }

theorem queued_nil (output : Output τ γ) : output.queued [] = output := by
  simp [queued]

theorem queued_queued (output : Output τ γ) (first second : List (Message τ γ)) :
    (output.queued first).queued second = output.queued (first ++ second) := by
  simp [queued]

theorem push_of_slot {output : Output τ γ} (hslot : output.queue.length < output.slots)
    (message : Message τ γ) : (output.push message).2 = output.queued [message] := by
  rw [push, if_pos hslot]
  rfl

theorem push_of_room {output : Output τ γ} {message : Message τ γ} {later : List (Notice τ γ)}
    (hroom : .queueFull ∉ (output.push message).1 ++ later) :
    (output.push message).2 = output.queued [message] := by
  by_cases hslot : output.queue.length < output.slots
  · exact push_of_slot hslot message
  · simp [push, hslot] at hroom

/-- A message that finds no room is left out. -/
theorem push_sublist (output : Output τ γ) (message : Message τ γ) :
    ∃ messages, messages.Sublist [message] ∧ (output.push message).2 = output.queued messages := by
  by_cases hslot : output.queue.length < output.slots
  · exact ⟨[message], List.Sublist.refl _, push_of_slot hslot message⟩
  · refine ⟨[], List.nil_sublist _, ?_⟩
    rw [push, if_neg hslot, queued_nil]

theorem waiting_queued (output : Output τ γ) (messages : List (Message τ γ)) :
    (output.queued messages).waiting = messages.foldl Message.heard output.waiting :=
  List.foldl_append

variable [Scalar τ]

/-- What an output puts into its queue. -/
def message? (output : Output τ γ) : Effect τ γ → Option (Message τ γ)
  | .dispatch note => some (.note (output.stamped note))
  | .silence time => some (.stopAll (output.toSamples time))
  | .notice _ => none

theorem hear_sublist (output : Output τ γ) (effect : Effect τ γ) :
    ∃ messages, messages.Sublist (output.message? effect).toList ∧
      (Sink.hear output effect).2 = output.queued messages := by
  cases effect with
  | notice notice => exact ⟨[], List.Sublist.refl _, (queued_nil output).symm⟩
  | dispatch note => exact output.push_sublist _
  | silence time => exact output.push_sublist _

/-- Effects put their messages into the queue in order, less those that find no room. -/
theorem hearAll_sublist (effects : List (Effect τ γ)) (output : Output τ γ) :
    ∃ messages, messages.Sublist (effects.filterMap output.message?) ∧
      (Sink.hearAll output effects).2 = output.queued messages := by
  induction effects generalizing output with
  | nil => exact ⟨[], List.Sublist.refl _, (queued_nil output).symm⟩
  | cons effect rest ih =>
      obtain ⟨first, hfirst, hhear⟩ := output.hear_sublist effect
      obtain ⟨later, hlater, hrest⟩ := ih (output.queued first)
      have hsplit : (effect :: rest).filterMap output.message? =
          (output.message? effect).toList ++ rest.filterMap output.message? := by
        cases hmessage : output.message? effect <;> simp [hmessage]
      have hall : (Sink.hearAll output (effect :: rest)).2 =
          (Sink.hearAll (Sink.hear output effect).2 rest).2 := rfl
      refine ⟨first ++ later, hsplit ▸ hfirst.append hlater, ?_⟩
      rw [hall, hhear, hrest, queued_queued]

/-- If nothing is dropped for want of room, everything is in the queue. -/
theorem hearAll_eq_queued (effects : List (Effect τ γ)) (output : Output τ γ)
    (hroom : .queueFull ∉ (Sink.hearAll output effects).1) :
    (Sink.hearAll output effects).2 = output.queued (effects.filterMap output.message?) := by
  induction effects generalizing output with
  | nil => simp [Sink.hearAll, queued]
  | cons effect rest ih =>
      have hlater := ih (Sink.hear output effect).2
        fun hmem => hroom (List.mem_append_right _ hmem)
      cases effect with
      | notice notice => exact hlater
      | dispatch note =>
          have hfirst : (Sink.hear output (.dispatch note)).2 =
              output.queued [.note (output.stamped note)] := push_of_room hroom
          rw [hfirst] at hlater
          exact (congrArg (fun sink => (Sink.hearAll sink rest).2) hfirst).trans
            (hlater.trans (queued_queued _ _ _))
      | silence time =>
          have hfirst : (Sink.hear output (.silence time)).2 =
              output.queued [.stopAll (output.toSamples time)] := push_of_room hroom
          rw [hfirst] at hlater
          exact (congrArg (fun sink => (Sink.hearAll sink rest).2) hfirst).trans
            (hlater.trans (queued_queued _ _ _))

/-- Without a silence the notes of the effects wait behind the others. -/
theorem waiting_queued_notes (effects : List (Effect τ γ)) (output : Output τ γ)
    (hsilence : ∀ time, Effect.silence time ∉ effects) :
    (output.queued (effects.filterMap output.message?)).waiting =
      output.waiting ++ (effects.filterMap Effect.note?).map output.stamped := by
  rw [waiting_queued]
  generalize output.waiting = notes
  induction effects generalizing notes with
  | nil => simp
  | cons effect rest ih =>
      have hrest := ih fun time hmem => hsilence time (List.mem_cons_of_mem effect hmem)
      cases effect with
      | notice notice => exact hrest notes
      | dispatch note =>
          refine (hrest (notes ++ [output.stamped note])).trans ?_
          simp [Effect.note?]
      | silence time => exact absurd List.mem_cons_self (hsilence time)

variable [Scalar γ] [Narrowing τ γ] [Waveform γ]

/-- What a buffer does to an output. -/
structure Buffered (output after : Output τ γ) (frames : Nat) (onsets : List (Onset τ γ)) :
    Prop where
  rate : after.rate = output.rate
  counter : after.counter = output.counter + frames
  order : InOrder after.renderer.pending
  onsets : ∀ role, InOrder (output.waiting.filter fun note => decide (note.role = role)) →
    onsetsOf role onsets =
      ((output.waiting.filter fun note => decide (note.role = role)).filter
        (StampedNote.begins output.counter (output.counter + frames))).map
          (StampedNote.onset output.counter)
  waiting : ∀ role, InOrder (output.waiting.filter fun note => decide (note.role = role)) →
    after.waiting.filter (fun note => decide (note.role = role)) =
      (output.waiting.filter fun note => decide (note.role = role)).filter fun note =>
        !note.begins output.counter (output.counter + frames)

theorem playFrames_buffered (output : Output τ γ) (frames : Nat)
    (horder : InOrder output.renderer.pending) (hroom : output.renderer.Roomy output.queue)
    (hcounter : output.counter + frames < 2 ^ 64) :
    output.Buffered (output.playFrames frames).2 frames
      (output.playFrames frames).1.onsets.toList := by
  have hdrain : output.drain.renderer.pending = output.waiting.mergeSort Renderer.byStamp :=
    Renderer.drain_pending horder hroom
  have hsorted := Renderer.inOrder_mergeSort output.waiting
  have hplays := Take.frames_plays ⟨output.drain.renderer, output.counter, #[], #[]⟩
    (output.rate : γ) frames (hdrain ▸ hsorted) hcounter
  have hturn := hsorted.turn output.counter (output.counter + frames)
  have honsets : (output.playFrames frames).1.onsets.toList =
      ((output.waiting.mergeSort Renderer.byStamp).filter
        (StampedNote.begins output.counter (output.counter + frames))).map
          (StampedNote.onset output.counter) := by
    rw [← takeWhile_eq_filter hturn, ← hdrain]
    exact hplays.onsets
  have hwaiting : (output.playFrames frames).2.waiting =
      (output.waiting.mergeSort Renderer.byStamp).filter fun note =>
        !note.begins output.counter (output.counter + frames) := by
    rw [← dropWhile_eq_filter hturn, ← hdrain]
    exact hplays.pending
  refine ⟨rfl, SampleClock.after_of_lt hcounter, ?_, ?_, ?_⟩
  · change InOrder (output.playFrames frames).2.waiting
    rw [hwaiting]
    exact List.Pairwise.sublist List.filter_sublist hsorted
  · intro role hrole
    have hnote : (fun onset : Onset τ γ => decide (onset.note.role = role)) ∘
        StampedNote.onset output.counter = fun note => decide (note.role = role) := rfl
    rw [honsets, onsetsOf, List.filter_map, hnote, List.filter_comm, Renderer.filter_mergeSort hrole]
  · intro role hrole
    rw [hwaiting, List.filter_comm, Renderer.filter_mergeSort hrole]

end Output

end Chiptune
