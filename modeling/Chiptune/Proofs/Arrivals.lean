import Chiptune.Proofs.NoteOns
import Chiptune.Proofs.Recital
import Chiptune.Proofs.Requests

/-!
Notes on their way through an output.

A note waits in the queue until a buffer takes it in, and then with the renderer until its sample
comes; if that has passed, it begins with the first sample of the buffer.

Main statement: over any run of pushes and buffers that finds room for every note, the notes begun
are those that were due, each once and at its sample, in the order of sample, stamp and arrival, and
the notes that wait are all the others, in the order of stamp and arrival.
-/
namespace Chiptune

variable {τ γ : Type}

namespace Renderer

section

variable [Scalar γ]

/-- A note finds room among those that wait.  To cut everything takes no room. -/
def Intake.HasRoom (intake : Intake τ γ) : Message τ γ → Prop
  | .note _ => intake.renderer.pending.length < pendingCapacity
  | .stopAll _ => True

instance (intake : Intake τ γ) : (message : Message τ γ) → Decidable (intake.HasRoom message)
  | .note _ => inferInstanceAs (Decidable (_ < pendingCapacity))
  | .stopAll _ => .isTrue trivial

theorem foldl_accept_notes {notes : List (StampedNote τ γ)} {intake : Intake τ γ}
    (hroom : Admits Intake.accept Intake.HasRoom intake (notes.map Message.note)) :
    ((notes.map Message.note).foldl Intake.accept intake).renderer =
      { intake.renderer with pending := intake.renderer.pending ++ notes } := by
  induction notes generalizing intake with
  | nil => simp
  | cons note later ih =>
      have hnow : intake.renderer.pending.length < pendingCapacity := hroom.1
      rw [List.map_cons, List.foldl_cons, ih hroom.2]
      simp [Intake.accept, hnow]

/-- Notes that all find room are sorted in, and change nothing that sounds. -/
theorem drain_notes {renderer : Renderer τ γ} {notes : List (StampedNote τ γ)}
    (horder : InOrder renderer.pending)
    (hroom : Admits Intake.accept Intake.HasRoom ⟨renderer, false⟩ (notes.map Message.note)) :
    renderer.drain (notes.map .note) =
      { renderer with pending := sortBy StampedNote.stamp (renderer.pending ++ notes) } := by
  rw [drain_eq_sort _ horder, foldl_accept_notes hroom]
  rfl

end

end Renderer

/-- What does not begin before a sample is due then or later. -/
theorem StampedNote.onset_of_not_begins {first last : Nat} (hle : first ≤ last)
    {note : StampedNote τ γ} (h : note.begins first last = false) :
    note.onset last = note.onset first := by
  have hlast : ¬ max first note.stamp < last := of_decide_eq_false h
  exact congrArg (Onset.mk · note) (by omega)

namespace Output

/-- The next buffer has room for every note that it finds in the queue. -/
def HasRoom [Scalar γ] (output : Output τ γ) : Prop :=
  Admits Renderer.Intake.accept Renderer.Intake.HasRoom ⟨output.renderer, false⟩ output.queue

instance [Scalar γ] (output : Output τ γ) : Decidable output.HasRoom :=
  inferInstanceAs (Decidable (Admits _ _ _ _))

inductive Event (τ γ : Type) where
  | push (message : Message τ γ)
  | buffer (size : Nat)

def Event.note? : Event τ γ → Option (StampedNote τ γ)
  | .push message => message.note?
  | .buffer _ => none

def Event.isSilence : Event τ γ → Bool
  | .push (.stopAll _) => true
  | .push (.note _) | .buffer _ => false

/-- Everything finds room, in the queue and with the renderer, and the counter does not go round. -/
def Takes [Scalar γ] (output : Output τ γ) : Event τ γ → Prop
  | .push _ => output.queue.length < output.slots
  | .buffer size => output.HasRoom ∧ output.counter + output.framesIn size < 2 ^ 64

instance [Scalar γ] (output : Output τ γ) : (event : Event τ γ) → Decidable (output.Takes event)
  | .push _ => inferInstanceAs (Decidable (_ < _))
  | .buffer _ => inferInstanceAs (Decidable (HasRoom _ ∧ _ < _))

variable [Scalar τ] [Scalar γ] [Narrowing τ γ] [Waveform γ]

/-- What a buffer does with the notes that wait at its beginning. -/
structure Serves (output after : Output τ γ) (waiting : List (StampedNote τ γ))
    (onsets : List (Onset τ γ)) : Prop where
  rate : after.rate = output.rate
  queue : after.queue = []
  order : InOrder after.renderer.pending
  /-- What does not begin is due when it was due at the beginning. -/
  split : onsets ++ after.renderer.pending.map (StampedNote.onset after.counter) =
    waiting.map (StampedNote.onset output.counter)

/-- A buffer that takes in nothing but notes, all of which find room. -/
theorem playFrames_serves (output : Output τ γ) (frames : Nat) {notes : List (StampedNote τ γ)}
    (hqueue : output.queue = notes.map .note) (horder : InOrder output.renderer.pending)
    (hroom : output.HasRoom) (hlast : output.counter + frames < 2 ^ 64) :
    output.Serves (output.playFrames frames).2
      (sortBy StampedNote.stamp (output.renderer.pending ++ notes))
      (output.playFrames frames).1.onsets.toList := by
  let waiting := sortBy StampedNote.stamp (output.renderer.pending ++ notes)
  let first := output.counter
  let last := output.counter + frames
  let take : Take τ γ := ⟨output.drain.renderer, first, #[], #[]⟩
  let after := take.frames (output.rate : γ) frames
  have hdrain : take.renderer = { output.renderer with pending := waiting } := by
    change output.renderer.drain output.queue = _
    rw [HasRoom, hqueue] at hroom
    rw [hqueue]
    exact Renderer.drain_notes horder hroom
  have hwaiting : take.renderer.pending = waiting := by rw [hdrain]
  have hsorted : InOrder waiting := ascending_sortBy _ _
  have hplays := take.frames_plays (output.rate : γ) frames (hwaiting ▸ hsorted) hlast
  have hpending : after.renderer.pending = waiting.dropWhile (StampedNote.begins first last) := by
    rw [← hwaiting]
    exact hplays.pending
  have honsets : after.onsets.toList =
      (waiting.takeWhile (StampedNote.begins first last)).map (StampedNote.onset first) := by
    rw [← hwaiting]
    exact hplays.onsets
  have hcounter : (output.playFrames frames).2.counter = last := SampleClock.after_of_lt hlast
  have hwaits : ∀ note ∈ waiting.dropWhile (StampedNote.begins first last),
      note.onset last = note.onset first := by
    intro note hnote
    have hnot := not_of_mem_dropWhile (hsorted.turn first last) hnote
    exact StampedNote.onset_of_not_begins (Nat.le_add_right _ _) (Bool.eq_false_iff.mpr hnot)
  refine ⟨rfl, rfl, ?_, ?_⟩
  · change InOrder after.renderer.pending
    rw [hpending]
    exact hsorted.dropWhile _
  · change after.onsets.toList ++ after.renderer.pending.map _ = _
    rw [honsets, hpending, hcounter, List.map_congr_left hwaits, ← List.map_append,
      List.takeWhile_append_dropWhile]

end Output

/-- The turn of a note among the notes of all samples: by sample, then by stamp. -/
def Onset.turn (onset : Onset τ γ) : Nat ×ₗ Nat := toLex (onset.sample, onset.note.stamp)

/-- A note is due at its stamp, or with the first sample of the buffer that takes it in. -/
theorem StampedNote.turn_onset_le (first : Nat) (a b : StampedNote τ γ) :
    (a.onset first).turn ≤ (b.onset first).turn ↔ a.stamp ≤ b.stamp := by
  simp only [Onset.turn, onset, Prod.Lex.toLex_le_toLex]
  omega

/-- Notes that arrive are due behind those of their turn that have arrived before. -/
theorem schedule_append {begun due : List (Onset τ γ)} {pending : List (StampedNote τ γ)}
    {first : Nat} (hpast : ∀ onset ∈ begun, onset.sample < first)
    (hschedule : begun ++ pending.map (StampedNote.onset first) = sortBy Onset.turn due)
    (fresh : List (StampedNote τ γ)) :
    begun ++ (sortBy StampedNote.stamp (pending ++ fresh)).map (StampedNote.onset first) =
      sortBy Onset.turn (due ++ fresh.map (StampedNote.onset first)) := by
  have hbegun : Ascending Onset.turn begun := by
    have hsorted := ascending_sortBy Onset.turn due
    rw [← hschedule] at hsorted
    exact hsorted.sublist (List.sublist_append_left _ _)
  have hlater : ∀ earlier ∈ begun, ∀ later ∈ (pending ++ fresh).map (StampedNote.onset first),
      earlier.turn ≤ later.turn := by
    intro earlier hearlier later hlater
    obtain ⟨note, -, rfl⟩ := List.mem_map.mp hlater
    exact Prod.Lex.toLex_le_toLex.mpr (.inl ((hpast earlier hearlier).trans_le (le_max_left _ _)))
  calc begun ++ (sortBy StampedNote.stamp (pending ++ fresh)).map (StampedNote.onset first)
      = begun ++ sortBy Onset.turn ((pending ++ fresh).map (StampedNote.onset first)) := by
        rw [sortBy_map fun a _ b _ => (StampedNote.turn_onset_le first a b).symm]
    _ = sortBy Onset.turn (begun ++ pending.map (StampedNote.onset first) ++
          fresh.map (StampedNote.onset first)) := by
        rw [← sortBy_append_of_le hbegun hlater, List.map_append, List.append_assoc]
    _ = sortBy Onset.turn (due ++ fresh.map (StampedNote.onset first)) := by
        rw [hschedule, sortBy_sortBy_append]

/-- An output, with a record of the notes that have been put into its queue. -/
structure Delivery (τ γ : Type) where
  output : Output τ γ
  /-- The notes that buffers have taken in, in the order of their arrival, with the samples at which
  they are due. -/
  due : List (Onset τ γ)
  /-- The notes that have arrived since the last buffer. -/
  fresh : List (StampedNote τ γ)
  /-- The notes that have begun, in order. -/
  begun : List (Onset τ γ)

namespace Delivery

open Output (Event)

def opened (output : Output τ γ) : Delivery τ γ := ⟨output, [], [], []⟩

variable [Scalar τ] [Scalar γ] [Narrowing τ γ] [Waveform γ]

def step (delivery : Delivery τ γ) : Event τ γ → Delivery τ γ
  | .push message =>
    { delivery with
      output := (delivery.output.push message).2
      fresh := delivery.fresh ++ message.note?.toList }
  | .buffer size =>
    let output := delivery.output
    { output := (output.play size).2
      due := delivery.due ++ delivery.fresh.map (StampedNote.onset output.counter)
      fresh := []
      begun := delivery.begun ++ (output.playFrames (output.framesIn size)).1.onsets.toList }

def run (delivery : Delivery τ γ) (events : List (Event τ γ)) : Delivery τ γ :=
  events.foldl step delivery

/-- Everything but a silence, as long as it finds room. -/
def Allows (delivery : Delivery τ γ) (event : Event τ γ) : Prop :=
  event.isSilence = false ∧ delivery.output.Takes event

instance (delivery : Delivery τ γ) (event : Event τ γ) : Decidable (delivery.Allows event) :=
  inferInstanceAs (Decidable (_ ∧ Output.Takes _ _))

/-- What holds between events.  A note that waits is due at its stamp or has passed it. -/
structure Keeps (output : Output τ γ) (delivery : Delivery τ γ) : Prop where
  rate : delivery.output.rate = output.rate
  queue : delivery.output.queue = delivery.fresh.map .note
  order : InOrder delivery.output.renderer.pending
  schedule : delivery.begun ++
      delivery.output.renderer.pending.map (StampedNote.onset delivery.output.counter) =
    sortBy Onset.turn delivery.due
  hears : delivery.output.Hears output.renderer.channels output.counter [] delivery.begun

variable {output : Output τ γ} {delivery : Delivery τ γ}

theorem keeps_opened (hqueue : output.queue = []) (hpending : output.renderer.pending = []) :
    (opened output).Keeps output where
  rate := rfl
  queue := hqueue
  order := by
    change InOrder output.renderer.pending
    rw [hpending]
    exact List.Pairwise.nil
  schedule := by
    change ([] : List (Onset τ γ)) ++ output.renderer.pending.map _ = sortBy Onset.turn []
    rw [hpending, sortBy_of_ascending List.Pairwise.nil]
    rfl
  hears := output.hears_self

theorem Keeps.push (h : delivery.Keeps output) (message : Message τ γ)
    (hallows : delivery.Allows (.push message)) : (delivery.step (.push message)).Keeps output := by
  cases message with
  | stopAll stamp => exact absurd hallows.1 (by simp [Event.isSilence])
  | note note =>
      have hpush : (delivery.output.push (.note note)).2 = delivery.output.queued [.note note] :=
        Output.push_of_slot hallows.2 _
      obtain ⟨hrate, hqueue, horder, hschedule, hhears⟩ := h
      unfold step
      simp only [hpush]
      refine ⟨hrate, ?_, horder, hschedule, hhears.queued _⟩
      simp [Output.queued, hqueue, Message.note?]

theorem Keeps.buffer (h : delivery.Keeps output) (size : Nat)
    (hallows : delivery.Allows (.buffer size)) : (delivery.step (.buffer size)).Keeps output := by
  have hserves := delivery.output.playFrames_serves (delivery.output.framesIn size) h.queue h.order
    hallows.2.1 hallows.2.2
  have hcuts : delivery.output.cutsAhead = [] := by
    simp [Output.cutsAhead, h.queue, Message.isSilence]
  refine ⟨hserves.rate.trans h.rate, hserves.queue, hserves.order, ?_, ?_⟩
  · refine (List.append_assoc _ _ _).trans ?_
    refine (congrArg (delivery.begun ++ ·) hserves.split).trans ?_
    exact schedule_append h.hears.onsets_lt h.schedule delivery.fresh
  · have hbuffer := h.hears.buffer (delivery.output.framesIn size) hallows.2.2
    rw [hcuts] at hbuffer
    exact hbuffer

/-- What an event keeps. -/
theorem Keeps.step (h : delivery.Keeps output) {event : Event τ γ}
    (hallows : delivery.Allows event) : (delivery.step event).Keeps output := by
  cases event with
  | push message => exact h.push message hallows
  | buffer size => exact h.buffer size hallows

def arrived (delivery : Delivery τ γ) : List (StampedNote τ γ) :=
  delivery.due.map Onset.note ++ delivery.fresh

theorem arrived_step (delivery : Delivery τ γ) (event : Event τ γ) :
    (delivery.step event).arrived = delivery.arrived ++ event.note?.toList := by
  cases event with
  | push message => simp [step, arrived, Event.note?]
  | buffer size => simp [step, arrived, Event.note?, StampedNote.onset, Function.comp_def]

theorem arrived_run (delivery : Delivery τ γ) (events : List (Event τ γ)) :
    (delivery.run events).arrived = delivery.arrived ++ events.filterMap Event.note? := by
  induction events generalizing delivery with
  | nil => simp [run]
  | cons event later ih =>
      refine (ih (delivery.step event)).trans ?_
      rw [arrived_step, List.append_assoc, List.filterMap_cons]
      cases event.note? <;> rfl

/-- The notes that have arrived, told by what has become of them. -/
structure Conserves (output : Output τ γ) (delivery : Delivery τ γ) : Prop where
  /-- The notes that were due have begun, each once, in the order of sample, stamp and arrival. -/
  begun : delivery.begun = sortBy Onset.turn
    (delivery.due.filter fun onset => decide (onset.sample < delivery.output.counter))
  /-- The others wait in the order of stamp and arrival. -/
  pending : delivery.output.renderer.pending = sortBy StampedNote.stamp
    ((delivery.due.filter fun onset => decide (delivery.output.counter ≤ onset.sample)).map
      Onset.note)
  /-- What no buffer has taken in is in the queue. -/
  queue : delivery.output.queue = delivery.fresh.map .note
  /-- Every channel has begun the notes of its part that have begun, each at its sample, and no
  others. -/
  channels : ∀ role, delivery.output.renderer.channels.get role =
    (output.renderer.channels.get role).replay (output.rate : γ) [] (onsetsOf role delivery.begun)
      output.counter (delivery.output.counter - output.counter)

/-- The notes that have begun stand in front of those that wait. -/
theorem Keeps.filter_due (h : delivery.Keeps output) :
    sortBy Onset.turn
        (delivery.due.filter fun onset => decide (onset.sample < delivery.output.counter)) =
      delivery.begun ∧
    sortBy Onset.turn
        (delivery.due.filter fun onset => decide (delivery.output.counter ≤ onset.sample)) =
      delivery.output.renderer.pending.map (StampedNote.onset delivery.output.counter) := by
  have hwaits : ∀ onset ∈ delivery.output.renderer.pending.map
      (StampedNote.onset delivery.output.counter), delivery.output.counter ≤ onset.sample := by
    intro onset honset
    obtain ⟨note, -, rfl⟩ := List.mem_map.mp honset
    exact le_max_left _ _
  rw [← filter_sortBy, ← filter_sortBy, ← h.schedule]
  constructor
  · refine filter_append_of_turn ?_ ?_
    · exact fun onset honset => decide_eq_true (h.hears.onsets_lt onset honset)
    · intro onset honset
      simpa using hwaits onset honset
  · rw [List.filter_append, List.filter_eq_nil_iff.mpr, List.nil_append, List.filter_eq_self]
    · exact fun onset honset => decide_eq_true (hwaits onset honset)
    · intro onset honset
      simpa using h.hears.onsets_lt onset honset

theorem Keeps.conserves (h : delivery.Keeps output) : delivery.Conserves output where
  begun := h.filter_due.1.symm
  pending := by
    let onset : StampedNote τ γ → Onset τ γ := StampedNote.onset delivery.output.counter
    let waiting := delivery.due.filter fun onset => decide (delivery.output.counter ≤ onset.sample)
    have hsorted : sortBy Onset.turn waiting = delivery.output.renderer.pending.map onset :=
      h.filter_due.2
    have hnote (notes : List (StampedNote τ γ)) : (notes.map onset).map Onset.note = notes := by
      rw [List.map_map]
      exact List.map_id notes
    have hwaiting : (waiting.map Onset.note).map onset = waiting := by
      rw [List.map_map]
      refine (List.map_congr_left fun entry hentry => ?_).trans (List.map_id waiting)
      have hmem : entry ∈ sortBy Onset.turn waiting := (perm_sortBy _ _).mem_iff.mpr hentry
      rw [hsorted] at hmem
      obtain ⟨note, -, rfl⟩ := List.mem_map.mp hmem
      rfl
    calc delivery.output.renderer.pending
        = (sortBy Onset.turn ((waiting.map Onset.note).map onset)).map Onset.note := by
          rw [hwaiting, hsorted, hnote]
      _ = sortBy StampedNote.stamp (waiting.map Onset.note) := by
          rw [sortBy_map fun a _ b _ => (StampedNote.turn_onset_le _ a b).symm]
          exact hnote _
  queue := h.queue
  channels role := by
    rw [h.hears.channels role, h.rate, Channel.cutAt_of_not_mem List.not_mem_nil]

/-- Notes on their way through an output are neither lost nor played again.  An output starts with
an empty queue and no note that waits; notes arrive and buffers are filled in any order, and every
note finds room.  Then each note that a buffer has taken in has begun once, at its stamp or with the
first sample of that buffer if this is later, unless this is still to come; notes that begin with
one sample begin in the order of stamp and arrival; and the other notes wait in that order. -/
theorem conserves_run {output : Output τ γ} (hqueue : output.queue = [])
    (hpending : output.renderer.pending = []) (events : List (Event τ γ))
    (hadmits : Admits step Allows (opened output) events) :
    ((opened output).run events).arrived = events.filterMap Event.note? ∧
      ((opened output).run events).Conserves output := by
  refine ⟨arrived_run (opened output) events, ?_⟩
  have hkeeps : ((opened output).run events).Keeps output :=
    hadmits.foldl (fun _ _ h hallows => h.step hallows) (keeps_opened hqueue hpending)
  exact hkeeps.conserves

open Curves in
/-- The second note is late for the first buffer.  The second buffer has no frames and takes in two
notes, one of them late, that begin with the third, before and behind a note that waits for the same
sample.  Of the next two, one begins with the last frame, so that its channel alone is still within
its gate, and the other waits; the last note is in the queue. -/
theorem conserves_run_over_buffers :
    let note (stamp : Nat) (role : Role) : StampedNote Rat Rat := ⟨stamp, role, .tone 440, 1, 2⟩
    let output : Output Rat Rat := .initial 10 2 8 5
    let push (stamp : Nat) (role : Role) : Event Rat Rat := .push (.note (note stamp role))
    let events : List (Event Rat Rat) := [push 7 .lead, push 3 .bass, .buffer 4, push 6 .harmony,
      push 7 .percussion, .buffer 0, push 9 .lead, push 10 .bass, .buffer 7, push 0 .lead]
    let delivery := (opened output).run events
    (output.queue = [] ∧ output.renderer.pending = [] ∧
        Admits step Allows (opened output) events) ∧
      delivery.begun.map (fun onset => (onset.sample, onset.note.stamp)) =
        [(5, 3), (7, 6), (7, 7), (7, 7), (9, 9)] ∧
      delivery.output.renderer.channels.toList.map
          (fun channel => (channel.frequency, channel.gate)) =
        [(440, 1), (440, 0), (440, 0), (440, 0)] ∧
      delivery.output.renderer.pending.map StampedNote.stamp = [10] ∧
      delivery.arrived = events.filterMap Event.note? ∧ delivery.Conserves output := by
  intro note output push events delivery
  have hadmits : Admits step Allows (opened output) events := by decide_cbv
  exact ⟨⟨rfl, rfl, hadmits⟩, by decide_cbv, by decide_cbv, by decide_cbv,
    conserves_run rfl rfl events hadmits⟩

end Delivery

end Chiptune
