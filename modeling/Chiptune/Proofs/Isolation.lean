import Chiptune.Proofs.Arrivals
import Chiptune.Proofs.Splitting

/-!
What one more note can make heard.

A note is held in a list with the others, moves them in it, and is cut with them, but it begins on
the channel of its own part alone, and no sooner than its stamp.

Main statement: two runs of an output, one of which is told a note more, make the same sound up to
the stamp of the note, and at all times have the channels of the other parts in the same state.
-/
namespace Chiptune

variable {τ γ : Type}

/-- Lists of notes that a selection cannot tell apart unless it selects a certain note. -/
def SameBut (extra : StampedNote τ γ) (first second : List (StampedNote τ γ)) : Prop :=
  ∀ p : StampedNote τ γ → Bool, p extra = false → first.filter p = second.filter p

namespace SameBut

variable {extra : StampedNote τ γ} {first second : List (StampedNote τ γ)}

theorem append (h : SameBut extra first second) (notes : List (StampedNote τ γ)) :
    SameBut extra (first ++ notes) (second ++ notes) := by
  intro p hp
  rw [List.filter_append, List.filter_append, h p hp]

theorem append_extra (h : SameBut extra first second) :
    SameBut extra first (second ++ [extra]) := by
  intro p hp
  have hnone : [extra].filter p = [] := List.filter_eq_nil_iff.mpr (by simpa using hp)
  rw [List.filter_append, hnone, List.append_nil, h p hp]

theorem filter (h : SameBut extra first second) (q : StampedNote τ γ → Bool) :
    SameBut extra (first.filter q) (second.filter q) := by
  intro p hp
  rw [List.filter_filter, List.filter_filter]
  exact h _ (by simp [hp])

theorem sortBy (h : SameBut extra first second) :
    SameBut extra (sortBy StampedNote.stamp first) (sortBy StampedNote.stamp second) := by
  intro p hp
  rw [filter_sortBy, filter_sortBy, h p hp]

end SameBut

/-- The same entries, or one more in the second list. -/
inductive Inserted {α : Type} (extra : α) : List α → List α → Prop where
  | none (entries : List α) : Inserted extra entries entries
  | one (before after : List α) : Inserted extra (before ++ after) (before ++ extra :: after)

theorem Inserted.concat {α : Type} {extra : α} {first second : List α}
    (h : Inserted extra first second) (entry : α) :
    Inserted extra (first ++ [entry]) (second ++ [entry]) := by
  cases h with
  | none => exact .none _
  | one before after =>
      rw [List.append_assoc, List.append_assoc]
      exact .one before (after ++ [entry])

namespace Renderer

variable [Scalar γ]

/-- Renderers at a sample that differ at most in what a note may have changed. -/
structure Alike (extra : StampedNote τ γ) (now : Nat) (first second : Renderer τ γ) : Prop where
  pending : SameBut extra first.pending second.pending
  others : ∀ role, role ≠ extra.role → first.channels.get role = second.channels.get role
  early : now ≤ extra.stamp → first.channels = second.channels

variable {extra : StampedNote τ γ} {now : Nat}

theorem Alike.accept {first second : Intake τ γ}
    (h : Alike extra now first.renderer second.renderer) {message : Message τ γ}
    (hfirst : first.HasRoom message) (hsecond : second.HasRoom message) :
    Alike extra now (first.accept message).renderer (second.accept message).renderer := by
  cases message with
  | note note =>
      have hfirst : first.renderer.pending.length < pendingCapacity := hfirst
      have hsecond : second.renderer.pending.length < pendingCapacity := hsecond
      simp only [Intake.accept, hfirst, hsecond, if_true]
      exact ⟨h.pending.append [note], h.others, h.early⟩
  | stopAll stamp =>
      refine ⟨h.pending.filter _, fun role hrole => ?_, fun hnow => ?_⟩
      · simp only [Intake.accept, PerRole.get_map, h.others role hrole]
      · simp only [Intake.accept, h.early hnow]

theorem Alike.accept_extra {first second : Intake τ γ}
    (h : Alike extra now first.renderer second.renderer) (hroom : second.HasRoom (.note extra)) :
    Alike extra now first.renderer (second.accept (.note extra)).renderer := by
  have hroom : second.renderer.pending.length < pendingCapacity := hroom
  simp only [Intake.accept, hroom, if_true]
  exact ⟨h.pending.append_extra, h.others, h.early⟩

/-- Notes and silences on either side of the extra note do the same to both. -/
theorem Alike.foldl_accept {first second : Intake τ γ}
    (h : Alike extra now first.renderer second.renderer) {queue other : List (Message τ γ)}
    (hqueue : Inserted (.note extra) queue other)
    (hfirst : Admits Intake.accept Intake.HasRoom first queue)
    (hsecond : Admits Intake.accept Intake.HasRoom second other) :
    Alike extra now (queue.foldl Intake.accept first).renderer
      (other.foldl Intake.accept second).renderer := by
  have hrun {messages : List (Message τ γ)} {first second : Intake τ γ}
      (hfirst : Admits Intake.accept Intake.HasRoom first messages)
      (hsecond : Admits Intake.accept Intake.HasRoom second messages)
      (h : Alike extra now first.renderer second.renderer) :
      Alike extra now (messages.foldl Intake.accept first).renderer
        (messages.foldl Intake.accept second).renderer := by
    refine Admits.foldl_both (fun first second : Intake τ γ =>
      Alike extra now first.renderer second.renderer) ?_ hfirst hsecond h
    exact fun _ _ _ h hfirst hsecond => Alike.accept h hfirst hsecond
  cases hqueue with
  | none => exact hrun hfirst hsecond h
  | one before after =>
      rw [List.foldl_append, List.foldl_append, List.foldl_cons]
      obtain ⟨hbefore, hafter⟩ := Admits.append.mp hfirst
      obtain ⟨hsame, hextra, hrest⟩ := Admits.append.mp hsecond
      exact hrun hafter hrest ((hrun hbefore hsame h).accept_extra hextra)

theorem Alike.drain {first second : Renderer τ γ} (h : Alike extra now first second)
    (hfirst : InOrder first.pending) (hsecond : InOrder second.pending)
    {queue other : List (Message τ γ)} (hqueue : Inserted (.note extra) queue other)
    (hroom : Admits Intake.accept Intake.HasRoom ⟨first, false⟩ queue)
    (hother : Admits Intake.accept Intake.HasRoom ⟨second, false⟩ other) :
    Alike extra now (first.drain queue) (second.drain other) := by
  have haccept := Alike.foldl_accept h hqueue hroom hother
  rw [drain_eq_sort queue hfirst, drain_eq_sort other hsecond]
  exact ⟨haccept.pending.sortBy, haccept.others, haccept.early⟩

variable [Zero τ] [Narrowing τ γ]

variable [Waveform γ]

theorem frame_begun {renderer : Renderer τ γ} (horder : InOrder renderer.pending) (rate : γ)
    (now : Nat) : (renderer.frame rate now).begun =
      renderer.pending.filter (StampedNote.begins now (now + 1)) := by
  rw [← takeWhile_eq_filter (horder.turn now (now + 1)), ← StampedNote.due_eq_begins]
  rfl

theorem frame_pending {renderer : Renderer τ γ} (horder : InOrder renderer.pending) (rate : γ)
    (now : Nat) : (renderer.frame rate now).renderer.pending =
      renderer.pending.filter fun note => !note.begins now (now + 1) := by
  rw [← dropWhile_eq_filter (horder.turn now (now + 1)), ← StampedNote.due_eq_begins]
  exact drop_length_takeWhile

theorem frame_channels (renderer : Renderer τ γ) (rate : γ) (now : Nat) :
    (renderer.frame rate now).renderer.channels =
      ((renderer.frame rate now).begun.foldl begin renderer.channels).map fun channel =>
        (channel.render rate).2 :=
  rfl

theorem frame_sample (renderer : Renderer τ γ) (rate : γ) (now : Nat) :
    (renderer.frame rate now).sample =
      mix (((renderer.frame rate now).begun.foldl begin renderer.channels).map fun channel =>
        (channel.render rate).1) :=
  rfl

/-- The extra note is heard in its own part alone, and not before its stamp. -/
theorem Alike.frame {first second : Renderer τ γ} (h : Alike extra now first second)
    (hfirst : InOrder first.pending) (hsecond : InOrder second.pending) (rate : γ) :
    Alike extra (now + 1) (first.frame rate now).renderer (second.frame rate now).renderer ∧
      (now < extra.stamp → (first.frame rate now).sample = (second.frame rate now).sample) := by
  have hdue := h.pending.filter (StampedNote.begins now (now + 1))
  rw [← frame_begun hfirst rate, ← frame_begun hsecond rate] at hdue
  have hearly : now < extra.stamp →
      (first.frame rate now).begun.foldl begin first.channels =
        (second.frame rate now).begun.foldl begin second.channels := by
    intro hnow
    have hextra : extra.begins now (now + 1) = false := decide_eq_false (by omega)
    rw [frame_begun hfirst, frame_begun hsecond, h.pending _ hextra, h.early hnow.le]
  refine ⟨⟨?_, fun role hrole => ?_, fun hnow => ?_⟩, fun hnow => ?_⟩
  · rw [frame_pending hfirst, frame_pending hsecond]
    exact h.pending.filter _
  · have hextra : decide (extra.role = role) = false := decide_eq_false hrole.symm
    have hheard : ((first.frame rate now).begun.foldl begin first.channels).get role =
        ((second.frame rate now).begun.foldl begin second.channels).get role := by
      rw [get_foldl_begin, get_foldl_begin, hdue _ hextra, h.others role hrole]
    rw [frame_channels, frame_channels, PerRole.get_map, PerRole.get_map, hheard]
  · rw [frame_channels, frame_channels, hearly hnow]
  · rw [frame_sample, frame_sample, hearly hnow]

end Renderer

namespace Take

variable [Scalar γ] [Zero τ] [Narrowing τ γ] [Waveform γ]

/-- Takes from one sample on that differ at most in what a note may have changed. -/
structure Alike (extra : StampedNote τ γ) (start : Nat) (first second : Take τ γ) : Prop where
  counter : second.counter = first.counter
  renderer : first.renderer.Alike extra first.counter second.renderer
  inOrder : InOrder first.renderer.pending ∧ InOrder second.renderer.pending
  length : start + first.samples.size = first.counter
  size : second.samples.size = first.samples.size
  samples : ∀ i, start + i < extra.stamp → first.samples[i]? = second.samples[i]?

variable {extra : StampedNote τ γ} {start : Nat} {first second : Take τ γ}

theorem Alike.step (h : Alike extra start first second) (rate : γ)
    (hcounter : first.counter + 1 < 2 ^ 64) :
    Alike extra start (first.step rate) (second.step rate) := by
  have hnow : (first.step rate).counter = first.counter + 1 := SampleClock.after_of_lt hcounter
  obtain ⟨hrenderer, hsample⟩ := h.renderer.frame h.inOrder.1 h.inOrder.2 rate
  have hfirst : (first.step rate).samples =
      first.samples.push (first.renderer.frame rate first.counter).sample := rfl
  have hsecond : (second.step rate).samples =
      second.samples.push (second.renderer.frame rate first.counter).sample := by
    rw [← h.counter]
    rfl
  refine ⟨?_, ?_, ?_, ?_, ?_, fun i hi => ?_⟩
  · exact congrArg (SampleClock.after · 1) h.counter
  · rw [hnow]
    change Renderer.Alike extra _ _ (second.renderer.frame rate second.counter).renderer
    rw [h.counter]
    exact hrenderer
  · rw [pending_step, pending_step]
    exact ⟨h.inOrder.1.dropWhile _, h.inOrder.2.dropWhile _⟩
  · rw [hnow, hfirst, Array.size_push, ← h.length, Nat.add_assoc]
  · rw [hfirst, hsecond, Array.size_push, Array.size_push, h.size]
  · rw [hfirst, hsecond, Array.getElem?_push, Array.getElem?_push, h.size]
    split
    · next hlast => rw [hsample (by have hlength := h.length; omega)]
    · exact h.samples i hi

theorem Alike.frames (h : Alike extra start first second) (rate : γ) (frames : Nat)
    (hcounter : first.counter + frames < 2 ^ 64) :
    Alike extra start (first.frames rate frames) (second.frames rate frames) := by
  induction frames generalizing first second with
  | zero => exact h
  | succ n ih =>
      have hnow : (first.step rate).counter = first.counter + 1 :=
        SampleClock.after_of_lt (by omega)
      exact ih (h.step rate (by omega)) (by omega)

end Take

namespace Output

/-- Every sample is spread over the speakers. -/
theorem getElem?_flatMap_replicate {α : Type} (samples : List α) {speakers : Nat}
    (hspeakers : 0 < speakers) (i : Nat) :
    (samples.flatMap (List.replicate speakers))[i]? = samples[i / speakers]? := by
  induction samples generalizing i with
  | nil => simp
  | cons sample later ih =>
      rw [List.flatMap_cons, List.getElem?_append, List.length_replicate]
      by_cases hi : i < speakers
      · rw [if_pos hi, Nat.div_eq_of_lt hi, List.getElem?_replicate, if_pos hi]
        rfl
      · rw [if_neg hi, ih, Nat.div_eq_sub_div hspeakers (Nat.le_of_not_lt hi)]
        rfl

/-- The values of a buffer of some size: each sample for every speaker, and silence behind them. -/
def spread [Zero γ] (speakers size : Nat) (samples : List γ) : List γ :=
  let sounding := samples.flatMap (List.replicate speakers)
  sounding ++ List.replicate (size - sounding.length) 0

theorem getElem?_spread_congr [Zero γ] {first second : List γ}
    (hlength : second.length = first.length) {speakers i : Nat}
    (h : first[i / max speakers 1]? = second[i / max speakers 1]?) (size : Nat) :
    (spread speakers size first)[i]? = (spread speakers size second)[i]? := by
  have hsounding : (second.flatMap (List.replicate speakers)).length =
      (first.flatMap (List.replicate speakers)).length := by
    simp [List.length_flatMap, hlength]
  rw [spread, spread, List.getElem?_append, List.getElem?_append, hsounding]
  split
  · next hi =>
      have hspeakers : 0 < speakers := by
        by_contra hnone
        obtain rfl : speakers = 0 := Nat.eq_zero_of_not_pos hnone
        simp at hi
      rw [Nat.max_eq_left hspeakers] at h
      rw [getElem?_flatMap_replicate _ hspeakers, getElem?_flatMap_replicate _ hspeakers, h]
  · rfl

/-- Outputs that differ at most in what a note may have changed. -/
structure Alike (extra : StampedNote τ γ) (first second : Output τ γ) : Prop where
  same : second = { first with queue := second.queue, renderer := second.renderer }
  queue : Inserted (.note extra) first.queue second.queue
  inOrder : InOrder first.renderer.pending ∧ InOrder second.renderer.pending
  renderer : first.renderer.Alike extra first.counter second.renderer

variable {extra : StampedNote τ γ} {first second : Output τ γ}

theorem alike_self {output : Output τ γ} (horder : InOrder output.renderer.pending) :
    output.Alike extra output :=
  ⟨rfl, .none _, ⟨horder, horder⟩, ⟨fun _ _ => rfl, fun _ _ => rfl, fun _ => rfl⟩⟩

theorem Alike.queued (h : first.Alike extra second) (message : Message τ γ) :
    (first.queued [message]).Alike extra (second.queued [message]) where
  same := by
    rw [h.same]
    rfl
  queue := h.queue.concat message
  inOrder := h.inOrder
  renderer := h.renderer

/-- The extra note is put behind what is the same. -/
theorem alike_queued_extra {output : Output τ γ} (horder : InOrder output.renderer.pending) :
    output.Alike extra (output.queued [.note extra]) where
  same := rfl
  queue := by
    have hone : Inserted (.note extra) (output.queue ++ []) (output.queue ++ [.note extra]) :=
      .one output.queue []
    rwa [List.append_nil] at hone
  inOrder := ⟨horder, horder⟩
  renderer := ⟨fun _ _ => rfl, fun _ _ => rfl, fun _ => rfl⟩

variable [Scalar τ] [Scalar γ] [Narrowing τ γ] [Waveform γ]

theorem Alike.playFrames (h : first.Alike extra second) (frames : Nat) (hfirst : first.HasRoom)
    (hsecond : second.HasRoom) (hlast : first.counter + frames < 2 ^ 64) :
    Take.Alike extra first.counter (first.playFrames frames).1 (second.playFrames frames).1 := by
  have hcounter : second.counter = first.counter := by rw [h.same]
  have hrate : second.rate = first.rate := by rw [h.same]
  let start (output : Output τ γ) : Take τ γ := ⟨output.drain.renderer, output.counter, #[], #[]⟩
  have hstart : Take.Alike extra first.counter (start first) (start second) :=
    { counter := hcounter
      renderer := h.renderer.drain h.inOrder.1 h.inOrder.2 h.queue hfirst hsecond
      inOrder := ⟨Renderer.inOrder_drain h.inOrder.1 _, Renderer.inOrder_drain h.inOrder.2 _⟩
      length := rfl
      size := rfl
      samples := fun _ _ => rfl }
  change Take.Alike extra first.counter ((start first).frames (first.rate : γ) frames)
    ((start second).frames (second.rate : γ) frames)
  rw [hrate]
  exact hstart.frames _ frames hlast

theorem play_fst (output : Output τ γ) (size : Nat) :
    (output.play size).1 = spread output.speakers size
      (output.playFrames (output.framesIn size)).1.samples.toList :=
  rfl

theorem Alike.play (h : first.Alike extra second) {size : Nat} (hfirst : first.HasRoom)
    (hsecond : second.HasRoom) (hlast : first.counter + first.framesIn size < 2 ^ 64) :
    (first.play size).2.Alike extra (second.play size).2 ∧
      ∀ i, first.counter + i / max first.speakers 1 < extra.stamp →
        (first.play size).1[i]? = (second.play size).1[i]? := by
  have hcounter : second.counter = first.counter := by rw [h.same]
  have hspeakers : second.speakers = first.speakers := by rw [h.same]
  have hframes : second.framesIn size = first.framesIn size := by
    rw [framesIn, framesIn, hspeakers]
  have htake := h.playFrames (first.framesIn size) hfirst hsecond hlast
  have hnow : (first.playFrames (first.framesIn size)).1.counter =
      SampleClock.after first.counter (first.framesIn size) :=
    (Take.counter_frames _ _ _ hlast).trans (SampleClock.after_of_lt hlast).symm
  constructor
  · change Alike extra (first.playFrames _).2 (second.playFrames _).2
    rw [hframes, playFrames_snd, playFrames_snd, hcounter]
    refine ⟨?_, .none [], htake.inOrder, ?_⟩
    · rw [h.same]
    · rw [← hnow]
      exact htake.renderer
  · intro i hi
    have hsample := htake.samples (i / max first.speakers 1) hi
    rw [← Array.getElem?_toList, ← Array.getElem?_toList] at hsample
    rw [play_fst, play_fst, hframes, hspeakers]
    exact getElem?_spread_congr (by simpa using htake.size) hsample size

end Output

/-- A buffer as it has been filled, and the channels behind it. -/
structure Filled (γ : Type) where
  /-- The sample of its first frame. -/
  first : Nat
  /-- Values per frame. -/
  width : Nat
  values : List γ
  channels : PerRole (Channel γ)

/-- Buffers that are the same before the stamp of a note, and behind which the channels of the other
parts are the same. -/
structure Filled.Alike (extra : StampedNote τ γ) (first second : Filled γ) : Prop where
  start : second.first = first.first ∧ second.width = first.width
  values : ∀ i, first.first + i / first.width < extra.stamp → first.values[i]? = second.values[i]?
  channels : ∀ role, role ≠ extra.role → first.channels.get role = second.channels.get role

/-- An output with all buffers that it has filled. -/
structure Broadcast (τ γ : Type) where
  output : Output τ γ
  buffers : List (Filled γ)

namespace Broadcast

open Output (Event)

variable [Scalar τ] [Scalar γ] [Narrowing τ γ] [Waveform γ]

def opened (rate speakers slots counter : Nat) : Broadcast τ γ :=
  ⟨.initial rate speakers slots counter, []⟩

def step (broadcast : Broadcast τ γ) : Event τ γ → Broadcast τ γ
  | .push message => { broadcast with output := (broadcast.output.push message).2 }
  | .buffer size =>
    let output := broadcast.output
    let (values, after) := output.play size
    { output := after
      buffers := broadcast.buffers ++
        [⟨output.counter, max output.speakers 1, values, after.renderer.channels⟩] }

def run (broadcast : Broadcast τ γ) (events : List (Event τ γ)) : Broadcast τ γ :=
  events.foldl step broadcast

def Allows (broadcast : Broadcast τ γ) (event : Event τ γ) : Prop := broadcast.output.Takes event

instance (broadcast : Broadcast τ γ) (event : Event τ γ) : Decidable (broadcast.Allows event) :=
  inferInstanceAs (Decidable (Output.Takes _ _))

/-- Two broadcasts that differ at most in what a note may have changed. -/
structure Alike (extra : StampedNote τ γ) (first second : Broadcast τ γ) : Prop where
  output : first.output.Alike extra second.output
  buffers : List.Forall₂ (Filled.Alike extra) first.buffers second.buffers

variable {extra : StampedNote τ γ} {first second : Broadcast τ γ}

/-- What an event keeps that happens to both. -/
theorem Alike.step (h : first.Alike extra second) {event : Event τ γ}
    (hfirst : first.Allows event) (hsecond : second.Allows event) :
    (first.step event).Alike extra (second.step event) := by
  cases event with
  | push message =>
      refine ⟨?_, h.buffers⟩
      simp only [Broadcast.step]
      rw [Output.push_of_slot hfirst, Output.push_of_slot hsecond]
      exact h.output.queued message
  | buffer size =>
      obtain ⟨houtput, hvalues⟩ := h.output.play hfirst.1 hsecond.1 hfirst.2
      have hcounter : second.output.counter = first.output.counter := by rw [h.output.same]
      have hspeakers : second.output.speakers = first.output.speakers := by rw [h.output.same]
      have hfilled : Filled.Alike extra
          ⟨first.output.counter, max first.output.speakers 1, (first.output.play size).1,
            (first.output.play size).2.renderer.channels⟩
          ⟨second.output.counter, max second.output.speakers 1, (second.output.play size).1,
            (second.output.play size).2.renderer.channels⟩ :=
        ⟨⟨hcounter, congrArg (max · 1) hspeakers⟩, hvalues, houtput.renderer.others⟩
      exact ⟨houtput, List.rel_append h.buffers (.cons hfilled .nil)⟩

/-- What events keep that happen to both. -/
theorem Alike.run (h : first.Alike extra second) {events : List (Event τ γ)}
    (hfirst : Admits Broadcast.step Allows first events)
    (hsecond : Admits Broadcast.step Allows second events) :
    (first.run events).Alike extra (second.run events) := by
  refine Admits.foldl_both (fun first second => Alike extra first second) ?_ hfirst hsecond h
  exact fun _ _ _ h hfirst hsecond => h.step hfirst hsecond

/-- Causality and isolation.  An output that is new receives notes and silences and fills buffers,
and another one receives a note more at any time; neither drops anything for want of room.  Then
their buffers begin at the same samples, hold the same values for every sample before the stamp of
that note, and leave the channels of the parts that it is not for in the same state. -/
theorem alike_run (rate speakers slots counter : Nat) (extra : StampedNote τ γ)
    (before after : List (Event τ γ))
    (hfirst : Admits step Allows (opened rate speakers slots counter) (before ++ after))
    (hsecond : Admits step Allows (opened rate speakers slots counter)
      (before ++ .push (.note extra) :: after)) :
    List.Forall₂ (Filled.Alike extra)
      ((opened rate speakers slots counter).run (before ++ after)).buffers
      ((opened rate speakers slots counter).run
        (before ++ .push (.note extra) :: after)).buffers := by
  let start : Broadcast τ γ := (opened rate speakers slots counter).run before
  obtain ⟨hbefore, hafter⟩ := Admits.append.mp hfirst
  obtain ⟨-, hextra, hrest⟩ := Admits.append.mp hsecond
  -- The run up to the note, put beside itself, has its notes in order.
  have hsame : start.Alike extra start := by
    have hopened : (opened rate speakers slots counter : Broadcast τ γ).Alike extra
        (opened rate speakers slots counter) := ⟨Output.alike_self List.Pairwise.nil, .nil⟩
    exact hopened.run hbefore hbefore
  have hpush : (start.output.push (.note extra)).2 = start.output.queued [.note extra] :=
    Output.push_of_slot hextra _
  have hone : start.Alike extra (start.step (.push (.note extra))) := by
    refine ⟨?_, hsame.buffers⟩
    simp only [step, hpush]
    exact Output.alike_queued_extra hsame.output.inOrder.1
  rw [run, run, List.foldl_append, List.foldl_append, List.foldl_cons]
  exact (hone.run hafter hrest).buffers

open Curves in
/-- The extra note sounds from its second sample on until a note of its part takes its place, and is
gone behind the silence, but the wave of its part then goes on from another phase. -/
theorem alike_run_over_silence :
    let note (stamp : Nat) (role : Role) : StampedNote Rat Rat := ⟨stamp, role, .tone 2, 1, 2⟩
    let opened : Broadcast Rat Rat := opened 10 2 8 5
    let extra := note 7 .lead
    let before : List (Event Rat Rat) :=
      [.push (.note (note 9 .lead)), .push (.note (note 3 .bass)), .buffer 4]
    let after : List (Event Rat Rat) :=
      [.buffer 6, .push (.stopAll 9), .push (.note (note 10 .lead)), .buffer 4]
    let first := opened.run (before ++ after)
    let second := opened.run (before ++ .push (.note extra) :: after)
    (Admits step Allows opened (before ++ after) ∧
        Admits step Allows opened (before ++ .push (.note extra) :: after)) ∧
      first.buffers.map Filled.values =
        [[0, 0, -1 / 5, -1 / 5], [3 / 5, 3 / 5, 0, 0, 0, 0], [0, 0, 1, 1]] ∧
      second.buffers.map Filled.values =
        [[0, 0, -1 / 5, -1 / 5], [3 / 5, 3 / 5, 1, 1, 0, 0], [0, 0, -1, -1]] ∧
      List.Forall₂ (Filled.Alike extra) first.buffers second.buffers := by
  intro note opened extra before after first second
  have hfirst : Admits step Allows opened (before ++ after) := by decide_cbv
  have hsecond : Admits step Allows opened (before ++ .push (.note extra) :: after) := by decide_cbv
  exact ⟨⟨hfirst, hsecond⟩, by decide_cbv, by decide_cbv,
    alike_run 10 2 8 5 extra before after hfirst hsecond⟩

end Broadcast

end Chiptune
