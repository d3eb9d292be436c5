import Chiptune.Proofs.Extended
import Chiptune.Proofs.InFlight
import Chiptune.Proofs.Requests

/-!
An output beside a recording that hears the same, where the output has a queue of some size and a
renderer that empties it now and then.

Main statement: as long as no silence finds the queue full, the renderer holds no note that the
recording has not kept.
-/
namespace Chiptune

open Extended

variable {τ γ : Type} [Scalar τ]

/-- A number type in which a later time never comes at an earlier sample, however times are rounded. -/
class Scalar.KeepsOrder (τ : Type) [Scalar τ] : Prop where
  nearestCount_le {rate : Nat} {earlier later : τ} (hrate : 0 < rate)
    (hearlier : Scalar.isNaN earlier = false) (hlater : Scalar.isNaN later = false)
    (hle : ¬ later < earlier) :
    Scalar.nearestCount (earlier * (rate : τ)) ≤ Scalar.nearestCount (later * (rate : τ))

namespace Extended

instance : Scalar.KeepsOrder Extended where
  nearestCount_le hrate hearlier hlater hle :=
    nearestCount_mul_le hrate
      (le_of_not_lt (of_decide_eq_false hlater) (of_decide_eq_false hearlier) hle)

end Extended

namespace Output

variable [Scalar γ]

/-- The notes that the renderer holds once it has emptied the queue. -/
def held (output : Output τ γ) : List (StampedNote τ γ) :=
  (output.queue.foldl Renderer.Intake.accept ⟨output.renderer, false⟩).renderer.pending

variable {output : Output τ γ}

omit [Scalar τ] in
theorem held_drain (output : Output τ γ) : output.drain.held.Perm output.held :=
  Renderer.drain_perm output.renderer output.queue

omit [Scalar τ] in
theorem held_push (hroom : output.queue.length < output.slots) (message : Message τ γ) :
    (output.push message).2.held =
      (Renderer.Intake.accept (output.queue.foldl Renderer.Intake.accept ⟨output.renderer, false⟩)
        message).renderer.pending := by
  simp [held, push, hroom]

theorem held_dispatch (output : Output τ γ) (note : Dispatch τ γ) :
    (output.push (.note (output.stamped note))).2.held.Sublist
      (output.held ++ [output.stamped note]) := by
  by_cases hroom : output.queue.length < output.slots
  · rw [held_push hroom]
    exact Renderer.accept_sublist _ _
  · rw [push, if_neg hroom]
    exact List.sublist_append_left _ _

theorem held_silence (hroom : output.queue.length < output.slots) (time : τ) :
    (output.push (.stopAll (output.toSamples time))).2.held =
      earlier (output.toSamples time) output.held :=
  held_push hroom _

omit [Scalar γ] in
theorem rate_hear (output : Output τ γ) (effect : Effect τ γ) :
    (Sink.hear output effect).2.rate = output.rate := by
  have hpush (message : Message τ γ) : (output.push message).2.rate = output.rate := by
    unfold push
    split <;> rfl
  cases effect with
  | notice notice => rfl
  | dispatch note => exact hpush _
  | silence time => exact hpush _

omit [Scalar γ] in
theorem stamped_of_rate {first second : Output τ γ} (h : first.rate = second.rate) :
    first.stamped = second.stamped := by
  funext note
  simp only [stamped, toSamples, h]

omit [Scalar γ] in
/-- Notes that come before a silence in samples do so in time. -/
theorem earlier_map_stamped_sublist [Scalar.KeepsOrder τ] (hrate : 0 < output.rate)
    {notes : List (Dispatch τ γ)} (htimed : ∀ note ∈ notes, Scalar.isNaN note.start = false)
    {time : τ} (htime : Scalar.isNaN time = false) :
    (earlier (output.toSamples time) (notes.map output.stamped)).Sublist
      ((notes.filter fun note => decide (note.start < time)).map output.stamped) := by
  rw [earlier, List.filter_map]
  refine List.Sublist.map _ ?_
  have hboth : notes.filter ((fun note => decide (note.stamp < output.toSamples time)) ∘
        output.stamped) =
      (notes.filter fun note => decide (note.start < time)).filter
        ((fun note => decide (note.stamp < output.toSamples time)) ∘ output.stamped) := by
    rw [List.filter_filter]
    apply List.filter_congr
    intro note hmem
    -- Rounding may bring a note onto the sample of the silence, but not past it.
    have hbefore (hstamp : (output.stamped note).stamp < output.toSamples time) :
        note.start < time := by
      by_contra hlate
      have hle : output.toSamples time ≤ output.toSamples note.start :=
        Scalar.KeepsOrder.nearestCount_le hrate htime (htimed note hmem) hlate
      exact absurd hle hstamp.not_ge
    rw [Bool.eq_iff_iff]
    simpa using hbefore
  rw [hboth]
  exact List.filter_sublist

end Output

/-- Something to be heard, or the beginning of a buffer. -/
inductive Call (τ γ : Type) where
  | hear (effect : Effect τ γ)
  | drain

def Call.Timed : Call τ γ → Prop
  | .hear (.dispatch note) => Scalar.isNaN note.start = false
  | .hear (.silence time) => Scalar.isNaN time = false
  | .hear (.notice _) | .drain => True

/-- An output, and a recording that hears the same. -/
structure Overheard (τ γ : Type) where
  output : Output τ γ
  recording : Recording τ γ

namespace Overheard

variable [Scalar γ]

def opened (rate speakers slots counter : Nat) : Overheard τ γ :=
  ⟨.initial rate speakers slots counter, ⟨[]⟩⟩

def step (state : Overheard τ γ) : Call τ γ → Overheard τ γ
  | .hear effect => ⟨(Sink.hear state.output effect).2, (Sink.hear state.recording effect).2⟩
  | .drain => ⟨state.output.drain, state.recording⟩

def run (state : Overheard τ γ) (calls : List (Call τ γ)) : Overheard τ γ := calls.foldl step state

/-- A silence finds room in the queue. -/
def Allows (state : Overheard τ γ) : Call τ γ → Prop
  | .hear (.silence _) => state.output.queue.length < state.output.slots
  | .hear (.dispatch _) | .hear (.notice _) | .drain => True

instance (state : Overheard τ γ) : (call : Call τ γ) → Decidable (state.Allows call)
  | .hear (.silence _) =>
    inferInstanceAs (Decidable (state.output.queue.length < state.output.slots))
  | .hear (.dispatch _) | .hear (.notice _) | .drain => .isTrue trivial

/-- The renderer is going to hold no note that the recording has not kept. -/
structure Keeps (state : Overheard τ γ) : Prop where
  rate_pos : 0 < state.output.rate
  timed : ∀ note ∈ state.recording.notes, Scalar.isNaN note.start = false
  held : state.output.held.Subperm (state.recording.notes.map state.output.stamped)

variable {state : Overheard τ γ}

theorem keeps_opened {rate : Nat} (hrate : 0 < rate) (speakers slots counter : Nat) :
    (opened rate speakers slots counter : Overheard τ γ).Keeps :=
  ⟨hrate, fun _ hmem => absurd hmem List.not_mem_nil, List.Subperm.refl []⟩

theorem Keeps.hear (h : state.Keeps) {effect : Effect τ γ} {notes : List (Dispatch τ γ)}
    (hnotes : (Sink.hear state.recording effect).2.notes = notes)
    (htimed : ∀ note ∈ notes, Scalar.isNaN note.start = false)
    (hheld : (Sink.hear state.output effect).2.held.Subperm (notes.map state.output.stamped)) :
    (state.step (.hear effect)).Keeps := by
  have hrate := Output.rate_hear state.output effect
  refine ⟨hrate ▸ h.rate_pos, ?_, ?_⟩
  · exact hnotes ▸ htimed
  · change (Sink.hear state.output effect).2.held.Subperm
      ((Sink.hear state.recording effect).2.notes.map (Sink.hear state.output effect).2.stamped)
    rw [hnotes, Output.stamped_of_rate hrate]
    exact hheld

/-- A note is heard by both, unless the queue is full. -/
theorem Keeps.dispatch (h : state.Keeps) {note : Dispatch τ γ}
    (htime : Scalar.isNaN note.start = false) : (state.step (.hear (.dispatch note))).Keeps := by
  have hnotes : (Sink.hear state.recording (.dispatch note)).2.notes =
      state.recording.notes ++ [note] := rfl
  refine h.hear hnotes ?_ ?_
  · intro other hmem
    rcases List.mem_append.mp hmem with hold | hnew
    · exact h.timed other hold
    · exact List.mem_singleton.mp hnew ▸ htime
  · rw [List.map_append]
    exact (Output.held_dispatch state.output note).subperm.trans
      ((List.subperm_append_right _).mpr h.held)

/-- A silence that both hear takes back at least as much from the renderer. -/
theorem Keeps.silence [Scalar.KeepsOrder τ] (h : state.Keeps) {time : τ}
    (htime : Scalar.isNaN time = false) (hroom : state.output.queue.length < state.output.slots) :
    (state.step (.hear (.silence time))).Keeps := by
  have hnotes : (Sink.hear state.recording (.silence time)).2.notes =
      state.recording.notes.filter fun note => decide (note.start < time) := rfl
  refine h.hear hnotes (fun note hmem => h.timed note (List.mem_of_mem_filter hmem)) ?_
  have hheld : (Sink.hear state.output (.silence time)).2.held =
      earlier (state.output.toSamples time) state.output.held := Output.held_silence hroom time
  rw [hheld]
  exact (h.held.filter _).trans
    (Output.earlier_map_stamped_sublist h.rate_pos h.timed htime).subperm

theorem Keeps.drain (h : state.Keeps) : (state.step .drain).Keeps :=
  ⟨h.rate_pos, h.timed, (Output.held_drain state.output).subperm.trans h.held⟩

/-- What one call keeps. -/
theorem Keeps.step [Scalar.KeepsOrder τ] (h : state.Keeps) {call : Call τ γ} (htimed : call.Timed)
    (hallows : state.Allows call) : (state.step call).Keeps := by
  cases call with
  | drain => exact h.drain
  | hear effect =>
      cases effect with
      | notice notice => exact h
      | dispatch note => exact h.dispatch htimed
      | silence time => exact h.silence htimed hallows

/-- What a run keeps. -/
theorem Keeps.run [Scalar.KeepsOrder τ] (h : state.Keeps) {calls : List (Call τ γ)}
    (htimed : ∀ call ∈ calls, call.Timed) (hadmits : Admits Overheard.step Allows state calls) :
    (state.run calls).Keeps := by
  induction calls generalizing state with
  | nil => exact h
  | cons call later ih =>
      have hstep := h.step (htimed call List.mem_cons_self) hadmits.1
      exact ih hstep (fun other hmem => htimed other (List.mem_cons_of_mem call hmem)) hadmits.2

/-- A new output and an empty recording hear the same notes and silences, at times that are numbers,
and buffers begin in between; no silence finds the queue full.  What the renderer holds when the next
buffer begins is among the notes that the recording has kept, each as often at most. -/
theorem pending_subperm_notes [Scalar.KeepsOrder τ] (rate speakers slots counter : Nat)
    (calls : List (Call τ γ)) (hrate : 0 < rate) (htimed : ∀ call ∈ calls, call.Timed)
    (hadmits : Admits step Allows (opened rate speakers slots counter) calls) :
    let final := (opened rate speakers slots counter).run calls
    final.output.drain.renderer.pending.Subperm
      (final.recording.notes.map final.output.stamped) := by
  intro final
  have hkeeps : final.Keeps := (keeps_opened hrate speakers slots counter).run htimed hadmits
  exact hkeeps.drain.held

/-- The second note is half a sample before the silence, and only the recording keeps it; the last one
finds the queue full. -/
theorem pending_subperm_notes_near_silence :
    let note (start : Rat) : Call Extended Rat :=
      .hear (.dispatch ⟨.lead, .tone (finite 440), 1, finite start, finite 1⟩)
    let calls : List (Call Extended Rat) := [note (1 / 2), .drain, note (19 / 20),
      .hear (.silence (finite (24 / 25))), .drain, note 3, note 2, note 4]
    let final := (opened 10 1 2 0).run calls
    ((∀ call ∈ calls, call.Timed) ∧ Admits step Allows (opened 10 1 2 0) calls) ∧
    final.output.held.map StampedNote.stamp = [5, 30, 20] ∧
    final.recording.notes.map Dispatch.start =
      [finite (1 / 2), finite (19 / 20), finite 3, finite 2, finite 4] ∧
    final.output.drain.renderer.pending.Subperm
      (final.recording.notes.map final.output.stamped) := by
  intro note calls final
  have htimed : ∀ call ∈ calls, call.Timed := by
    simp [calls, note, Call.Timed, Scalar.isNaN]
  have hadmits : Admits step Allows (opened 10 1 2 0) calls := by decide +kernel
  exact ⟨⟨htimed, hadmits⟩, by decide +kernel, by decide +kernel,
    pending_subperm_notes 10 1 2 0 calls (by decide) htimed hadmits⟩

/-- A silence that finds the queue full is lost, and with it everything that it was to take back. -/
theorem silence_lost_in_full_queue :
    let note : Call Extended Rat :=
      .hear (.dispatch ⟨.lead, .tone (finite 440), 1, finite 1, finite 1⟩)
    let calls : List (Call Extended Rat) :=
      List.replicate 16 note ++ [.hear (.silence (finite (1 / 2)))]
    let final := (opened 10 1 16 0).run calls
    (∀ call ∈ calls, call.Timed) ∧
      ¬ final.output.drain.renderer.pending.Subperm
        (final.recording.notes.map final.output.stamped) := by
  intro note calls final
  have htimed : ∀ call ∈ calls, call.Timed := by
    intro call hmem
    rcases List.mem_append.mp hmem with hnote | hsilence
    · exact List.eq_of_mem_replicate hnote ▸ rfl
    · exact List.mem_singleton.mp hsilence ▸ rfl
  have hheld : final.output.held.length = 16 := by decide +kernel
  have hpending : final.output.drain.renderer.pending.length = final.output.held.length :=
    (Output.held_drain final.output).length_eq
  have hnotes : (final.recording.notes.map final.output.stamped).length = 0 := by decide +kernel
  refine ⟨htimed, fun hsubperm => ?_⟩
  have hle := hsubperm.length_le
  omega

end Overheard

end Chiptune
