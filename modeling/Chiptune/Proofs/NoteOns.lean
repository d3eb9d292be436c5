import Chiptune.Proofs.Buffers
import Chiptune.Proofs.Draining

/-!
What becomes of a channel, told from the notes that it is told to begin and from the cuts.

A renderer keeps a record of its onsets beside the channels.  The record is checked here against the
channels themselves.

Main statement: however buffers follow each other, every channel of an output is what it becomes if at
each sample of the record it is told to begin the notes of its part, and at no other.
-/
namespace Chiptune

variable {τ γ : Type} [Scalar γ]

namespace Channel

def cutAt (cuts : List Nat) (now : Nat) (channel : Channel γ) : Channel γ :=
  if now ∈ cuts then channel.stop else channel

theorem cutAt_of_not_mem {cuts : List Nat} {now : Nat} (hnow : now ∉ cuts) (channel : Channel γ) :
    channel.cutAt cuts now = channel := if_neg hnow

theorem cutAt_append (first second : List Nat) (now : Nat) (channel : Channel γ) :
    channel.cutAt (first ++ second) now = (channel.cutAt first now).cutAt second now := by
  unfold cutAt
  by_cases hfirst : now ∈ first <;> by_cases hsecond : now ∈ second <;>
    simp [hfirst, hsecond, stop]

variable [Zero τ] [Narrowing τ γ]

def noteOns (channel : Channel γ) (notes : List (StampedNote τ γ)) : Channel γ :=
  notes.foldl (fun channel note =>
    channel.noteOn note.role note.voice note.volume note.samples) channel

variable [Waveform γ]

/-- What becomes of a channel over a number of frames from a sample on, if it is cut at some samples
and begins the notes of some onsets, each at its sample, and no others. -/
def replay (rate : γ) (cuts : List Nat) (onsets : List (Onset τ γ)) :
    Nat → Channel γ → Nat → Channel γ
  | _, channel, 0 => channel
  | now, channel, n + 1 =>
    let due := (ofKey Onset.sample now onsets).map Onset.note
    replay rate cuts onsets (now + 1) (((channel.cutAt cuts now).noteOns due).render rate).2 n

variable {rate : γ} {cuts : List Nat} {onsets : List (Onset τ γ)}

theorem replay_congr {otherCuts : List Nat} {other : List (Onset τ γ)} {now frames : Nat}
    (hcuts : ∀ sample, now ≤ sample → sample < now + frames → (sample ∈ cuts ↔ sample ∈ otherCuts))
    (honsets : ∀ sample, now ≤ sample → sample < now + frames →
      ofKey Onset.sample sample onsets = ofKey Onset.sample sample other) (channel : Channel γ) :
    channel.replay rate cuts onsets now frames = channel.replay rate otherCuts other now frames := by
  induction frames generalizing now channel with
  | zero => rfl
  | succ n ih =>
      have hcut : channel.cutAt cuts now = channel.cutAt otherCuts now := by
        simp only [cutAt, hcuts now le_rfl (by omega)]
      rw [replay, replay, honsets now le_rfl (by omega), hcut]
      exact ih (fun sample hfirst hlast => hcuts sample (by omega) (by omega))
        (fun sample hfirst hlast => honsets sample (by omega) (by omega)) _

theorem replay_add (now : Nat) (channel : Channel γ) (first second : Nat) :
    channel.replay rate cuts onsets now (first + second) =
      (channel.replay rate cuts onsets now first).replay rate cuts onsets (now + first) second := by
  induction first generalizing now channel with
  | zero => rw [Nat.zero_add, Nat.add_zero, replay]
  | succ n ih =>
      rw [Nat.add_right_comm, replay, ih, replay]
      congr 1
      omega

/-- Cuts that are over before the second sample come down to one cut at the first. -/
theorem cutAt_replay {now frames : Nat} (hcuts : ∀ cut ∈ cuts, cut ≤ now) (channel : Channel γ) :
    (channel.replay rate cuts onsets now frames).cutAt cuts (now + frames) =
      (channel.cutAt cuts now).replay rate [] onsets now frames := by
  cases frames with
  | zero => rfl
  | succ n =>
      have hlater : ∀ sample, now < sample → sample ∉ cuts := fun sample hsample hmem =>
        absurd (hcuts sample hmem) (by omega)
      rw [cutAt_of_not_mem (hlater _ (by omega)), replay, replay, cutAt_of_not_mem List.not_mem_nil]
      refine replay_congr (fun sample hsample _ => ?_) (fun _ _ _ => rfl) _
      simpa using hlater sample (by omega)

/-- What is over and what is still to come are heard one after the other. -/
theorem cutAt_replay_append {laterCuts : List Nat} {later : List (Onset τ γ)}
    {first middle frames : Nat} (hfirst : first ≤ middle) (hcuts : ∀ cut ∈ cuts, cut ≤ middle)
    (honsets : ∀ onset ∈ onsets, onset.sample < middle) (hlaterCuts : ∀ cut ∈ laterCuts, cut = middle)
    (hlater : ∀ onset ∈ later, middle ≤ onset.sample) (channel : Channel γ) :
    (channel.replay rate (cuts ++ laterCuts) (onsets ++ later) first
        (middle + frames - first)).cutAt (cuts ++ laterCuts) (middle + frames) =
      (((channel.replay rate cuts onsets first (middle - first)).cutAt cuts middle).cutAt
        laterCuts middle).replay rate [] later middle frames := by
  have hall : ∀ cut ∈ cuts ++ laterCuts, cut ≤ middle := fun cut hcut =>
    (List.mem_append.mp hcut).elim (hcuts cut) fun hlate => (hlaterCuts cut hlate).le
  have hbefore : channel.replay rate (cuts ++ laterCuts) (onsets ++ later) first (middle - first) =
      channel.replay rate cuts onsets first (middle - first) := by
    refine replay_congr (fun sample _ hsample => ?_) (fun sample _ hsample => ?_) _
    · have hnot : sample ∉ laterCuts := fun hmem => absurd (hlaterCuts sample hmem) (by omega)
      simp [hnot]
    · have hnone : ofKey Onset.sample sample later = [] :=
        ofKey_eq_nil fun onset honset => by
          have hle := hlater onset honset
          omega
      rw [ofKey_append, hnone, List.append_nil]
  have hafter (state : Channel γ) : state.replay rate [] (onsets ++ later) middle frames =
      state.replay rate [] later middle frames := by
    refine replay_congr (fun _ _ _ => Iff.rfl) (fun sample hsample _ => ?_) _
    have hnone : ofKey Onset.sample sample onsets = [] :=
      ofKey_eq_nil fun onset honset => ((honsets onset honset).trans_le hsample).ne
    rw [ofKey_append, hnone, List.nil_append]
  have hsplit : middle + frames - first = (middle - first) + frames := by omega
  have hmiddle : first + (middle - first) = middle := by omega
  rw [hsplit, replay_add, hmiddle, hbefore, cutAt_replay hall, cutAt_append, hafter]

end Channel

section

variable [Zero τ] [Narrowing τ γ]

/-- A channel hears the notes of its own part. -/
theorem Renderer.get_foldl_begin (notes : List (StampedNote τ γ)) (channels : PerRole (Channel γ))
    (role : Role) :
    (notes.foldl begin channels).get role =
      (channels.get role).noteOns (notes.filter fun note => decide (note.role = role)) := by
  induction notes generalizing channels with
  | nil => rfl
  | cons note later ih =>
      by_cases hrole : note.role = role
      · subst hrole
        simp [ih, begin, Channel.noteOns]
      · have hother : (begin channels note).get role = channels.get role :=
          PerRole.get_modify_of_ne channels (Ne.symm hrole) _
        simp [ih, hother, hrole]

variable [Waveform γ]

theorem Take.get_channels_step (take : Take τ γ) (rate : γ) (role : Role) :
    (take.step rate).renderer.channels.get role =
      (((take.renderer.channels.get role).noteOns
        ((take.renderer.frame rate take.counter).begun.filter fun note =>
          decide (note.role = role))).render rate).2 := by
  change (PerRole.map _ (PerRole.map _ (List.foldl Renderer.begin _ _))).get role = _
  rw [PerRole.get_map, PerRole.get_map, Renderer.get_foldl_begin]
  rfl

/-- Over a number of frames every channel begins the notes that the frames put on record, each at its
sample, and no others. -/
theorem Take.frames_noteOns (take : Take τ γ) (rate : γ) (frames : Nat)
    (hcounter : take.counter + frames < 2 ^ 64) :
    ∃ onsets, (take.frames rate frames).onsets.toList = take.onsets.toList ++ onsets ∧
      (∀ onset ∈ onsets, take.counter ≤ onset.sample ∧ onset.sample < take.counter + frames) ∧
      ∀ role, (take.frames rate frames).renderer.channels.get role =
        (take.renderer.channels.get role).replay rate [] (onsetsOf role onsets) take.counter
          frames := by
  induction frames generalizing take with
  | zero => exact ⟨[], by simp [frames], by simp, fun _ => rfl⟩
  | succ n ih =>
      have hstep : (take.step rate).counter = take.counter + 1 :=
        SampleClock.after_of_lt (by omega)
      obtain ⟨later, honsets, hlater, hchannels⟩ := ih (take.step rate) (by omega)
      rw [hstep] at hlater hchannels
      let begun := (take.renderer.frame rate take.counter).begun
      refine ⟨begun.map (Onset.mk take.counter) ++ later, ?_, ?_, ?_⟩
      · rw [frames, honsets]
        simp [step, begun]
      · intro onset honset
        rcases List.mem_append.mp honset with hnow | hlate
        · obtain ⟨note, _, rfl⟩ := List.mem_map.mp hnow
          exact ⟨le_rfl, Nat.lt_add_of_pos_right (Nat.succ_pos n)⟩
        · have hbounds := hlater onset hlate
          omega
      · intro role
        let mine := begun.filter fun note => decide (note.role = role)
        have hmine : onsetsOf role (begun.map (Onset.mk take.counter) ++ later) =
            mine.map (Onset.mk take.counter) ++ onsetsOf role later := by
          rw [onsetsOf_append, onsetsOf, List.filter_map]
          rfl
        have hlate : ∀ onset ∈ onsetsOf role later, take.counter + 1 ≤ onset.sample :=
          fun onset honset => (hlater onset (List.mem_of_mem_filter honset)).1
        have hdue : (ofKey Onset.sample take.counter
            (mine.map (Onset.mk take.counter) ++ onsetsOf role later)).map Onset.note = mine := by
          rw [ofKey_append, ofKey_eq_self (by simp), ofKey_eq_nil, List.append_nil, List.map_map]
          · exact List.map_id mine
          · exact fun onset honset => (Nat.lt_of_succ_le (hlate onset honset)).ne'
        rw [frames, hchannels role, take.get_channels_step, hmine, Channel.replay, hdue,
          Channel.cutAt_of_not_mem List.not_mem_nil]
        refine Channel.replay_congr (fun _ _ _ => Iff.rfl) (fun sample hsample _ => ?_) _
        have hpast : ofKey Onset.sample sample (mine.map (Onset.mk take.counter)) = [] :=
          ofKey_eq_nil (by simpa using fun _ _ => (Nat.lt_of_succ_le hsample).ne)
        rw [ofKey_append, hpast, List.nil_append]

end

namespace Output

/-- Where the next buffer cuts the channels: at its first sample, if a silence is in the queue. -/
def cutsAhead (output : Output τ γ) : List Nat :=
  if output.queue.any Message.isSilence then [output.counter] else []

omit [Scalar γ] in
/-- Without a silence in what arrives, the next buffer cuts nothing. -/
theorem cutsAhead_queued [Scalar τ] {output : Output τ γ} (hahead : output.cutsAhead = [])
    {effects : List (Effect τ γ)} (hsilence : ∀ time, Effect.silence time ∉ effects) :
    (output.queued (effects.filterMap output.message?)).cutsAhead = [] := by
  have hnone : (effects.filterMap output.message?).any Message.isSilence = false := by
    rw [List.any_eq_false]
    intro message hmessage
    obtain ⟨effect, heffect, hsome⟩ := List.mem_filterMap.mp hmessage
    cases effect with
    | notice notice => simp [message?] at hsome
    | dispatch note =>
        obtain rfl : .note (output.stamped note) = message := Option.some.inj hsome
        simp [Message.isSilence]
    | silence time => exact absurd heffect (hsilence time)
  have hqueue : output.queue.any Message.isSilence = false := by
    simpa [cutsAhead] using hahead
  simp [cutsAhead, queued, hqueue, hnone]

theorem get_channels_drain (output : Output τ γ) (role : Role) :
    output.drain.renderer.channels.get role =
      (output.renderer.channels.get role).cutAt output.cutsAhead output.counter := by
  change (output.renderer.drain output.queue).channels.get role = _
  rw [Renderer.channels_drain, cutsAhead]
  split
  · rw [PerRole.get_map, Channel.cutAt, if_pos List.mem_cons_self]
  · rw [Channel.cutAt_of_not_mem List.not_mem_nil]

variable [Scalar τ] [Narrowing τ γ] [Waveform γ]

/-- Every channel of an output is what has become of it since some sample, if it has been cut and has
begun notes as a record says.  The record ends with the last sample played, but a buffer without frames
may have cut the channels at the next one. -/
structure Hears (output : Output τ γ) (before : PerRole (Channel γ)) (first : Nat)
    (cuts : List Nat) (onsets : List (Onset τ γ)) : Prop where
  first_le : first ≤ output.counter
  cuts_le : ∀ cut ∈ cuts, cut ≤ output.counter
  onsets_lt : ∀ onset ∈ onsets, onset.sample < output.counter
  channels : ∀ role, output.renderer.channels.get role =
    ((before.get role).replay (output.rate : γ) cuts (onsetsOf role onsets) first
      (output.counter - first)).cutAt cuts output.counter

theorem hears_self (output : Output τ γ) :
    output.Hears output.renderer.channels output.counter [] [] where
  first_le := le_rfl
  cuts_le := by simp
  onsets_lt := by simp
  channels role := by
    rw [Nat.sub_self, Channel.replay, Channel.cutAt_of_not_mem List.not_mem_nil]

variable {output : Output τ γ} {before : PerRole (Channel γ)} {first : Nat} {cuts : List Nat}
  {onsets : List (Onset τ γ)}

/-- What arrives in the queue is not heard before the next buffer. -/
theorem Hears.queued (h : output.Hears before first cuts onsets) (messages : List (Message τ γ)) :
    (output.queued messages).Hears before first cuts onsets :=
  ⟨h.first_le, h.cuts_le, h.onsets_lt, h.channels⟩

/-- A buffer that does not make the counter go round. -/
theorem Hears.buffer (h : output.Hears before first cuts onsets) (frames : Nat)
    (hcounter : output.counter + frames < 2 ^ 64) :
    (output.playFrames frames).2.Hears before first (cuts ++ output.cutsAhead)
      (onsets ++ (output.playFrames frames).1.onsets.toList) := by
  let take : Take τ γ := ⟨output.drain.renderer, output.counter, #[], #[]⟩
  obtain ⟨begun, hbegun, hsamples, hchannels⟩ :=
    take.frames_noteOns (output.rate : γ) frames hcounter
  have honsets : (output.playFrames frames).1.onsets.toList = begun := hbegun
  have hafter : (output.playFrames frames).2.counter = output.counter + frames :=
    SampleClock.after_of_lt hcounter
  have hcuts : ∀ cut ∈ output.cutsAhead, cut = output.counter := by
    unfold cutsAhead
    split <;> simp
  rw [honsets]
  refine ⟨?_, ?_, ?_, ?_⟩
  · rw [hafter]
    exact h.first_le.trans (Nat.le_add_right _ _)
  · intro cut hcut
    rw [hafter]
    refine Nat.le_add_right_of_le ?_
    exact (List.mem_append.mp hcut).elim (h.cuts_le cut) fun hahead => (hcuts cut hahead).le
  · intro onset honset
    rw [hafter]
    exact (List.mem_append.mp honset).elim
      (fun hpast => Nat.lt_add_right frames (h.onsets_lt onset hpast))
      fun hnow => (hsamples onset hnow).2
  · intro role
    rw [hafter, onsetsOf_append]
    refine (hchannels role).trans ?_
    rw [output.get_channels_drain role, h.channels role]
    refine (Channel.cutAt_replay_append h.first_le h.cuts_le ?_ hcuts ?_ _).symm
    · exact fun onset honset => h.onsets_lt onset (List.mem_of_mem_filter honset)
    · exact fun onset honset => (hsamples onset (List.mem_of_mem_filter honset)).1

end Output

end Chiptune
