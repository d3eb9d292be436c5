import Chiptune.Proofs.Onsets

/-!
Notes on their way through a queue and a renderer, whether or not the list of the renderer is full.

Main statement: what a buffer takes in is some of what was waiting, and behind a silence no note of
its stamp or later; what it leaves are the notes that it has not begun, and none of those has a
stamp before its end unless it had passed when the buffer began.
-/
namespace Chiptune

variable {τ γ : Type}

def Message.note? : Message τ γ → Option (StampedNote τ γ)
  | .note carried => some carried
  | .stopAll _ => none

def notesOf (messages : List (Message τ γ)) : List (StampedNote τ γ) :=
  messages.filterMap Message.note?

theorem notesOf_nil : notesOf ([] : List (Message τ γ)) = [] := rfl

theorem notesOf_stopAll (stamp : Nat) (messages : List (Message τ γ)) :
    notesOf (.stopAll stamp :: messages) = notesOf messages := rfl

@[simp] theorem notesOf_append (first second : List (Message τ γ)) :
    notesOf (first ++ second) = notesOf first ++ notesOf second := List.filterMap_append

@[simp] theorem notesOf_map_note (notes : List (StampedNote τ γ)) :
    notesOf (notes.map .note) = notes := by
  rw [notesOf, List.filterMap_map]
  exact List.filterMap_some

def earlier (sample : Nat) (notes : List (StampedNote τ γ)) : List (StampedNote τ γ) :=
  notes.filter fun note => decide (note.stamp < sample)

section

variable {sample : Nat} {notes : List (StampedNote τ γ)}

@[simp] theorem earlier_append (sample : Nat) (first second : List (StampedNote τ γ)) :
    earlier sample (first ++ second) = earlier sample first ++ earlier sample second :=
  List.filter_append ..

theorem earlier_eq_nil_iff : earlier sample notes = [] ↔ ∀ note ∈ notes, sample ≤ note.stamp := by
  simp [earlier]

theorem earlier_earlier {later : Nat} (h : sample ≤ later) (notes : List (StampedNote τ γ)) :
    earlier sample (earlier later notes) = earlier sample notes := by
  rw [earlier, earlier, earlier, List.filter_filter]
  apply List.filter_congr
  intro note _
  simpa using fun hnote => lt_of_lt_of_le hnote h

/-- Fewer notes lie before an earlier sample. -/
theorem earlier_sublist_of_le {later : Nat} (h : sample ≤ later)
    (notes : List (StampedNote τ γ)) : (earlier sample notes).Sublist (earlier later notes) := by
  apply List.monotone_filter_right
  intro note hnote
  exact decide_eq_true ((of_decide_eq_true hnote).trans_le h)

end

namespace Renderer

variable [Scalar γ]

theorem accept_sublist (intake : Intake τ γ) (message : Message τ γ) :
    (intake.accept message).renderer.pending.Sublist
      (intake.renderer.pending ++ notesOf [message]) := by
  cases message with
  | note note =>
      unfold Intake.accept
      dsimp only
      split
      · exact List.Sublist.refl _
      · exact List.sublist_append_left _ _
  | stopAll stamp => exact List.filter_sublist.trans (List.sublist_append_left _ _)

theorem foldl_accept_sublist (messages : List (Message τ γ)) (intake : Intake τ γ) :
    (messages.foldl Intake.accept intake).renderer.pending.Sublist
      (intake.renderer.pending ++ notesOf messages) := by
  induction messages generalizing intake with
  | nil => exact List.sublist_append_left _ _
  | cons message rest ih =>
      have hsplit : notesOf (message :: rest) = notesOf [message] ++ notesOf rest :=
        notesOf_append [message] rest
      rw [hsplit, ← List.append_assoc]
      exact (ih _).trans ((accept_sublist intake message).append_right _)

/-- Behind a silence, only notes before it are left of what came before. -/
theorem foldl_accept_stopAll_sublist (before after : List (Message τ γ)) (stamp : Nat)
    (intake : Intake τ γ) :
    ((before ++ .stopAll stamp :: after).foldl Intake.accept intake).renderer.pending.Sublist
      (earlier stamp (intake.renderer.pending ++ notesOf before) ++ notesOf after) := by
  rw [List.foldl_append, List.foldl_cons]
  refine (foldl_accept_sublist after _).trans (List.Sublist.append_right ?_ _)
  exact (foldl_accept_sublist before intake).filter _

theorem drain_perm (renderer : Renderer τ γ) (messages : List (Message τ γ)) :
    (renderer.drain messages).pending.Perm
      (messages.foldl Intake.accept ⟨renderer, false⟩).renderer.pending := by
  unfold drain
  dsimp only
  split
  · exact List.mergeSort_perm _ _
  · exact List.Perm.refl _

/-- What a buffer begins with was waiting. -/
theorem drain_subperm (renderer : Renderer τ γ) (messages : List (Message τ γ)) :
    (renderer.drain messages).pending.Subperm (renderer.pending ++ notesOf messages) :=
  (drain_perm renderer messages).subperm.trans (foldl_accept_sublist messages _).subperm

theorem drain_stopAll_subperm (renderer : Renderer τ γ) (before after : List (Message τ γ))
    (stamp : Nat) :
    (renderer.drain (before ++ .stopAll stamp :: after)).pending.Subperm
      (earlier stamp (renderer.pending ++ notesOf before) ++ notesOf after) :=
  (drain_perm renderer _).subperm.trans (foldl_accept_stopAll_sublist before after stamp _).subperm

theorem inOrder_drain {renderer : Renderer τ γ} (h : InOrder renderer.pending)
    (messages : List (Message τ γ)) : InOrder (renderer.drain messages).pending := by
  rw [drain_eq_sort messages h]
  exact inOrder_mergeSort _

/-- A silence that comes last leaves every channel idle. -/
theorem drain_stopAll_channels (renderer : Renderer τ γ) (before : List (Message τ γ))
    (stamp : Nat) (role : Role) :
    ((renderer.drain (before ++ [.stopAll stamp])).channels.get role).isActive = false := by
  have hchannels : (renderer.drain (before ++ [.stopAll stamp])).channels =
      (before.foldl Intake.accept ⟨renderer, false⟩).renderer.channels.map Channel.stop := by
    unfold drain
    rw [List.foldl_append]
    dsimp only [List.foldl_cons, List.foldl_nil, Intake.accept]
    split <;> rfl
  rw [hchannels, PerRole.get_map]
  rfl

theorem frame_silent [Zero τ] [Narrowing τ γ] [Waveform γ] {renderer : Renderer τ γ} (rate : γ)
    (now : Nat) (hmix : mix (.replicate (0 : γ)) = 0) (hpending : renderer.pending = [])
    (hidle : ∀ role, (renderer.channels.get role).isActive = false) :
    renderer.frame rate now = ⟨0, [], renderer⟩ := by
  obtain ⟨channels, pending⟩ := renderer
  obtain rfl : pending = [] := hpending
  have hrender (role : Role) : (channels.get role).render rate = (0, channels.get role) := by
    simp [Channel.render, hidle role]
  have hrendered : (channels.map fun channel => channel.render rate) =
      channels.map fun channel => (0, channel) := by
    have hlead := hrender .lead
    have hharmony := hrender .harmony
    have hbass := hrender .bass
    have hpercussion := hrender .percussion
    simp only [PerRole.get] at hlead hharmony hbass hpercussion
    simp only [PerRole.map, hlead, hharmony, hbass, hpercussion]
  have hsamples : (channels.map fun channel => ((0 : γ), channel)).map Prod.fst =
      .replicate 0 := rfl
  simp only [frame, List.takeWhile_nil, List.foldl_nil, hrendered, hsamples, hmix]
  rfl

end Renderer

namespace Take

variable [Scalar γ] [Zero τ] [Narrowing τ γ] [Waveform γ]

/-- Every note that waits either begins or goes on waiting. -/
theorem frames_conserve (take : Take τ γ) (rate : γ) (frames : Nat) :
    (take.frames rate frames).onsets.toList.map Onset.note ++
        (take.frames rate frames).renderer.pending =
      take.onsets.toList.map Onset.note ++ take.renderer.pending := by
  induction frames generalizing take with
  | zero => rfl
  | succ frames ih =>
      have hstep : (take.step rate).onsets.toList.map Onset.note ++
          (take.step rate).renderer.pending =
            take.onsets.toList.map Onset.note ++ take.renderer.pending := by
        rw [onsets_step, pending_step, List.map_append, List.map_map, List.append_assoc,
          List.append_cancel_left_eq]
        conv_rhs => rw [← List.takeWhile_append_dropWhile
          (p := StampedNote.begins take.counter (take.counter + 1)) (l := take.renderer.pending)]
        rw [List.append_cancel_right_eq]
        exact List.map_id _
      exact (ih _).trans hstep

theorem frames_sublist (take : Take τ γ) (rate : γ) (frames : Nat) :
    (take.frames rate frames).renderer.pending.Sublist take.renderer.pending := by
  induction frames generalizing take with
  | zero => exact List.Sublist.refl _
  | succ frames ih =>
      refine (ih _).trans ?_
      rw [pending_step]
      exact List.dropWhile_sublist _

theorem lt_stamp_of_mem_step {take : Take τ γ} (h : InOrder take.renderer.pending) (rate : γ) :
    ∀ note ∈ (take.step rate).renderer.pending, take.counter < note.stamp := by
  intro note hnote
  rw [pending_step] at hnote
  exact h.lt_of_mem_dropWhile hnote

/-- Any frames at all leave only what comes behind them. -/
theorem le_stamp_of_mem_frames (take : Take τ γ) (rate : γ) (frames : Nat)
    (horder : InOrder take.renderer.pending) (hcounter : take.counter ≤ maxCount)
    (hstamps : ∀ note ∈ take.renderer.pending, note.stamp ≤ maxCount) :
    ∀ note ∈ (take.frames rate (frames + 1)).renderer.pending,
      take.counter + (frames + 1) ≤ note.stamp := by
  induction frames generalizing take with
  | zero => exact lt_stamp_of_mem_step horder rate
  | succ frames ih =>
      intro note hnote
      change note ∈ ((take.step rate).frames rate (frames + 1)).renderer.pending at hnote
      have hsublist : (take.step rate).renderer.pending.Sublist take.renderer.pending :=
        frames_sublist take rate 1
      have hkept : ∀ note ∈ (take.step rate).renderer.pending, note.stamp ≤ maxCount :=
        fun note hmem => hstamps note (hsublist.subset hmem)
      rcases hcounter.lt_or_eq with hlt | heq
      · have hstep : (take.step rate).counter = take.counter + 1 :=
          SampleClock.after_of_lt (by rw [maxCount] at hlt; omega)
        have hlater := ih (take.step rate) (List.Pairwise.sublist hsublist horder) (hstep ▸ hlt) hkept
          note hnote
        omega
      · -- The counter goes round, and by then every note has begun.
        have hmem := (frames_sublist _ rate (frames + 1)).subset hnote
        have hlate := lt_stamp_of_mem_step horder rate note hmem
        have hstamp := hkept note hmem
        omega

/-- What a buffer leaves comes behind its end, unless it had passed before. -/
theorem earlier_frames_sublist (take : Take τ γ) (rate : γ) (frames : Nat)
    (horder : InOrder take.renderer.pending) (hcounter : take.counter ≤ maxCount)
    (hstamps : ∀ note ∈ take.renderer.pending, note.stamp ≤ maxCount) :
    (earlier (take.counter + frames) (take.frames rate frames).renderer.pending).Sublist
      (earlier take.counter take.renderer.pending) := by
  cases frames with
  | zero => exact List.Sublist.refl _
  | succ frames =>
      rw [earlier_eq_nil_iff.mpr
        (le_stamp_of_mem_frames take rate frames horder hcounter hstamps)]
      exact List.nil_sublist _

/-- Idle channels and no notes make no sound, and stay so. -/
theorem frames_silent (take : Take τ γ) (rate : γ) (frames : Nat)
    (hmix : Renderer.mix (.replicate (0 : γ)) = 0) (hpending : take.renderer.pending = [])
    (hidle : ∀ role, (take.renderer.channels.get role).isActive = false) :
    (take.frames rate frames).renderer = take.renderer ∧
      (take.frames rate frames).samples.toList =
        take.samples.toList ++ List.replicate frames 0 := by
  induction frames generalizing take with
  | zero => simp [Take.frames]
  | succ frames ih =>
      have hframe := Renderer.frame_silent rate take.counter hmix hpending hidle
      have hstep : (take.step rate).renderer = take.renderer := by simp only [step, hframe]
      obtain ⟨hrenderer, hsamples⟩ := ih (take.step rate) (hstep ▸ hpending) (hstep ▸ hidle)
      refine ⟨hrenderer.trans hstep, hsamples.trans ?_⟩
      simp [step, hframe, List.replicate_succ]

end Take

namespace Output

variable [Scalar γ] {output : Output τ γ}

/-- A silence that comes last drops all that comes with its sample or later. -/
theorem drain_silenced {before : List (Message τ γ)} {stamp : Nat}
    (hqueue : output.queue = before ++ [.stopAll stamp])
    (hwaits : ∀ note ∈ output.renderer.pending ++ notesOf before, stamp ≤ note.stamp) :
    output.drain.renderer.pending = [] ∧
      ∀ role, (output.drain.renderer.channels.get role).isActive = false := by
  unfold drain
  rw [hqueue]
  constructor
  · have hsubperm := output.renderer.drain_stopAll_subperm before [] stamp
    rw [earlier_eq_nil_iff.mpr hwaits] at hsubperm
    exact List.subperm_nil.mp hsubperm
  · exact output.renderer.drain_stopAll_channels before stamp

variable [Scalar τ] [Narrowing τ γ] [Waveform γ]

/-- What a buffer leaves comes behind its end, if all that was waiting came with its beginning or
later. -/
theorem playFrames_leaves (frames : Nat) (horder : InOrder output.renderer.pending)
    (hcounter : output.counter ≤ maxCount)
    (hwaits : ∀ note ∈ output.renderer.pending ++ notesOf output.queue,
      output.counter ≤ note.stamp ∧ note.stamp ≤ maxCount) :
    InOrder (output.playFrames frames).2.renderer.pending ∧
      ∀ note ∈ (output.playFrames frames).2.renderer.pending,
        output.counter + frames ≤ note.stamp ∧ note.stamp ≤ maxCount := by
  have hdrained : ∀ note ∈ output.drain.renderer.pending,
      output.counter ≤ note.stamp ∧ note.stamp ≤ maxCount :=
    fun note hnote => hwaits note ((output.renderer.drain_subperm output.queue).subset hnote)
  have horderly := Renderer.inOrder_drain horder output.queue
  have hsublist := Take.frames_sublist
    ⟨output.drain.renderer, output.counter, #[], #[]⟩ (output.rate : γ) frames
  have hearlier := Take.earlier_frames_sublist
    ⟨output.drain.renderer, output.counter, #[], #[]⟩ (output.rate : γ) frames horderly hcounter
    fun note hnote => (hdrained note hnote).2
  rw [earlier_eq_nil_iff.mpr fun note hnote => (hdrained note hnote).1, List.sublist_nil,
    earlier_eq_nil_iff] at hearlier
  refine ⟨List.Pairwise.sublist hsublist horderly, ?_⟩
  intro note hnote
  exact ⟨hearlier note hnote, (hdrained note (hsublist.subset hnote)).2⟩

/-- A buffer that begins with nothing to play is silent and changes nothing. -/
theorem play_silent (size : Nat) (hmix : Renderer.mix (.replicate (0 : γ)) = 0)
    (hpending : output.drain.renderer.pending = [])
    (hidle : ∀ role, (output.drain.renderer.channels.get role).isActive = false) :
    (output.play size).2.renderer = output.drain.renderer ∧
      ∀ sample ∈ (output.play size).1, sample = 0 := by
  obtain ⟨hrenderer, hsamples⟩ := Take.frames_silent
    ⟨output.drain.renderer, output.counter, #[], #[]⟩ (output.rate : γ) (output.framesIn size) hmix
    hpending hidle
  refine ⟨hrenderer, ?_⟩
  intro sample hsample
  rcases List.mem_append.mp hsample with hframe | hrest
  · obtain ⟨value, hvalue, hsame⟩ := List.mem_flatMap.mp hframe
    rw [List.eq_of_mem_replicate hsame]
    have hzero : value ∈ List.replicate (output.framesIn size) (0 : γ) := by
      rw [← List.nil_append (List.replicate _ _)]
      exact hsamples ▸ hvalue
    exact List.eq_of_mem_replicate hzero
  · exact List.eq_of_mem_replicate hrest

end Output

end Chiptune
