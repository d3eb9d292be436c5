import Chiptune.Proofs.Silence

/-!
Requests between the parts of a buffer.

A buffer drains the queue at its beginning and moves the counter on at its end, and requests come at
any point in between.  A note may so enter the queue too late for the buffer that its sample belongs
to, and before the counter says so: the buffer overtakes it.

Main statement: what begins in buffers that begin after a stop has been sent after the stop, or the
last buffer before the stop has overtaken it.  A silence drops everything from its own sample on,
and so it drops all but the notes that were overtaken.
-/
namespace Chiptune

open Extended

variable {γ : Type}

/-- How far a buffer is under way. -/
inductive Phase (γ : Type) where
  | resting
  /-- The counter has been read and the queue has been drained, for a number of frames. -/
  | drained (counter frames : Nat)
  /-- The frames have been rendered, and the counter has not moved on. -/
  | rendered (frames : Nat) (take : Take Extended γ)

inductive Act (γ : Type) where
  | request (request : Request γ)
  /-- The buffer under way comes to its next phase; if there is none, a buffer of some frames begins. -/
  | proceed (frames : Nat)

/-- A rig with the buffer that is under way, and a record of its notes. -/
structure Interplay (γ : Type) where
  rig : Rig Extended γ
  phase : Phase γ
  /-- Buffers that have begun. -/
  buffers : Nat
  /-- Notes that have entered the queue. -/
  sent : List (StampedNote Extended γ)
  /-- Of these the ones that entered it after the last buffer with frames had begun, and lie before its
  end. -/
  overtaken : List (StampedNote Extended γ)
  /-- Notes that have begun, each with the number of its buffer. -/
  begun : List (Nat × StampedNote Extended γ)

namespace Interplay

/-- The notes begun by buffers after the first few. -/
def begunAfter (interplay : Interplay γ) (buffers : Nat) : List (StampedNote Extended γ) :=
  (interplay.begun.filter fun entry => decide (buffers < entry.1)).map Prod.snd

/-- The sample with which the next buffer begins, unless the counter goes round before. -/
def next (interplay : Interplay γ) : Nat :=
  match interplay.phase with
  | .resting => interplay.rig.sink.counter
  | .drained counter frames => counter + frames
  | .rendered frames _ => interplay.rig.sink.counter + frames

/-- The notes that have left the queue and have not begun. -/
def waiting (interplay : Interplay γ) : List (StampedNote Extended γ) :=
  match interplay.phase with
  | .resting | .drained _ _ => interplay.rig.sink.renderer.pending
  | .rendered _ take => take.renderer.pending

/-- A request that leads to a rig and puts messages into its queue. -/
def heard (interplay : Interplay γ) (rig : Rig Extended γ) (messages : List (Message Extended γ)) :
    Interplay γ :=
  { interplay with
    rig
    sent := interplay.sent ++ notesOf messages
    overtaken := interplay.overtaken ++ earlier interplay.next (notesOf messages) }

section

variable {interplay : Interplay γ} {rig : Rig Extended γ} {messages : List (Message Extended γ)}

theorem next_heard (hsink : rig.sink = interplay.rig.sink.queued messages) :
    (interplay.heard rig messages).next = interplay.next := by
  simp only [next, heard, hsink, Output.queued]

theorem waiting_heard (hsink : rig.sink = interplay.rig.sink.queued messages) :
    (interplay.heard rig messages).waiting = interplay.waiting := by
  simp only [waiting, heard, hsink, Output.queued]

theorem notesOf_queue_heard (hsink : rig.sink = interplay.rig.sink.queued messages) :
    notesOf (interplay.heard rig messages).rig.sink.queue =
      notesOf interplay.rig.sink.queue ++ notesOf messages := by
  simp only [heard, hsink, Output.queued, notesOf_append]

end

variable [Scalar γ]

def opened (lookahead : Extended) (volume : γ) (mix : PerRole γ)
    (rate speakers slots counter : Nat) : Interplay γ where
  rig := ⟨.initial lookahead volume mix, .initial rate speakers slots counter⟩
  phase := .resting
  buffers := 0
  sent := []
  overtaken := []
  begun := []

variable [Narrowing Extended γ] [Waveform γ]

/-- The notes that the buffer under way leaves. -/
def left (interplay : Interplay γ) : List (StampedNote Extended γ) :=
  match interplay.phase with
  | .resting => interplay.rig.sink.renderer.pending
  | .drained counter frames => (interplay.rig.sink.render counter frames).renderer.pending
  | .rendered _ take => take.renderer.pending

/-- The next phase.  Frames are of a buffer that begins. -/
def proceed (interplay : Interplay γ) (frames : Nat) : Interplay γ :=
  let rig := interplay.rig
  match interplay.phase with
  | .resting =>
    { interplay with
      rig := { rig with sink := rig.sink.drain }
      phase := .drained rig.sink.counter frames
      buffers := interplay.buffers + 1
      overtaken := if frames = 0 then interplay.overtaken else [] }
  | .drained counter count =>
    let take := rig.sink.render counter count
    { interplay with
      phase := .rendered count take
      begun := interplay.begun ++
        take.onsets.toList.map fun onset => (interplay.buffers, onset.note) }
  | .rendered count take =>
    { interplay with
      rig := { rig with sink := rig.sink.finish take.renderer count }
      phase := .resting }

variable {stopping interplay : Interplay γ}

/-- Three phases without a request in between fill a buffer. -/
theorem proceed_thrice (hphase : interplay.phase = .resting) (size first second : Nat) :
    let after := ((interplay.proceed (interplay.rig.sink.framesIn size)).proceed first).proceed second
    after.rig = (interplay.rig.play size).2 ∧ after.phase = .resting ∧
      after.begunAfter interplay.buffers = interplay.begunAfter interplay.buffers ++
        (interplay.rig.sink.playFrames (interplay.rig.sink.framesIn size)).1.onsets.toList.map
          Onset.note := by
  obtain ⟨rig, phase, buffers, sent, overtaken, begun⟩ := interplay
  obtain rfl : phase = .resting := hphase
  refine ⟨rfl, rfl, ?_⟩
  simp [proceed, begunAfter, List.filter_map, Function.comp_def, Output.playFrames]

theorem sent_proceed (interplay : Interplay γ) (frames : Nat) :
    (interplay.proceed frames).sent = interplay.sent := by
  unfold proceed
  dsimp only
  split <;> rfl

/-- A buffer begins notes as its frames are rendered. -/
theorem begunAfter_proceed {counter count : Nat} (hphase : interplay.phase = .drained counter count)
    {buffers : Nat} (hbuffers : buffers < interplay.buffers) (frames : Nat) :
    (interplay.proceed frames).begunAfter buffers = interplay.begunAfter buffers ++
      (interplay.rig.sink.render counter count).onsets.toList.map Onset.note := by
  simp [proceed, hphase, begunAfter, List.filter_map, Function.comp_def, hbuffers]

/-- What a buffer puts on record as its frames are rendered is what its channels begin, each note at
its sample. -/
theorem noteOns_proceed {counter count : Nat} (hphase : interplay.phase = .drained counter count)
    (hcounter : counter + count < 2 ^ 64) (frames : Nat) :
    ∃ take onsets, (interplay.proceed frames).phase = .rendered count take ∧
      (interplay.proceed frames).begun =
        interplay.begun ++ onsets.map (fun onset => (interplay.buffers, onset.note)) ∧
      ∀ role, take.renderer.channels.get role =
        (interplay.rig.sink.renderer.channels.get role).replay (interplay.rig.sink.rate : γ) []
          (onsetsOf role onsets) counter count := by
  let start : Take Extended γ := ⟨interplay.rig.sink.renderer, counter, #[], #[]⟩
  obtain ⟨onsets, honsets, -, hchannels⟩ :=
    start.frames_noteOns (interplay.rig.sink.rate : γ) count hcounter
  have hrecord : (interplay.rig.sink.render counter count).onsets.toList = onsets := honsets
  refine ⟨interplay.rig.sink.render counter count, onsets, ?_, ?_, hchannels⟩
  · simp only [proceed, hphase]
  · simp only [proceed, hphase, hrecord]

/-- All that waits fits into the counter, and what lies before the next buffer has been overtaken. -/
structure Flows (interplay : Interplay γ) : Prop where
  clock : interplay.rig.sequencer.OnClock
  counts : interplay.rig.sink.Counts
  reads : ∀ counter frames, interplay.phase = .drained counter frames →
    counter = interplay.rig.sink.counter
  order : InOrder interplay.waiting
  stamps : ∀ note ∈ interplay.waiting ++ notesOf interplay.rig.sink.queue, note.stamp ≤ maxCount
  numbered : ∀ entry ∈ interplay.begun, entry.1 ≤ interplay.buffers
  overtakes : (earlier interplay.next (interplay.left ++ notesOf interplay.rig.sink.queue)).Subperm
    interplay.overtaken

/-- What has happened since a stop: its silence is in the queue, or a buffer has drained it and all
notes from then on are accounted for. -/
inductive Since (stopping interplay : Interplay γ) (later : List (StampedNote Extended γ)) : Prop where
  | queued (before after : List (Message Extended γ))
    (hbuffers : interplay.buffers = stopping.buffers)
    (hqueue : interplay.rig.sink.queue =
      before ++ .stopAll stopping.rig.sink.counter :: after)
    (hafter : notesOf after = later)
    (hbefore : (earlier stopping.rig.sink.counter (interplay.left ++ notesOf before)).Subperm
      (earlier stopping.rig.sink.counter stopping.overtaken))
  | drained (hbuffers : stopping.buffers < interplay.buffers)
    (hnotes : (interplay.begunAfter stopping.buffers ++ interplay.waiting ++
      notesOf interplay.rig.sink.queue).Subperm
        (earlier stopping.rig.sink.counter stopping.overtaken ++ later))

theorem Flows.begunAfter_eq_nil (h : interplay.Flows) :
    interplay.begunAfter interplay.buffers = [] := by
  have hnone : ∀ entry ∈ interplay.begun, ¬ decide (interplay.buffers < entry.1) = true := by
    intro entry hentry
    simpa using h.numbered entry hentry
  rw [begunAfter, List.filter_eq_nil_iff.mpr hnone, List.map_nil]

theorem flows_opened (lookahead : Extended) (volume : γ) (mix : PerRole γ) {rate : Nat}
    (speakers slots : Nat) {counter : Nat} (hrate : 0 < rate) (hrate64 : rate < 2 ^ 64)
    (hcounter : counter < 2 ^ 64) :
    (opened lookahead volume mix rate speakers slots counter).Flows where
  clock := Sequencer.onClock_initial lookahead volume mix
  counts := ⟨hrate, hrate64, hcounter⟩
  reads := by simp [opened]
  order := List.Pairwise.nil
  stamps := by simp [opened, waiting, Output.initial, Renderer.initial, notesOf_nil]
  numbered := by simp [opened]
  overtakes := List.nil_subperm

/-- The counter has not yet come to where the next buffer begins. -/
theorem Flows.counter_le_next (h : interplay.Flows) :
    interplay.rig.sink.counter ≤ interplay.next := by
  unfold next
  split
  · exact le_rfl
  · next hphase =>
      rw [h.reads _ _ hphase]
      exact Nat.le_add_right _ _
  · exact Nat.le_add_right _ _

section

variable {rig : Rig Extended γ} {messages : List (Message Extended γ)}

theorem left_heard (hsink : rig.sink = interplay.rig.sink.queued messages) :
    (interplay.heard rig messages).left = interplay.left := by
  simp only [left, heard, hsink, Output.queued, Output.render]

theorem Flows.heard (h : interplay.Flows) (hclock : rig.sequencer.OnClock)
    (hsink : rig.sink = interplay.rig.sink.queued messages)
    (hsends : interplay.rig.Sends rig messages) : (interplay.heard rig messages).Flows where
  clock := hclock
  counts := hsink ▸ ⟨h.counts.rate_pos, h.counts.rate_lt, h.counts.counter_lt⟩
  reads counter frames hphase := (h.reads counter frames hphase).trans
    (congrArg Output.counter hsink).symm
  order := waiting_heard hsink ▸ h.order
  stamps := by
    have hsent : ∀ note ∈ notesOf messages, note.stamp ≤ maxCount := by
      cases hsends with
      | nothing => simp [notesOf_nil]
      | silence => simp [notesOf_stopAll, notesOf_nil]
      | notes notes _ _ hstamps => simpa using fun note hnote => (hstamps note hnote).2
    rw [waiting_heard hsink, notesOf_queue_heard hsink, ← List.append_assoc]
    intro note hnote
    rcases List.mem_append.mp hnote with hold | hnew
    · exact h.stamps note hold
    · exact hsent note hnew
  numbered := h.numbered
  overtakes := by
    rw [next_heard hsink, left_heard hsink, notesOf_queue_heard hsink, ← List.append_assoc,
      earlier_append]
    exact (List.subperm_append_right _).mpr h.overtakes

theorem Since.heard {later : List (StampedNote Extended γ)} (h : stopping.Since interplay later)
    (hsink : rig.sink = interplay.rig.sink.queued messages) :
    stopping.Since (interplay.heard rig messages) (later ++ notesOf messages) := by
  cases h with
  | queued before after hbuffers hqueue hafter hbefore =>
      refine .queued before (after ++ messages) hbuffers ?_ ?_ (left_heard hsink ▸ hbefore)
      · have hheard : (interplay.heard rig messages).rig.sink.queue =
            interplay.rig.sink.queue ++ messages := congrArg Output.queue hsink
        rw [hheard, hqueue, List.append_assoc, List.cons_append]
      · rw [notesOf_append, hafter]
  | drained hbuffers hnotes =>
      refine .drained hbuffers ?_
      rw [waiting_heard hsink, notesOf_queue_heard hsink, ← List.append_assoc, ← List.append_assoc]
      exact (List.subperm_append_right _).mpr hnotes

end

theorem Flows.proceed (h : interplay.Flows) (frames : Nat) : (interplay.proceed frames).Flows := by
  obtain ⟨rig, phase, buffers, sent, overtaken, begun⟩ := interplay
  obtain ⟨hclock, hcounts, hreads, horder, hstamps, hnumbered, hovertakes⟩ := h
  cases phase with
  | resting =>
      have hcounter : rig.sink.counter ≤ maxCount := Nat.le_of_lt_succ hcounts.counter_lt
      have horderly : InOrder rig.sink.drain.renderer.pending :=
        Renderer.inOrder_drain horder rig.sink.queue
      have hdrained : rig.sink.drain.renderer.pending.Subperm
          (rig.sink.renderer.pending ++ notesOf rig.sink.queue) :=
        rig.sink.renderer.drain_subperm rig.sink.queue
      have hfit : ∀ note ∈ rig.sink.drain.renderer.pending, note.stamp ≤ maxCount :=
        fun note hnote => hstamps note (hdrained.subset hnote)
      refine
        { clock := hclock
          counts := ⟨hcounts.rate_pos, hcounts.rate_lt, hcounts.counter_lt⟩
          reads := by rintro _ _ ⟨⟩; rfl
          order := horderly
          stamps := fun note hnote =>
            hfit note ((List.mem_append.mp hnote).resolve_right List.not_mem_nil)
          numbered := fun entry hentry => (hnumbered entry hentry).trans (Nat.le_succ buffers)
          overtakes := ?_ }
      change (earlier (rig.sink.counter + frames) (_ ++ [])).Subperm
        (if frames = 0 then overtaken else [])
      rw [List.append_nil]
      cases frames with
      | zero => exact (hdrained.filter _).trans hovertakes
      | succ frames =>
          have hlater := Take.le_stamp_of_mem_frames
            ⟨rig.sink.drain.renderer, rig.sink.counter, #[], #[]⟩ (rig.sink.rate : γ) frames horderly
            hcounter hfit
          exact (List.Perm.of_eq (earlier_eq_nil_iff.mpr hlater)).subperm
  | drained counter count =>
      obtain rfl : counter = rig.sink.counter := hreads counter count rfl
      have hsublist := Take.frames_sublist ⟨rig.sink.renderer, rig.sink.counter, #[], #[]⟩
        (rig.sink.rate : γ) count
      refine
        { clock := hclock
          counts := hcounts
          reads := by rintro _ _ ⟨⟩
          order := List.Pairwise.sublist hsublist horder
          stamps := fun note hnote => hstamps note ((hsublist.append_right _).subset hnote)
          numbered := ?_
          overtakes := hovertakes }
      intro entry hentry
      rcases List.mem_append.mp hentry with hold | hnew
      · exact hnumbered entry hold
      · obtain ⟨onset, _, rfl⟩ := List.mem_map.mp hnew
        exact le_rfl
  | rendered count take =>
      exact
        { clock := hclock
          counts := ⟨hcounts.rate_pos, hcounts.rate_lt, Nat.mod_lt _ (Nat.succ_pos _)⟩
          reads := by rintro _ _ ⟨⟩
          order := horder
          stamps := hstamps
          numbered := hnumbered
          -- Where the counter goes round, it comes to rest before the end of the buffer.
          overtakes := (earlier_sublist_of_le (Nat.mod_le _ _) _).subperm.trans hovertakes }

theorem Since.proceed {later : List (StampedNote Extended γ)} (h : stopping.Since interplay later)
    (hflows : interplay.Flows) (frames : Nat) : stopping.Since (interplay.proceed frames) later := by
  have hnone := hflows.begunAfter_eq_nil
  obtain ⟨rig, phase, buffers, sent, overtaken, begun⟩ := interplay
  cases h with
  | queued before after hbuffers hqueue hafter hbefore =>
      cases phase with
      | resting =>
          obtain rfl : buffers = stopping.buffers := hbuffers
          have hdrained := rig.sink.renderer.drain_stopAll_subperm before after
            stopping.rig.sink.counter
          rw [← hqueue, hafter] at hdrained
          refine .drained (Nat.lt_succ_self _) ?_
          change (begunAfter ⟨rig, .resting, stopping.buffers, sent, overtaken, begun⟩
            stopping.buffers ++ rig.sink.drain.renderer.pending ++ []).Subperm _
          rw [hnone, List.nil_append, List.append_nil]
          exact hdrained.trans ((List.subperm_append_right _).mpr hbefore)
      | drained counter count => exact .queued before after hbuffers hqueue hafter hbefore
      | rendered count take => exact .queued before after hbuffers hqueue hafter hbefore
  | drained hbuffers hnotes =>
      cases phase with
      | resting =>
          refine .drained (hbuffers.trans (Nat.lt_succ_self _)) (List.Subperm.trans ?_ hnotes)
          change (_ ++ rig.sink.drain.renderer.pending ++ []).Subperm _
          rw [List.append_nil, List.append_assoc]
          exact (List.subperm_append_left _).mpr (rig.sink.renderer.drain_subperm rig.sink.queue)
      | drained counter count =>
          refine .drained hbuffers ?_
          rw [begunAfter_proceed rfl hbuffers, List.append_assoc (begunAfter _ _)]
          exact Take.frames_conserve ⟨rig.sink.renderer, counter, #[], #[]⟩ (rig.sink.rate : γ) count ▸
            hnotes
      | rendered count take => exact .drained hbuffers hnotes

variable [Tuning Extended] {soundtrack : Soundtrack}

def step (soundtrack : Soundtrack) (interplay : Interplay γ) : Act γ → Interplay γ
  | .request request =>
    let rig := (interplay.rig.request soundtrack request).player
    interplay.heard rig (rig.sink.queue.drop interplay.rig.sink.queue.length)
  | .proceed frames => interplay.proceed frames

def run (soundtrack : Soundtrack) (interplay : Interplay γ) (acts : List (Act γ)) : Interplay γ :=
  acts.foldl (step soundtrack) interplay

/-- Nothing finds the queue full. -/
def Allows (soundtrack : Soundtrack) (interplay : Interplay γ) : Act γ → Prop
  | .request request => .queueFull ∉ (interplay.rig.request soundtrack request).notices
  | .proceed _ => True

instance (soundtrack : Soundtrack) (interplay : Interplay γ) (act : Act γ) :
    Decidable (interplay.Allows soundtrack act) :=
  match act with
  | .request request => inferInstanceAs
      (Decidable (.queueFull ∉ (interplay.rig.request soundtrack request).notices))
  | .proceed _ => inferInstanceAs (Decidable True)

theorem step_request (soundtrack : Soundtrack) (request : Request γ)
    {messages : List (Message Extended γ)}
    (hsink : (interplay.rig.request soundtrack request).player.sink =
      interplay.rig.sink.queued messages) :
    interplay.step soundtrack (.request request) =
      interplay.heard (interplay.rig.request soundtrack request).player messages := by
  have hqueue : (interplay.rig.request soundtrack request).player.sink.queue =
      interplay.rig.sink.queue ++ messages := congrArg Output.queue hsink
  simp only [step, hqueue, List.drop_left]

theorem Flows.step (h : interplay.Flows) {act : Act γ} (hallows : interplay.Allows soundtrack act) :
    (interplay.step soundtrack act).Flows := by
  cases act with
  | request request =>
      obtain ⟨hclock, messages, hsink, hsends⟩ := Rig.request_sends h.clock h.counts soundtrack
        request hallows
      rw [step_request soundtrack request hsink]
      exact h.heard hclock hsink hsends
  | proceed frames => exact h.proceed frames

/-- A run that goes on from a stop. -/
structure Follows (stopping interplay : Interplay γ) : Prop where
  flows : interplay.Flows
  since : ∃ later, interplay.sent = stopping.sent ++ later ∧ stopping.Since interplay later

/-- A stop puts a silence into the queue, and everything that lies before its sample and is still to
begin has been overtaken. -/
theorem Flows.stop (h : interplay.Flows) (hplaying : interplay.rig.sequencer.playing = true)
    (hroom : .queueFull ∉ (interplay.rig.request soundtrack .stop).notices) :
    interplay.Follows (interplay.step soundtrack (.request .stop)) := by
  obtain ⟨hclock, messages, hsink, hsends⟩ := Rig.request_sends h.clock h.counts soundtrack .stop
    hroom
  have hflows : (interplay.step soundtrack (.request .stop)).Flows := h.step hroom
  rw [step_request soundtrack .stop hsink] at hflows ⊢
  have hrests : (interplay.rig.request soundtrack .stop).player.sequencer.playing = false := by
    have htransport : interplay.rig.sequencer.transport.playing = true := hplaying
    change ((interplay.rig.sequencer.transport.stop _ _).2).playing = false
    simp [Transport.stop, htransport]
  cases hsends with
  | nothing hrested => exact absurd ((hrested hrests).symm.trans hplaying) (by simp)
  | notes _ _ hstays _ => exact absurd (hstays.symm.trans hrests) (by simp)
  | silence _ =>
      refine ⟨hflows, [], by simp [Interplay.heard, notesOf_stopAll, notesOf_nil], ?_⟩
      refine .queued interplay.rig.sink.queue [] rfl (congrArg Output.queue hsink) rfl ?_
      rw [left_heard hsink, ← earlier_earlier h.counter_le_next]
      exact h.overtakes.filter _

theorem Follows.step (h : stopping.Follows interplay) {act : Act γ}
    (hallows : interplay.Allows soundtrack act) :
    stopping.Follows (interplay.step soundtrack act) := by
  obtain ⟨hflows, later, hsent, hsince⟩ := h
  refine ⟨hflows.step hallows, ?_⟩
  cases act with
  | request request =>
      obtain ⟨_, messages, hsink, _⟩ := Rig.request_sends hflows.clock hflows.counts soundtrack
        request hallows
      rw [step_request soundtrack request hsink]
      refine ⟨later ++ notesOf messages, ?_, hsince.heard hsink⟩
      rw [← List.append_assoc, ← hsent]
      rfl
  | proceed frames =>
      exact ⟨later, (sent_proceed interplay frames).trans hsent, hsince.proceed hflows frames⟩

/-- Requests come between the phases of buffers in any order, and nothing finds the queue full.  What
begins in buffers that begin after a stop has been sent after the stop, unless it lies before the stop
and the last buffer had overtaken it. -/
theorem begun_after_stop (soundtrack : Soundtrack) (lookahead : Extended) (volume : γ)
    (mix : PerRole γ) (rate speakers slots counter : Nat) (before after : List (Act γ))
    (hrate : 0 < rate) (hrate64 : rate < 2 ^ 64) (hcounter : counter < 2 ^ 64)
    (hadmits : Admits (step soundtrack) (Allows soundtrack)
      (opened lookahead volume mix rate speakers slots counter)
      (before ++ .request .stop :: after)) :
    let stopping := (opened lookahead volume mix rate speakers slots counter).run soundtrack before
    let final := stopping.run soundtrack (.request .stop :: after)
    stopping.rig.sequencer.playing = true →
      (final.begunAfter stopping.buffers).Subperm
        (earlier stopping.rig.sink.counter stopping.overtaken ++
          final.sent.drop stopping.sent.length) := by
  intro stopping final hplaying
  obtain ⟨hbefore, hroom, hafter⟩ := Admits.append.mp hadmits
  have hstopping : stopping.Flows :=
    hbefore.foldl (fun _ _ h hallows => h.step hallows)
      (flows_opened lookahead volume mix speakers slots hrate hrate64 hcounter)
  have hfinal : stopping.Follows final :=
    hafter.foldl (fun _ _ h hallows => h.step hallows) (hstopping.stop hplaying hroom)
  obtain ⟨later, hsent, hsince⟩ := hfinal.since
  rw [hsent, List.drop_left]
  cases hsince with
  | queued _ _ hbuffers _ _ _ =>
      rw [← hbuffers, hfinal.flows.begunAfter_eq_nil]
      exact List.nil_subperm
  | drained _ hnotes =>
      rw [List.append_assoc] at hnotes
      exact (List.sublist_append_left _ _).subperm.trans hnotes

end Interplay

namespace Interplay

open Octaves Curves in
/-- Two buffers after a stop: the first begins a note that the buffer before the stop has overtaken, the
second one that was sent while the first was under way. -/
theorem begun_after_stop_and_start :
    let texts : PerRole String := ⟨"r8 a", "", "", ""⟩
    let soundtrack : Soundtrack := ⟨fun _ => some texts, fun _ => none, id⟩
    let opened : Interplay Rat := opened (finite (3 / 5)) 1 (.replicate 1) 8 1 64 0
    let before : List (Act Rat) := [.request (.load 0), .request .start, .proceed 4, .request .tick,
      .proceed 0, .proceed 0]
    let after : List (Act Rat) := [.proceed 2, .request .start, .proceed 0, .request .tick, .proceed 0,
      .proceed 4, .proceed 0, .proceed 0]
    let stopping := opened.run soundtrack before
    let final := stopping.run soundtrack (.request .stop :: after)
    Admits (step soundtrack) (Allows soundtrack) opened (before ++ .request .stop :: after) ∧
    stopping.rig.sequencer.playing = true ∧
    (final.begunAfter stopping.buffers).map StampedNote.stamp = [2, 8] ∧
    (final.begunAfter stopping.buffers).Subperm
      (earlier stopping.rig.sink.counter stopping.overtaken ++
        final.sent.drop stopping.sent.length) := by
  intro texts soundtrack opened before after stopping final
  have hadmits : Admits (step soundtrack) (Allows soundtrack) opened
      (before ++ .request .stop :: after) := by decide +kernel
  have hplaying : stopping.rig.sequencer.playing = true := by decide +kernel
  have hbegun : (final.begunAfter stopping.buffers).map StampedNote.stamp = [2, 8] := by
    decide +kernel
  have hsubperm := begun_after_stop soundtrack (finite (3 / 5)) 1 (.replicate 1) 8 1 64 0 before after
    (by decide) (by decide) (by decide) hadmits hplaying
  exact ⟨hadmits, hplaying, hbegun, hsubperm⟩

open Octaves Curves in
/-- Nothing is sent after a stop, and the next buffer begins a note.  The note was sent while the buffer
before the stop was under way, and belonged to its third frame. -/
theorem overtaken_begins_after_stop :
    let texts : PerRole String := ⟨"r8 a", "", "", ""⟩
    let soundtrack : Soundtrack := ⟨fun _ => some texts, fun _ => none, id⟩
    let opened : Interplay Rat := opened (finite (3 / 5)) 1 (.replicate 1) 8 1 64 0
    let before : List (Act Rat) := [.request (.load 0), .request .start, .proceed 4, .request .tick,
      .proceed 0, .proceed 0]
    let after : List (Act Rat) := [.proceed 2, .proceed 0, .proceed 0]
    let stopping := opened.run soundtrack before
    let final := stopping.run soundtrack (.request .stop :: after)
    Admits (step soundtrack) (Allows soundtrack) opened (before ++ .request .stop :: after) ∧
    stopping.rig.sequencer.playing = true ∧
    ¬ (final.begunAfter stopping.buffers).Subperm (final.sent.drop stopping.sent.length) := by
  intro texts soundtrack opened before after stopping final
  have hadmits : Admits (step soundtrack) (Allows soundtrack) opened
      (before ++ .request .stop :: after) := by decide +kernel
  have hplaying : stopping.rig.sequencer.playing = true := by decide +kernel
  have hbegun : (final.begunAfter stopping.buffers).length = 1 := by decide +kernel
  have hsent : (final.sent.drop stopping.sent.length).length = 0 := by decide +kernel
  refine ⟨hadmits, hplaying, fun hsubperm => ?_⟩
  have hle := hsubperm.length_le
  omega

end Interplay

end Chiptune
