import Chiptune.Player
import Chiptune.Proofs.Operations
import Chiptune.Proofs.Seek
import Chiptune.Proofs.Stopwatch

/-!
A sequencer that starts, stops and ticks its song, followed by a stopwatch.

Main statement: what a sequencer has handed out and not taken back is a beginning of the time line,
every note at the clock time that the stopwatch gives for it; a start changes nothing of it, a tick
adds to it, and a stop takes back all that has not been played.
-/
namespace Chiptune

variable {γ : Type}

/-- The requests that playing is made of. -/
inductive Cue where
  | start
  | stop
  | tick
deriving DecidableEq, Repr

def Cue.request : Cue → Request γ
  | .start => .start
  | .stop => .stop
  | .tick => .tick

/-- Follows a cue at a clock time, from whether the sequencer played before it and after it. -/
def Stopwatch.heard (watch : Stopwatch) (cue : Cue) (before after : Bool) (now : Rat) : Stopwatch :=
  match cue with
  | .start | .stop => watch.switch before after now
  | .tick => watch.ticked

@[simp] theorem Stopwatch.played_heard (watch : Stopwatch) (cue : Cue) (before after : Bool)
    (now : Rat) : (watch.heard cue before after now).played = watch.played := by
  cases cue with
  | start => exact Stopwatch.played_switch ..
  | stop => exact Stopwatch.played_switch ..
  | tick => rfl

def Effect.note? {τ γ : Type} : Effect τ γ → Option (Dispatch τ γ)
  | .dispatch note => some note
  | .notice _ | .silence _ => none

theorem Effect.filterMap_note_notices {τ : Type} (notices : List (Notice τ γ)) :
    (notices.map Effect.notice).filterMap Effect.note? = [] := by
  simp [List.filterMap_map, Function.comp_def, note?]

namespace Sequencer

section

variable {τ : Type} [Scalar γ] {sequencer : Sequencer τ γ}

/-- The notes among the effects of a tick. -/
theorem filterMap_note_tickEffects (tick : Tick τ γ) :
    (sequencer.tickEffects tick).filterMap Effect.note? =
      tick.scheduled.map sequencer.dispatchOf := by
  have hnotes : (tick.scheduled.map fun scheduled =>
      Effect.dispatch (sequencer.dispatchOf scheduled)).filterMap Effect.note? =
        tick.scheduled.map sequencer.dispatchOf := by
    rw [List.filterMap_map]
    exact congrFun (List.filterMap_eq_map (f := sequencer.dispatchOf)) _
  rw [tickEffects, List.filterMap_append, List.filterMap_append, Effect.filterMap_note_notices,
    Effect.filterMap_note_notices, hnotes, List.nil_append, List.append_nil]

theorem silence_not_mem_tickEffects (tick : Tick τ γ) (time : τ) :
    Effect.silence time ∉ sequencer.tickEffects tick := by
  simp [tickEffects]

end

variable [Scalar γ] {sequencer : Sequencer Rat γ} {song : Composition Rat γ} {now : Rat}

/-- An occurrence as a note, at the clock time at which playing reaches it. -/
def noteOf (sequencer : Sequencer Rat γ) (song : Composition Rat γ) (resumes : List Resume)
    (role : Role) (o : Occurrence γ) : Dispatch Rat γ :=
  sequencer.dispatchOf ⟨role, o.event, clockAt resumes (song.timeOf o)⟩

/-- A sequencer on its way through a song, told from the settings it was made with, the stopwatch and
what it has handed out and not taken back. -/
structure Follows (sequencer fresh : Sequencer Rat γ) (song : Composition Rat γ)
    (watch : Stopwatch) (now : Rat) (handed : Role → List (Occurrence γ)) : Prop where
  current : sequencer.current = some song
  lookahead : sequencer.scheduler.lookahead = fresh.scheduler.lookahead
  dispatchOf : sequencer.dispatchOf = fresh.dispatchOf
  keeps : watch.Keeps sequencer.playing now
  rolls : sequencer.playing = true → ∃ cycle,
    sequencer.scheduler.Prompt song (now - watch.played) sequencer.transport.anchor now cycle ∧
      (∀ role, handed role = sequencer.scheduler.handedOut song cycle role) ∧
      ∀ since ∈ watch.sinceTick, 0 ≤ since ∧ sequencer.scheduler.Clear song (now - watch.played)
        sequencer.transport.anchor (now - since) cycle
  rests : sequencer.playing = false →
    sequencer.transport.saved =
        watch.played - ⌊watch.played / song.loopLength⌋₊ * song.loopLength ∧
      ∀ role, handed role = song.past role watch.played

/-- What a cue brings about.  Either notes are handed out, possibly none, or all that has not been
played is taken back. -/
inductive Response (fresh : Sequencer Rat γ) (song : Composition Rat γ) (watch after : Stopwatch)
    (now : Rat) (handed later : Role → List (Occurrence γ)) (effects : List (Effect Rat γ)) :
    Prop where
  | plays (reached : Role → List (Occurrence γ))
    (hlater : ∀ role, later role = handed role ++ reached role)
    (hnotes : ∀ role, (effects.filterMap Effect.note?).filter
        (fun note => decide (note.role = role)) =
      (reached role).map (fresh.noteOf song watch.resumes role))
    (hsilence : ∀ time, Effect.silence time ∉ effects)
    (hreached : ∀ role, ∀ o ∈ reached role, watch.played ≤ song.timeOf o ∧
      clockAt watch.resumes (song.timeOf o) = now - watch.played + song.timeOf o)
    (hresumes : ∀ role, ∀ o ∈ later role,
      clockAt after.resumes (song.timeOf o) = clockAt watch.resumes (song.timeOf o))
    (hpauses : after.pauses = watch.pauses)
  | silences (notice : Notice Rat γ)
    (heffects : effects = [.notice notice, .silence now])
    (hlater : ∀ role, later role =
      (handed role).filter fun o => decide (song.timeOf o < watch.played))
    (hkeeps : watch.Keeps true now)
    (hresumes : after.resumes = watch.resumes)
    (hpauses : after.pauses = watch.played :: watch.pauses)

variable {fresh : Sequencer Rat γ} {watch : Stopwatch} {seconds : Rat}
  {handed : Role → List (Occurrence γ)}

/-- A cue that only has something to say for the log. -/
theorem Response.nothing {after : Stopwatch} (notices : List (Notice Rat γ))
    (hresumes : ∀ role, ∀ o ∈ handed role,
      clockAt after.resumes (song.timeOf o) = clockAt watch.resumes (song.timeOf o))
    (hpauses : after.pauses = watch.pauses) :
    Response fresh song watch after now handed handed (notices.map .notice) := by
  refine .plays (fun _ => []) ?_ ?_ ?_ ?_ hresumes hpauses
  · simp
  · intro role
    rw [Effect.filterMap_note_notices]
    rfl
  · simp
  · simp

namespace Follows

variable (h : Follows sequencer fresh song watch now handed)
include h

/-- What has been handed out is part of the time line, in its order. -/
theorem handed_sublist (role : Role) :
    ∃ cycles, (handed role).Sublist (song.timeline role cycles) := by
  cases hplaying : sequencer.playing with
  | false =>
      rw [(h.rests hplaying).2 role]
      exact ⟨_, List.filter_sublist⟩
  | true =>
      obtain ⟨cycle, hprompt, hhanded, _⟩ := h.rolls hplaying
      rw [hhanded role]
      exact ⟨cycle + 2, hprompt.handedOut_append_ahead role ▸ List.sublist_append_left _ _⟩

theorem sorted_handed (htimed : song.WellTimed) (hloop : 0 < song.loopLength) (role : Role) :
    (handed role).Pairwise fun a b => song.timeOf a ≤ song.timeOf b := by
  obtain ⟨cycles, hsublist⟩ := h.handed_sublist role
  exact (htimed.sorted_timeline hloop cycles).sublist hsublist

theorem timeOf_nonneg (htimed : song.WellTimed) (hloop : 0 < song.loopLength) {role : Role}
    {o : Occurrence γ} (ho : o ∈ handed role) : 0 ≤ song.timeOf o := by
  obtain ⟨cycles, hsublist⟩ := h.handed_sublist role
  exact htimed.timeOf_nonneg hloop (hsublist.subset ho)

/-- All that has been played has been handed out. -/
theorem filter_handed (htimed : song.WellTimed) (hloop : 0 < song.loopLength) (role : Role) :
    (handed role).filter (fun o => decide (song.timeOf o < watch.played)) =
      song.past role watch.played := by
  cases hplaying : sequencer.playing with
  | false =>
      rw [(h.rests hplaying).2 role]
      exact List.filter_eq_self.mpr fun o ho => decide_eq_true (Composition.lt_of_mem_past ho)
  | true =>
      obtain ⟨cycle, hprompt, hhanded, _⟩ := h.rolls hplaying
      have hanchor := hprompt.anchor_eq
      have hsoon := hprompt.soon
      rw [hhanded role]
      refine (htimed.past_of_append hloop ?_ (hprompt.handedOut_append_ahead role) ?_).symm
      · push_cast
        linarith
      · intro o ho
        linarith [hprompt.due role o ho]

/-- A start hands out nothing: what is ahead is what the pause took back. -/
theorem start (htimed : song.WellTimed) (hloop : 0 < song.loopLength)
    (hresume : sequencer.playing = false →
      ∀ role, ∀ o ∈ song.timeline role ⌊watch.played / song.loopLength⌋₊,
        song.timeOf o < watch.played) :
    let performed := sequencer.start now
    let after := watch.switch sequencer.playing performed.sequencer.playing now
    Response fresh song watch after now handed handed performed.effects ∧
      Follows performed.sequencer fresh song after now handed := by
  cases hplaying : sequencer.playing with
  | true =>
      rw [start_of_playing hplaying]
      simp only [hplaying]
      exact ⟨.nothing [_] (fun _ _ _ => rfl) rfl, h⟩
  | false =>
      obtain ⟨hsaved, hhanded⟩ := h.rests hplaying
      have hkeeps := h.keeps
      rw [hplaying] at hkeeps
      have hcycles : ⌊watch.played / song.loopLength⌋₊ * song.loopLength ≤ watch.played := by
        rw [← le_div_iff₀ hloop]
        exact Nat.floor_le (div_nonneg hkeeps.nonneg hloop.le)
      have hposition : foldPosition sequencer.transport.saved song.loopLength =
          watch.played - ⌊watch.played / song.loopLength⌋₊ * song.loopLength := by
        rw [hsaved, foldPosition_sub hloop _ hcycles]
      obtain ⟨hprompt, hsought⟩ := sequencer.scheduler.seek_prompt now htimed hloop hkeeps.nonneg
        (hresume hplaying)
      rw [start_of_resting hplaying h.current, hposition]
      refine ⟨.nothing [_] ?_ rfl, ?_⟩
      · intro role o ho
        rw [hhanded role] at ho
        exact Stopwatch.clockAt_start (Composition.lt_of_mem_past ho)
      exact
        { current := h.current
          lookahead := h.lookahead
          dispatchOf := h.dispatchOf
          keeps := hkeeps.start
          rolls := fun _ => ⟨_, hprompt, fun role => (hhanded role).trans (hsought role).symm,
            fun since hsince => by simp [Stopwatch.switch, playing] at hsince⟩
          rests := fun hrests => by simp [playing] at hrests }

/-- A stop takes back what has not been played, and nothing else. -/
theorem stop (htimed : song.WellTimed) (hloop : 0 < song.loopLength) :
    let performed := sequencer.stop now
    let after := watch.switch sequencer.playing performed.sequencer.playing now
    ∃ later, Response fresh song watch after now handed later performed.effects ∧
      Follows performed.sequencer fresh song after now later := by
  cases hplaying : sequencer.playing with
  | false =>
      rw [stop_of_resting hplaying]
      simp only [hplaying]
      exact ⟨handed, .nothing [_] (fun _ _ _ => rfl) rfl, h⟩
  | true =>
      obtain ⟨cycle, hprompt, hhanded, _⟩ := h.rolls hplaying
      have hkeeps := h.keeps
      rw [hplaying] at hkeeps
      have hanchor := hprompt.anchor_eq
      have hbegan := hprompt.began
      have hposition : foldPosition (now - sequencer.transport.anchor) song.loopLength =
          watch.played - ⌊watch.played / song.loopLength⌋₊ * song.loopLength := by
        rw [show now - sequencer.transport.anchor = watch.played - cycle * song.loopLength by
          rw [hanchor]; ring]
        exact foldPosition_sub hloop cycle (by linarith)
      rw [stop_of_playing hplaying h.current, hposition]
      refine ⟨fun role => song.past role watch.played,
        .silences _ rfl (fun role => (h.filter_handed htimed hloop role).symm) hkeeps rfl rfl, ?_⟩
      exact
        { current := h.current
          lookahead := h.lookahead
          dispatchOf := h.dispatchOf
          keeps := hkeeps.pause
          rolls := fun hrolls => by simp [playing] at hrolls
          rests := fun _ => ⟨rfl, fun _ => rfl⟩ }

/-- A tick hands out notes that are still to be played, each at the clock time of the stopwatch. -/
theorem tick (htimed : song.WellTimed) (hloop : 0 < song.loopLength) :
    let performed := sequencer.tick now
    ∃ later, Response fresh song watch watch.ticked now handed later performed.effects ∧
      Follows performed.sequencer fresh song watch.ticked now later := by
  cases hplaying : sequencer.playing with
  | false =>
      rw [tick_of_resting hplaying]
      refine ⟨handed, .nothing [] (fun _ _ _ => rfl) rfl, ?_⟩
      exact { h with
        keeps := h.keeps.ticked
        rolls := fun hrolls => by simp [hplaying] at hrolls }
  | true =>
      obtain ⟨cycle, hprompt, hhanded, _⟩ := h.rolls hplaying
      have htick := Scheduler.tick_handsOut htimed hloop hprompt
      choose reached hreached hofRole htimes using htick.handedOut
      have hdue (role : Role) : ∀ o ∈ reached role, watch.played ≤ song.timeOf o ∧
          clockAt watch.resumes (song.timeOf o) = now - watch.played + song.timeOf o := by
        intro o ho
        have hle : watch.played ≤ song.timeOf o := by linarith [(htimes role o ho).1]
        exact ⟨hle, h.keeps.onward hplaying _ hle⟩
      have hnotes (role : Role) : ((sequencer.tickEffects (sequencer.scheduler.tick song now
          sequencer.transport.anchor)).filterMap Effect.note?).filter
            (fun note => decide (note.role = role)) =
          (reached role).map (fresh.noteOf song watch.resumes role) := by
        rw [filterMap_note_tickEffects, List.filter_map]
        refine (congrArg _ (hofRole role)).trans ?_
        rw [List.map_map]
        apply List.map_congr_left
        intro o ho
        rw [noteOf, (hdue role o ho).2, ← h.dispatchOf]
        rfl
      rw [tick_of_playing hplaying h.current]
      refine ⟨fun role => handed role ++ reached role,
        .plays reached (fun _ => rfl) hnotes (silence_not_mem_tickEffects _) hdue
          (fun _ _ _ => rfl) rfl, ?_⟩
      exact
        { current := h.current
          lookahead := htick.lookahead.trans h.lookahead
          dispatchOf := h.dispatchOf
          keeps := h.keeps.ticked
          rolls := fun _ => ⟨_, htick.clear.prompt,
            fun role => by rw [hreached role, ← hhanded role], by
              intro since hsince
              obtain rfl : 0 = since := Option.some.inj hsince
              rw [sub_zero]
              exact ⟨le_rfl, htick.clear⟩⟩
          rests := fun hrests => absurd (hplaying.symm.trans hrests) (by simp) }

/-- Time may go by at the pace of the ticks. -/
theorem wait (hseconds : 0 ≤ seconds)
    (hallows : watch.Allows sequencer.playing
      (min fresh.scheduler.lookahead song.loopLength) seconds) :
    Follows sequencer fresh song (watch.run sequencer.playing seconds) (now + seconds) handed := by
  have hkeeps := h.keeps.run hseconds
  cases hplaying : sequencer.playing with
  | false =>
      rw [hplaying] at hkeeps
      exact { h with
        keeps := hplaying ▸ hkeeps
        rolls := fun hrolls => by simp [hplaying] at hrolls }
  | true =>
      obtain ⟨cycle, hprompt, hhanded, hsince⟩ := h.rolls hplaying
      rw [hplaying] at hkeeps
      have horigin : now + seconds - (watch.played + seconds) = now - watch.played := by ring
      refine { h with
        keeps := hplaying ▸ hkeeps
        rolls := fun _ => ⟨cycle, ?_, hhanded, ?_⟩
        rests := fun hrests => absurd (hplaying.symm.trans hrests) (by simp) }
      · change sequencer.scheduler.Prompt song (now + seconds - (watch.played + seconds)) _ _ _
        rw [horigin]
        rcases hseconds.eq_or_lt with rfl | hpos
        · rwa [add_zero]
        · obtain ⟨since, hmem, hlimit⟩ := hallows hplaying hpos
          obtain ⟨hnonneg, hclear⟩ := hsince since hmem
          apply hclear.prompt_later (by linarith)
          rw [h.lookahead]
          linarith
      · intro since hmem
        obtain ⟨earlier, hearlier, rfl⟩ : ∃ earlier ∈ watch.sinceTick, earlier + seconds = since :=
          Option.mem_map.mp hmem
        obtain ⟨hnonneg, hclear⟩ := hsince earlier hearlier
        change _ ∧ sequencer.scheduler.Clear song (now + seconds - (watch.played + seconds)) _ _ _
        rw [horigin, add_sub_add_right_eq_sub]
        exact ⟨add_nonneg hnonneg hseconds, hclear⟩

end Follows

theorem load_initial [Tuning Rat] {soundtrack : Soundtrack} {id : Nat} {texts : PerRole String}
    (hsong : soundtrack.song id = some texts) (lookahead : Rat) (volume : γ) (mix : PerRole γ)
    (now : Rat) :
    let song : Composition Rat γ := Composition.compile id texts
    (initial lookahead volume mix).load soundtrack id now =
      { answer := true
        sequencer := { initial lookahead volume mix with current := some song }
        effects := [.notice (.songCompiled id song.loopLength song.eventCount),
          .notice (.songLoaded id song.loopLength)] } := by
  simp [load, initial, Soundtrack.load, hsong, LoadOutcome.notices, silenceIfPlaying, playing,
    Transport.initial, Scheduler.initial, Scheduler.rewind]

/-- A sequencer with a new song is at rest at its beginning. -/
theorem follows_initial (htimed : song.WellTimed) (hloop : 0 < song.loopLength) (lookahead : Rat)
    (volume : γ) (mix : PerRole γ) :
    Follows { initial lookahead volume mix with current := some song }
      (initial lookahead volume mix) song .initial now fun _ => [] where
  current := rfl
  lookahead := rfl
  dispatchOf := rfl
  keeps := Stopwatch.keeps_initial now
  rolls hrolls := by simp [playing, initial, Transport.initial] at hrolls
  rests _ := by
    refine ⟨?_, fun role => (htimed.past_zero hloop).symm⟩
    simp [initial, Transport.initial, Stopwatch.initial]

/-- Performs a cue and follows it. -/
theorem Follows.perform [Tuning Rat] (soundtrack : Soundtrack) (cue : Cue)
    (h : Follows sequencer fresh song watch now handed) (htimed : song.WellTimed)
    (hloop : 0 < song.loopLength)
    (hresume : cue = .start → sequencer.playing = false →
      ∀ role, ∀ o ∈ song.timeline role ⌊watch.played / song.loopLength⌋₊,
        song.timeOf o < watch.played) :
    let performed := sequencer.perform soundtrack now cue.request
    let after := watch.heard cue sequencer.playing performed.sequencer.playing now
    ∃ later, Response fresh song watch after now handed later performed.effects ∧
      Follows performed.sequencer fresh song after now later := by
  cases cue with
  | start => exact ⟨handed, h.start htimed hloop (hresume rfl)⟩
  | stop => exact h.stop htimed hloop
  | tick => exact h.tick htimed hloop

end Sequencer

/-- Loading its first song leaves the sink of a player as it was. -/
theorem Player.perform_load [Scalar γ] [Tuning Rat] {σ : Type} [Sink σ Rat γ] (sink : σ)
    {soundtrack : Soundtrack} {id : Nat} {texts : PerRole String}
    (hsong : soundtrack.song id = some texts) (lookahead : Rat) (volume : γ) (mix : PerRole γ)
    (now : Rat) :
    (Player.perform ⟨.initial lookahead volume mix, sink⟩ soundtrack now (.load id)).player =
      ⟨{ Sequencer.initial lookahead volume mix with
        current := some (Composition.compile id texts) }, sink⟩ := by
  have hload := Sequencer.load_initial hsong lookahead volume mix now
  simp [Player.perform, Player.settle, Sequencer.perform, Performed.map, hload, Sink.hearAll,
    Sink.hear]

end Chiptune
