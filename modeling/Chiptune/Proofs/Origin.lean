import Chiptune.Player
import Chiptune.Proofs.Extended
import Chiptune.Proofs.Operations

/-!
The clock may count from anywhere.

A sequencer deals with two kinds of times: clock times, at which something happens, and lengths,
which are differences of clock times.  On a clock that counts from another origin the former are all
off by the same amount, and the latter stay.

Main statement: a new player that is asked the same things by a clock that is ahead answers the same
and ends in the same state, save for the clock times in its answers, in its notes and under its
song.
-/
namespace Chiptune

namespace Extended

/-- A clock time as a clock shows it that is ahead. -/
def shift (offset : Rat) (time : Extended) : Extended := time + finite offset

variable {offset : Rat} {u v : Extended}

@[simp] theorem shift_finite (x : Rat) : shift offset (finite x) = finite (x + offset) := rfl

@[simp] theorem shift_infinite (negative : Bool) :
    shift offset (infinite negative) = infinite negative := rfl

@[simp] theorem shift_nan : shift offset nan = nan := rfl

@[simp] theorem shift_lt_shift : shift offset u < shift offset v ↔ u < v := by
  cases u <;> cases v <;> simp

@[simp] theorem shift_le_shift : shift offset u ≤ shift offset v ↔ u ≤ v := by
  rw [le_iff, le_iff, shift_lt_shift]
  cases u <;> cases v <;> simp

theorem shift_add (u v : Extended) : shift offset u + v = shift offset (u + v) := by
  cases u with
  | finite x =>
      cases v with
      | finite y => exact congrArg finite (add_right_comm x offset y)
      | infinite | nan => rfl
  | infinite a =>
      cases v with
      | infinite b => cases a <;> cases b <;> rfl
      | finite | nan => rfl
  | nan => rfl

theorem shift_sub (u v : Extended) : shift offset u - v = shift offset (u - v) := shift_add u v.neg

theorem shift_sub_shift (u v : Extended) : shift offset u - shift offset v = u - v := by
  cases u with
  | finite x =>
      cases v with
      | finite y =>
          rw [shift_finite, shift_finite, finite_sub_finite, finite_sub_finite,
            add_sub_add_right_eq_sub]
      | infinite | nan => rfl
  | infinite | nan => cases v <;> rfl

end Extended

open Extended

variable {γ : Type} (offset : Rat)

def Scheduled.shift (scheduled : Scheduled Extended γ) : Scheduled Extended γ :=
  { scheduled with time := scheduled.time.shift offset }

def Report.shift (report : Report Extended) : Report Extended :=
  { report with anchor := report.anchor.shift offset }

def Reply.shift : Reply Extended → Reply Extended
  | .report answer => .report (answer.map (Report.shift offset))
  | other => other

def Dispatch.shift (note : Dispatch Extended γ) : Dispatch Extended γ :=
  { note with start := note.start.shift offset }

def Notice.shift : Notice Extended γ → Notice Extended γ
  | .loopWrapped cycles anchor => .loopWrapped cycles (anchor.shift offset)
  | .noteHeard note => .noteHeard (note.shift offset)
  | .silenceHeard time => .silenceHeard (time.shift offset)
  | other => other

def Effect.shift : Effect Extended γ → Effect Extended γ
  | .notice line => .notice (line.shift offset)
  | .dispatch note => .dispatch (note.shift offset)
  | .silence time => .silence (time.shift offset)

def Recording.shift (recording : Recording Extended γ) : Recording Extended γ :=
  ⟨recording.notes.map (Dispatch.shift offset)⟩

namespace Scheduler

def Pass.shift (pass : Pass Extended γ) : Pass Extended γ :=
  { pass with scheduled := pass.scheduled.map (Scheduled.shift offset) }

end Scheduler

/-- How many cycles ended is no clock time. -/
def Tick.shift (tick : Tick Extended γ) : Tick Extended γ :=
  { tick with
    report := tick.report.shift offset
    scheduled := tick.scheduled.map (Scheduled.shift offset) }

namespace Scheduler

theorem cyclesPassed_shift (loopLength now anchor : Extended) :
    cyclesPassed loopLength (now.shift offset) (anchor.shift offset) =
      cyclesPassed loopLength now anchor := by
  rw [cyclesPassed, shift_sub_shift, cyclesPassed]

theorem within_shift (events : List (NoteEvent Extended γ)) (index : Nat)
    (anchor horizon : Extended) :
    within events index (anchor.shift offset) (horizon.shift offset) =
      within events index anchor horizon := by
  simp only [within, shift_add, shift_lt_shift]

theorem pass_shift (role : Role) (events : List (NoteEvent Extended γ)) (head : Playhead)
    (now anchor loopLength horizon : Extended) :
    pass role events head (now.shift offset) (anchor.shift offset) loopLength
        (horizon.shift offset) =
      (pass role events head now anchor loopLength horizon).shift offset := by
  simp only [pass, Pass.shift, shift_add, within_shift, shift_le_shift, List.map_append,
    List.map_map]
  rfl

theorem passAll_shift (song : Composition Extended γ) (heads : PerRole Playhead)
    (now anchor horizon : Extended) :
    passAll song heads (now.shift offset) (anchor.shift offset) (horizon.shift offset) =
      (passAll song heads now anchor horizon).map (Pass.shift offset) := by
  simp only [passAll, pass_shift]
  rfl

/-- A tick takes clock times in through their differences and orders alone. -/
theorem tick_shift (scheduler : Scheduler Extended) (song : Composition Extended γ)
    (now anchor : Extended) :
    scheduler.tick song (now.shift offset) (anchor.shift offset) =
      (scheduler.tick song now anchor).shift offset := by
  unfold tick
  by_cases hdegenerate : song.isDegenerate = true
  · rw [if_pos hdegenerate, if_pos hdegenerate]
    rfl
  · rw [if_neg hdegenerate, if_neg hdegenerate]
    have hclock (i : Option Extended) {u : Extended} {f : Extended → Extended} :
        i.elim (u.shift offset) (fun j => (f j).shift offset) = (i.elim u f).shift offset :=
      Option.elim_comp (Extended.shift offset)
    simp only [cyclesPassed_shift, shift_add, hclock, passAll_shift]
    simp [Tick.shift, PerRole.map, PerRole.toList, Pass.shift, Report.shift]

end Scheduler

namespace Sequencer

variable {offset : Rat} {first second : Sequencer Extended γ}

/-- The same sequencer on a clock that is ahead.  Only a sequencer that plays knows the clock, from
the time at which the current cycle began; at rest that time says nothing. -/
structure Shifted (offset : Rat) (first second : Sequencer Extended γ) : Prop where
  same : second = { first with transport := first.transport.rebase second.transport.anchor }
  anchor : first.playing = true → second.transport.anchor = first.transport.anchor.shift offset

namespace Shifted

variable (h : first.Shifted offset second)
include h

theorem current_eq : second.current = first.current := by rw [h.same]

theorem playing_eq : second.playing = first.playing := by rw [h.same]; rfl

theorem saved_eq : second.transport.saved = first.transport.saved := by rw [h.same]; rfl

theorem scheduler_eq : second.scheduler = first.scheduler := by rw [h.same]

/-- Positions are the same, whether saved or running. -/
theorem position (now : Extended) :
    second.transport.position (now.shift offset) = first.transport.position now := by
  have hplaying : second.transport.playing = first.transport.playing := h.playing_eq
  cases hplays : first.transport.playing with
  | true =>
    rw [Transport.position, Transport.position, hplaying, hplays, h.anchor hplays]
    exact shift_sub_shift _ _
  | false =>
    rw [Transport.position, Transport.position, hplaying, hplays]
    exact h.saved_eq

theorem silenceIfPlaying (now : Extended) :
    second.silenceIfPlaying (now.shift offset) =
      (first.silenceIfPlaying now).map (Effect.shift offset) := by
  rw [Sequencer.silenceIfPlaying, Sequencer.silenceIfPlaying, h.playing_eq]
  split <;> rfl

end Shifted

/-- The same answer of the same sequencer on a clock that is ahead. -/
structure ShiftedIn (offset : Rat) (first second : Performed Extended γ (Reply Extended)) :
    Prop where
  answer : second.answer = first.answer.shift offset
  sequencer : first.sequencer.Shifted offset second.sequencer
  effects : second.effects = first.effects.map (Effect.shift offset)

namespace Shifted

variable [Scalar γ] [Tuning Extended] (soundtrack : Soundtrack) (now : Extended)
  (h : first.Shifted offset second)
include h

theorem load (id : Nat) :
    ShiftedIn offset (first.perform soundtrack now (.load id))
      (second.perform soundtrack (now.shift offset) (.load id)) := by
  simp only [perform, Sequencer.load, h.current_eq]
  cases soundtrack.load first.current id with
  | unchanged song => exact ⟨rfl, h, rfl⟩
  | missing => exact ⟨rfl, h, rfl⟩
  | replaced song =>
      refine ⟨rfl, ⟨?_, h.anchor⟩, ?_⟩
      · rw [h.same]
        rfl
      · simp [Performed.map, h.silenceIfPlaying, LoadOutcome.notices, Effect.shift, Notice.shift]

theorem start :
    ShiftedIn offset (first.perform soundtrack now .start)
      (second.perform soundtrack (now.shift offset) .start) := by
  rw [perform, perform]
  cases hplays : first.playing with
  | true =>
      rw [start_of_playing hplays, start_of_playing (h.playing_eq.trans hplays)]
      exact ⟨rfl, h, rfl⟩
  | false =>
      have hrests : second.playing = false := h.playing_eq.trans hplays
      cases hcurrent : first.current with
      | none =>
          rw [start_of_empty hplays hcurrent, start_of_empty hrests (h.current_eq.trans hcurrent)]
          exact ⟨rfl, h, rfl⟩
      | some song =>
          rw [start_of_resting hplays hcurrent,
            start_of_resting hrests (h.current_eq.trans hcurrent), h.saved_eq, h.scheduler_eq]
          refine ⟨rfl, ⟨?_, fun _ => ?_⟩, rfl⟩
          · rw [h.same]
            rfl
          · exact shift_sub now _

theorem stop :
    ShiftedIn offset (first.perform soundtrack now .stop)
      (second.perform soundtrack (now.shift offset) .stop) := by
  cases hplays : first.playing with
  | false =>
      rw [perform, perform, stop_of_resting hplays, stop_of_resting (h.playing_eq.trans hplays)]
      exact ⟨rfl, h, rfl⟩
  | true =>
      have hfirst : first.transport.playing = true := hplays
      have hsecond : second.transport.playing = true := h.playing_eq.trans hplays
      simp only [perform, Sequencer.stop, Transport.stop, hfirst, hsecond, if_true, h.current_eq,
        h.anchor hplays, shift_sub_shift]
      refine ⟨rfl, ⟨?_, ?_⟩, rfl⟩
      · rw [h.same]
        rfl
      · intro hstill
        exact absurd hstill Bool.false_ne_true

theorem reset :
    ShiftedIn offset (first.perform soundtrack now .reset)
      (second.perform soundtrack (now.shift offset) .reset) := by
  refine ⟨rfl, ⟨?_, ?_⟩, ?_⟩
  · rw [h.same]
    rfl
  · intro hstill
    exact absurd hstill Bool.false_ne_true
  · simp [perform, Performed.map, Sequencer.reset, h.silenceIfPlaying, Effect.shift, Notice.shift]

theorem setVolume (gain : γ) :
    ShiftedIn offset (first.perform soundtrack now (.setVolume gain))
      (second.perform soundtrack (now.shift offset) (.setVolume gain)) := by
  refine ⟨rfl, ?_, rfl⟩
  simp only [perform, Performed.map, Sequencer.setVolume, Transport.setVolume]
  split
  · refine ⟨?_, h.anchor⟩
    rw [h.same]
    rfl
  · exact h

omit [Tuning Extended] in
theorem tickEffects (tick : Tick Extended γ) :
    second.tickEffects (tick.shift offset) =
      (first.tickEffects tick).map (Effect.shift offset) := by
  have hturn : (tick.shift offset).turnNotices = tick.turnNotices.map (Notice.shift offset) := by
    simp [Tick.turnNotices, Tick.shift, Report.shift, Notice.shift]
  have hmiss : (tick.shift offset).missNotices = tick.missNotices.map (Notice.shift offset) := by
    rw [Tick.missNotices, Tick.missNotices, apply_ite (List.map (Notice.shift offset))]
    rfl
  have hnote (scheduled : Scheduled Extended γ) :
      second.dispatchOf (scheduled.shift offset) = (first.dispatchOf scheduled).shift offset := by
    rw [h.same]
    rfl
  rw [Sequencer.tickEffects, Sequencer.tickEffects, hturn, hmiss]
  simp [Tick.shift, Function.comp_def, Effect.shift, hnote]

theorem tick :
    ShiftedIn offset (first.perform soundtrack now .tick)
      (second.perform soundtrack (now.shift offset) .tick) := by
  rw [perform, perform]
  cases hplays : first.playing with
  | false =>
      rw [tick_of_resting hplays, tick_of_resting (h.playing_eq.trans hplays)]
      exact ⟨rfl, h, rfl⟩
  | true =>
      cases hcurrent : first.current with
      | none =>
          rw [tick_of_empty hcurrent, tick_of_empty (h.current_eq.trans hcurrent)]
          exact ⟨rfl, h, rfl⟩
      | some song =>
          rw [tick_of_playing hplays hcurrent,
            tick_of_playing (h.playing_eq.trans hplays) (h.current_eq.trans hcurrent),
            h.scheduler_eq, h.anchor hplays, Scheduler.tick_shift]
          refine ⟨rfl, ⟨?_, fun _ => rfl⟩, ?_⟩
          · rw [h.same]
            rfl
          · exact h.tickEffects _

/-- A request takes the clock in, and gives it back, in clock times alone. -/
theorem perform (request : Request γ) :
    ShiftedIn offset (first.perform soundtrack now request)
      (second.perform soundtrack (now.shift offset) request) := by
  cases request with
  | load id => exact h.load soundtrack now id
  | start => exact h.start soundtrack now
  | stop => exact h.stop soundtrack now
  | reset => exact h.reset soundtrack now
  | setVolume gain => exact h.setVolume soundtrack now gain
  | tick => exact h.tick soundtrack now

end Shifted

end Sequencer

namespace Recording

variable (offset : Rat)

theorem hear_shift (recording : Recording Extended γ) (effect : Effect Extended γ) :
    Sink.hear (recording.shift offset) (effect.shift offset) =
      ((Sink.hear recording effect).1.map (Notice.shift offset),
        (Sink.hear recording effect).2.shift offset) := by
  cases effect with
  | notice notice => rfl
  | dispatch note => simp [Sink.hear, Effect.shift, Sink.dispatch, Recording.shift]
  | silence time =>
      simp [Sink.hear, Effect.shift, Sink.silence, Recording.shift, List.filter_map,
        Function.comp_def, Dispatch.shift]

theorem hearAll_shift (recording : Recording Extended γ) (effects : List (Effect Extended γ)) :
    Sink.hearAll (recording.shift offset) (effects.map (Effect.shift offset)) =
      ((Sink.hearAll recording effects).1.map (Notice.shift offset),
        (Sink.hearAll recording effects).2.shift offset) := by
  induction effects generalizing recording with
  | nil => rfl
  | cons effect rest ih => simp only [List.map_cons, Sink.hearAll, hear_shift, ih, List.map_append]

end Recording

namespace Player

section

variable {σ τ γ : Type} [Scalar τ] [Scalar γ] [Sink σ τ γ] [Tuning τ]

/-- Performs requests one after another, each at its clock time, and keeps what each one answers and
what it leaves in the log. -/
def performEach (player : Player σ τ γ) (soundtrack : Soundtrack) :
    List (τ × Request γ) → List (Reply τ × List (Notice τ γ)) × Player σ τ γ
  | [] => ([], player)
  | (now, request) :: rest =>
    let played := player.perform soundtrack now request
    let (answers, player) := played.player.performEach soundtrack rest
    ((played.answer, played.notices) :: answers, player)

end

variable {offset : Rat} {first second : Player (Recording Extended γ) Extended γ}

/-- The same player on a clock that is ahead. -/
structure Shifted (offset : Rat) (first second : Player (Recording Extended γ) Extended γ) :
    Prop where
  sequencer : first.sequencer.Shifted offset second.sequencer
  sink : second.sink = first.sink.shift offset

variable [Scalar γ] [Tuning Extended]

/-- What one request keeps. -/
theorem Shifted.perform (h : first.Shifted offset second) (soundtrack : Soundtrack) (now : Extended)
    (request : Request γ) :
    let played := first.perform soundtrack now request
    let later := second.perform soundtrack (now.shift offset) request
    later.answer = played.answer.shift offset ∧
      later.notices = played.notices.map (Notice.shift offset) ∧
      played.player.Shifted offset later.player := by
  have hperform := h.sequencer.perform soundtrack now request
  have hhear := Recording.hearAll_shift offset first.sink
    (first.sequencer.perform soundtrack now request).effects
  rw [← hperform.effects, ← h.sink] at hhear
  exact ⟨hperform.answer, congrArg Prod.fst hhear, hperform.sequencer, congrArg Prod.snd hhear⟩

/-- What any requests keep. -/
theorem Shifted.performEach (h : first.Shifted offset second) (soundtrack : Soundtrack)
    (requests : List (Extended × Request γ)) :
    let played := first.performEach soundtrack requests
    let later := second.performEach soundtrack
      (requests.map fun timed => (timed.1.shift offset, timed.2))
    later.1 = played.1.map (Prod.map (Reply.shift offset) (List.map (Notice.shift offset))) ∧
      played.2.Shifted offset later.2 := by
  induction requests generalizing first second with
  | nil => exact ⟨rfl, h⟩
  | cons timed rest ih =>
      obtain ⟨now, request⟩ := timed
      obtain ⟨hanswer, hnotices, hplayer⟩ := h.perform soundtrack now request
      obtain ⟨hanswers, hfinal⟩ := ih hplayer
      refine ⟨?_, hfinal⟩
      simp only [List.map_cons, Player.performEach, hanswer, hnotices, hanswers]
      rfl

/-- Independence of the origin of the clock.  A new player with an empty recording performs any
requests, at any clock times, and another one performs the same requests on a clock that is ahead.
They answer the same, and after any requests they have the same song, playheads, saved position and
volume, are at the same position, and have recorded the same notes; only the clock times in what
they report and log, the starts of their notes, and the time at which the current cycle began, if
they play, are ahead. -/
theorem performEach_shift (soundtrack : Soundtrack) (lookahead : Extended) (volume : γ)
    (mix : PerRole γ) (offset : Rat) (requests : List (Extended × Request γ)) :
    let fresh : Player (Recording Extended γ) Extended γ := ⟨.initial lookahead volume mix, ⟨[]⟩⟩
    let first := fresh.performEach soundtrack requests
    let second := fresh.performEach soundtrack
      (requests.map fun timed => (timed.1.shift offset, timed.2))
    second.1 = first.1.map (Prod.map (Reply.shift offset) (List.map (Notice.shift offset))) ∧
      first.2.Shifted offset second.2 ∧
      ∀ now, second.2.sequencer.transport.position (now.shift offset) =
        first.2.sequencer.transport.position now := by
  intro fresh first second
  have hfresh : fresh.Shifted offset fresh :=
    ⟨⟨rfl, fun hplays => absurd hplays Bool.false_ne_true⟩, rfl⟩
  obtain ⟨hanswers, hplayer⟩ := hfresh.performEach soundtrack requests
  exact ⟨hanswers, hplayer, hplayer.sequencer.position⟩

end Player

end Chiptune
