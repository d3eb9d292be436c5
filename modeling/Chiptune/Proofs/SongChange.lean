import Chiptune.Proofs.ExactlyOnce
import Chiptune.Proofs.Gapless

/-!
Changing the song while it plays.

Loading another song takes back what has not begun and points every track to its top, but it leaves the
anchor where it is.  The new song so enters in the middle of a cycle, or after several cycles that it
has never played, and what it would have played before is passed over.

Main statement: after the change the log holds the notes of the old song that had begun, and then, of
every track of the new song, each occurrence from the change on up to the end of the last lookahead.
-/
namespace Chiptune

variable {γ : Type}

namespace Scheduler

variable {scheduler : Scheduler Rat} {composition : Composition Rat γ} {origin now : Rat}

theorem le_time_of_mem_pass {role : Role} {events : List (NoteEvent Rat γ)} {head : Playhead}
    {begun loopLength horizon : Rat} (hstarts : ∀ event ∈ events, 0 ≤ event.start)
    (hnext : now ≤ begun + loopLength) {scheduled : Scheduled Rat γ}
    (h : scheduled ∈ (pass role events head now begun loopLength horizon).scheduled) :
    now ≤ scheduled.time := by
  rcases List.mem_append.mp h with hdue | hearly
  · obtain ⟨event, hevent, rfl⟩ := List.mem_map.mp hdue
    exact of_decide_eq_true (List.mem_filter.mp hevent).2
  · obtain ⟨event, hevent, rfl⟩ := List.mem_map.mp hearly
    split at hevent
    · have hmem := List.mem_of_mem_drop ((List.takeWhile_prefix _).subset hevent)
      exact hnext.trans (le_add_of_nonneg_right (hstarts event hmem))
    · exact absurd hevent List.not_mem_nil

theorem le_time_of_mem_tick (htimed : composition.WellTimed) (hloop : 0 < composition.loopLength)
    {anchor : Rat} {scheduled : Scheduled Rat γ}
    (h : scheduled ∈ (scheduler.tick composition now anchor).scheduled) : now ≤ scheduled.time := by
  have hnext : now < anchor + (turns composition.loopLength now anchor + 1) *
      composition.loopLength := lt_turns_succ_mul hloop
  rw [tick_eq scheduler hloop] at h
  obtain ⟨passed, hpassed, hmem⟩ := List.mem_flatMap.mp h
  obtain ⟨role, rfl⟩ := PerRole.mem_toList.mp hpassed
  rw [passAll, PerRole.get_ofRole] at hmem
  exact le_time_of_mem_pass (htimed.nonneg role) (by linarith) hmem

/-- Over a run of ticks on a clock that does not go back, nothing comes before the first of them. -/
theorem le_time_of_mem_ticks (htimed : composition.WellTimed) (hloop : 0 < composition.loopLength)
    {anchor first : Rat} {nows : List Rat} (hnows : ∀ now ∈ nows, first ≤ now) :
    ∀ tick ∈ scheduler.ticks composition anchor nows, ∀ scheduled ∈ tick.scheduled,
      first ≤ scheduled.time := by
  induction nows generalizing scheduler anchor with
  | nil => simp [ticks]
  | cons now later ih =>
      intro tick htick scheduled hscheduled
      rcases List.mem_cons.mp htick with rfl | hmem
      · exact (hnows now List.mem_cons_self).trans (le_time_of_mem_tick htimed hloop hscheduled)
      · exact ih (fun time htime => hnows time (List.mem_cons_of_mem now htime)) tick hmem scheduled
          hscheduled

theorem filter_ofRole_ticks (htimed : composition.WellTimed) (hloop : 0 < composition.loopLength)
    {anchor first : Rat} {nows : List Rat} (hnows : ∀ now ∈ nows, first ≤ now) (role : Role) :
    ((scheduler.ticks composition anchor nows).flatMap fun tick => tick.ofRole role).filter
        (fun scheduled => decide (first ≤ scheduled.time)) =
      (scheduler.ticks composition anchor nows).flatMap fun tick => tick.ofRole role := by
  rw [List.filter_eq_self]
  intro scheduled hscheduled
  obtain ⟨tick, htick, hmem⟩ := List.mem_flatMap.mp hscheduled
  exact decide_eq_true (le_time_of_mem_ticks htimed hloop hnows tick htick scheduled
    (List.mem_filter.mp hmem).1)

/-- What a first tick from the top of the tracks does in the middle of a song: what comes before it
counts as played, and of the rest it hands out what comes up to the end of the lookahead. -/
structure Enters (tick : Tick Rat γ) (composition : Composition Rat γ) (origin now lookahead : Rat)
    (cycle : Nat) : Prop where
  inCycle : tick.scheduler.InCycle composition origin tick.report.anchor cycle
  lookahead_eq : tick.scheduler.lookahead = lookahead
  began : tick.report.anchor ≤ now
  runs : now < tick.report.anchor + composition.loopLength
  earlier : ∀ role, ∀ o ∈ composition.timeline role cycle, origin + composition.timeOf o < now
  handedOut : ∀ role, ∃ reached : List (Occurrence γ),
    tick.scheduler.handedOut composition cycle role = composition.timeline role cycle ++ reached ∧
    tick.ofRole role = (reached.filter fun o => decide (now ≤ origin + composition.timeOf o)).map
      (composition.scheduledAt role origin) ∧
    ∀ o ∈ reached, origin + composition.timeOf o ≤ now + lookahead
  beyond : ∀ role, ∀ o ∈ tick.scheduler.ahead composition cycle role,
    now + lookahead < origin + composition.timeOf o

theorem headsAfter_top (cycles : Nat) :
    headsAfter (.replicate .top) cycles = .replicate .top := by
  match cycles with
  | 0 => rfl
  | 1 => rfl
  | _ + 2 => rfl

theorem tick_rewind_enters (scheduler : Scheduler Rat) (htimed : composition.WellTimed)
    (hloop : 0 < composition.loopLength)
    (hstarts : ∀ role, ∀ event ∈ composition.tracks.get role,
      event.start < composition.loopLength) (hnow : origin ≤ now) :
    Enters (scheduler.rewind.tick composition now origin) composition origin now scheduler.lookahead
      (turns composition.loopLength now origin) := by
  have hbegan := turns_mul_le hloop hnow
  have hruns : now < origin + (turns composition.loopLength now origin + 1) *
      composition.loopLength := lt_turns_succ_mul hloop
  have hearlier (role : Role) : ∀ o ∈ composition.timeline role
      (turns composition.loopLength now origin), origin + composition.timeOf o < now := by
    intro o ho
    linarith [Composition.timeOf_lt_of_mem hloop hstarts (sub_nonneg.mpr hnow) ho]
  rw [tick_eq scheduler.rewind hloop, show scheduler.rewind.heads = .replicate .top from rfl]
  simp only [headsAfter_top]
  generalize turns composition.loopLength now origin = cycle at hbegan hruns hearlier ⊢
  generalize hpasses : passAll composition (.replicate .top) now
    (origin + cycle * composition.loopLength) (now + scheduler.rewind.lookahead) = passes
  have hvalid (role : Role) : Playhead.top.Valid (composition.tracks.get role).length :=
    Playhead.valid_top _
  have hpass (role : Role) : (passes.get role).Reaches composition role cycle .top origin now
      (composition.reach role cycle .top origin (now + scheduler.lookahead)) := by
    rw [← hpasses, passAll, PerRole.get_ofRole, PerRole.get_replicate]
    exact pass_reaches htimed (hvalid role) hruns.le
  have hhead (role : Role) : (passes.map Pass.head).get role = (passes.get role).head :=
    PerRole.get_map _ _ role
  refine
    { inCycle := ⟨rfl, fun role => hhead role ▸ (hpass role).valid⟩
      lookahead_eq := rfl
      began := hbegan
      runs := by dsimp only; linarith
      earlier := hearlier
      handedOut := ?_
      beyond := ?_ }
  · intro role
    refine ⟨composition.reach role cycle .top origin (now + scheduler.lookahead), ?_, ?_, ?_⟩
    · rw [Scheduler.handedOut, hhead role, (hpass role).handedOut, Composition.handedOut_top]
    · rw [← (hpass role).scheduled, ← hpasses]
      exact filter_role_passAll _ _ _ _ role
    · intro o ho
      exact of_decide_eq_true (List.mem_takeWhile_imp (p := fun o : Occurrence γ =>
        decide (origin + composition.timeOf o ≤ now + scheduler.lookahead)) ho)
  · intro role o ho
    rw [Scheduler.ahead, hhead role, ahead_of_reaches (hvalid role) (hpass role)] at ho
    refine not_le.mp fun hle => not_of_mem_dropWhile ?_ ho (decide_eq_true hle)
    apply (htimed.sorted_ahead hloop (hvalid role)).imp
    intro a b hab hb
    exact decide_eq_true (by linarith [of_decide_eq_true hb])

variable {tick : Tick Rat γ} {lookahead : Rat} {cycle : Nat}

/-- With a lookahead, the ticks that follow have nothing to make up for. -/
theorem Enters.settled (h : Enters tick composition origin now lookahead cycle)
    (hlookahead : 0 ≤ lookahead) :
    tick.scheduler.Settled composition origin tick.report.anchor now cycle where
  toInCycle := h.inCycle
  began := h.began
  runs := h.runs
  due role o ho := by linarith [h.beyond role o ho]
  beyond := h.lookahead_eq ▸ h.beyond
  reached role o ho := by
    obtain ⟨reached, hhanded, _, htimes⟩ := h.handedOut role
    rw [hhanded] at ho
    rw [h.lookahead_eq]
    rcases List.mem_append.mp ho with hbefore | hnew
    · linarith [h.earlier role o hbefore]
    · exact htimes o hnew

/-- Of what has been handed out in place of all before, only what is not over was handed out. -/
theorem Enters.filter_handedOut (h : Enters tick composition origin now lookahead cycle)
    (role : Role) :
    ((tick.scheduler.handedOut composition cycle role).filter fun o =>
      decide (now ≤ origin + composition.timeOf o)).map (composition.scheduledAt role origin) =
        tick.ofRole role := by
  obtain ⟨reached, hhanded, hofRole, _⟩ := h.handedOut role
  have hover : (composition.timeline role cycle).filter (fun o =>
      decide (now ≤ origin + composition.timeOf o)) = [] := by
    rw [List.filter_eq_nil_iff]
    intro o ho
    simpa using h.earlier role o ho
  rw [hhanded, List.filter_append, hover, List.nil_append, hofRole]

/-- Ticks from the top of the tracks, in the middle of a song: of every track they hand out each
occurrence from the first of them on up to the end of the last lookahead, once and in order. -/
theorem ticks_rewind (scheduler : Scheduler Rat) (htimed : composition.WellTimed)
    (hloop : 0 < composition.loopLength)
    (hstarts : ∀ role, ∀ event ∈ composition.tracks.get role,
      event.start < composition.loopLength) (hnow : origin ≤ now) (later : List Rat)
    (hgaps : (now :: later).IsChain fun earlier next =>
      earlier ≤ next ∧ next - earlier ≤ min scheduler.lookahead composition.loopLength)
    (role : Role) :
    let last := (now :: later).getLast (List.cons_ne_nil _ _)
    (scheduler.rewind.ticks composition origin (now :: later)).flatMap
        (fun tick => tick.ofRole role) =
      ((composition.timeline role (⌊(last - origin) / composition.loopLength⌋₊ + 2)).filter
        fun o => decide (now ≤ origin + composition.timeOf o ∧
          origin + composition.timeOf o ≤ last + scheduler.lookahead)).map
            (composition.scheduledAt role origin) := by
  intro last
  have henters := tick_rewind_enters scheduler htimed hloop hstarts hnow
  rcases lt_or_ge scheduler.lookahead 0 with hnegative | hlookahead
  · -- Without a lookahead there can be no second tick, and the first finds nothing due.
    cases later with
    | cons next later =>
        obtain ⟨hle, hgap⟩ := (List.isChain_cons_cons.mp hgaps).1
        have hshort := hgap.trans (min_le_left _ _)
        linarith
    | nil =>
        obtain ⟨reached, _, hofRole, htimes⟩ := henters.handedOut role
        have hnone : (reached.filter fun o => decide (now ≤ origin + composition.timeOf o)) = [] := by
          rw [List.filter_eq_nil_iff]
          intro o ho hdue
          linarith [htimes o ho, of_decide_eq_true hdue]
        have hempty : ((composition.timeline role
            (⌊(last - origin) / composition.loopLength⌋₊ + 2)).filter fun o =>
              decide (now ≤ origin + composition.timeOf o ∧
                origin + composition.timeOf o ≤ last + scheduler.lookahead)) = [] := by
          rw [List.filter_eq_nil_iff]
          intro o _ hboth
          obtain ⟨hdue, hend⟩ := of_decide_eq_true hboth
          rw [show last = now from rfl] at hend
          linarith
        rw [hempty, ticks, ticks, List.flatMap_singleton, hofRole, hnone]
  · have hsettled := henters.settled hlookahead
    have hrun := ticks_runsTo htimed hloop hsettled later (henters.lookahead_eq ▸ hgaps)
    have hnows : ∀ time ∈ later, now ≤ time := by
      have hsorted := (hgaps.imp fun _ _ hgap => hgap.1).pairwise
      exact (List.pairwise_cons.mp hsorted).1
    have hstruck := congrArg (List.filter fun scheduled => decide (now ≤ scheduled.time))
      (hrun.handedOut role)
    rw [List.filter_append, filter_ofRole_ticks htimed hloop hnows, List.filter_map,
      List.filter_map, List.filter_filter, henters.lookahead_eq] at hstruck
    simp only [Bool.decide_and]
    exact (congrArg (· ++ _) (henters.filter_handedOut role)).symm.trans hstruck

end Scheduler

namespace Player

def performAll {σ τ : Type} [Scalar τ] [Scalar γ] [Sink σ τ γ] [Tuning τ] (player : Player σ τ γ)
    (soundtrack : Soundtrack) (requests : List (τ × Request γ)) : Player σ τ γ :=
  requests.foldl
    (fun player timed => (player.perform soundtrack timed.1 timed.2).player) player

section

variable [Scalar γ] [Tuning Rat] {song : Composition Rat γ}

/-- The log over a run of ticks. -/
theorem notes_ticks (soundtrack : Soundtrack) (player : Player (Recording Rat γ) Rat γ)
    (hplaying : player.sequencer.playing = true)
    (hcurrent : player.sequencer.current = some song) (nows : List Rat) :
    (player.performAll soundtrack (nows.map fun now => (now, .tick))).sink.notes =
      player.sink.notes ++ (player.sequencer.scheduler.ticks song
        player.sequencer.transport.anchor nows).flatMap
          fun tick => tick.scheduled.map player.sequencer.dispatchOf := by
  induction nows generalizing player with
  | nil => simp [performAll, Scheduler.ticks]
  | cons now later ih =>
      have htick : player.sequencer.tick now = _ :=
        Sequencer.tick_of_playing hplaying hcurrent
      have hnext : (player.perform soundtrack now .tick).player.sequencer =
          { player.sequencer with
            scheduler := (player.sequencer.scheduler.tick song now
              player.sequencer.transport.anchor).scheduler
            transport := player.sequencer.transport.rebase (player.sequencer.scheduler.tick song now
              player.sequencer.transport.anchor).report.anchor } := by
        simp only [perform, settle, Sequencer.perform, Performed.map, htick]
      have hnotes : (player.perform soundtrack now .tick).player.sink.notes = player.sink.notes ++
          (player.sequencer.scheduler.tick song now
            player.sequencer.transport.anchor).scheduled.map player.sequencer.dispatchOf := by
        rw [← Sequencer.filterMap_note_tickEffects, ← Recording.notes_hearAll _
          (Sequencer.silence_not_mem_tickEffects _)]
        simp only [perform, settle, Sequencer.perform, Performed.map, htick]
      have hlater := ih (player.perform soundtrack now .tick).player
        (by rw [hnext]; exact hplaying) (by rw [hnext]; exact hcurrent)
      rw [hnotes, hnext, List.append_assoc] at hlater
      exact hlater

/-- A clean change of songs.  A player that records plays, and its anchor is not ahead of the clock;
then it loads another song, whose events begin before the end of its loop, and ticks at once and later
at the pace of the lookahead and the loop.  Its log then holds the notes that had begun before the
change, and after them, of every track of the new song on the old anchor, each occurrence from the
change on up to the end of the last lookahead, as far as the cycle after the current one. -/
theorem log_after_change (soundtrack : Soundtrack) (id : Nat) (texts : PerRole String)
    (player : Player (Recording Rat γ) Rat γ) (now : Rat) (later : List Rat)
    (hplaying : player.sequencer.playing = true)
    (hanchor : player.sequencer.transport.anchor ≤ now)
    (hother : ∀ song ∈ player.sequencer.current, song.id ≠ id)
    (hsong : soundtrack.song id = some texts)
    (hloop : 0 < (Composition.compile id texts : Composition Rat γ).loopLength)
    (hstarts : ∀ role, ∀ event ∈
      (Composition.compile id texts : Composition Rat γ).tracks.get role,
      event.start < (Composition.compile id texts : Composition Rat γ).loopLength)
    (hgaps : (now :: later).IsChain fun earlier next => earlier ≤ next ∧
      next - earlier ≤ min player.sequencer.scheduler.lookahead
        (Composition.compile id texts : Composition Rat γ).loopLength) :
    let song : Composition Rat γ := Composition.compile id texts
    let anchor := player.sequencer.transport.anchor
    let last := (now :: later).getLast (List.cons_ne_nil _ _)
    let after := player.performAll soundtrack
      ((now, .load id) :: (now :: later).map fun time => (time, .tick))
    ∃ new : List (Dispatch Rat γ),
      after.sink.notes =
        player.sink.notes.filter (fun note => decide (note.start < now)) ++ new ∧
      ∀ role, new.filter (fun note => decide (note.role = role)) =
        ((song.timeline role (⌊(last - anchor) / song.loopLength⌋₊ + 2)).filter fun o =>
          decide (now ≤ anchor + song.timeOf o ∧
            anchor + song.timeOf o ≤ last + player.sequencer.scheduler.lookahead)).map
              fun o => player.sequencer.dispatchOf (song.scheduledAt role anchor o) := by
  intro song anchor last after
  have htimed : song.WellTimed := Composition.wellTimed_compile id texts
  have hload := Sequencer.load_other hother hsong now
  let loaded : Player (Recording Rat γ) Rat γ :=
    ⟨{ player.sequencer with
        current := some song, scheduler := player.sequencer.scheduler.rewind },
      ⟨player.sink.notes.filter fun note => decide (note.start < now)⟩⟩
  have hloaded : (player.perform soundtrack now (.load id)).player = loaded := by
    simp only [perform, settle, Sequencer.perform, Performed.map, hload]
    rw [Sequencer.silenceIfPlaying, if_pos hplaying]
    rfl
  have hafter : after = performAll (player.perform soundtrack now (.load id)).player soundtrack
    ((now :: later).map fun time => (time, .tick)) := rfl
  rw [hafter, hloaded]
  refine ⟨_, notes_ticks soundtrack loaded hplaying rfl (now :: later), ?_⟩
  intro role
  have hticks := Scheduler.ticks_rewind player.sequencer.scheduler htimed hloop hstarts hanchor later
    hgaps role
  rw [List.filter_flatMap]
  have hrole (tick : Tick Rat γ) : (tick.scheduled.map player.sequencer.dispatchOf).filter
      (fun note => decide (note.role = role)) =
        (tick.ofRole role).map player.sequencer.dispatchOf := by
    rw [List.filter_map]
    rfl
  calc _ = (player.sequencer.scheduler.rewind.ticks song anchor (now :: later)).flatMap
        (fun tick => (tick.ofRole role).map player.sequencer.dispatchOf) := by
        exact List.flatMap_congr fun tick _ => hrole tick
    _ = ((player.sequencer.scheduler.rewind.ticks song anchor (now :: later)).flatMap
        (fun tick => tick.ofRole role)).map player.sequencer.dispatchOf := by
        rw [List.map_flatMap]
    _ = _ := by
        rw [hticks, List.map_map]
        rfl

end

open Octaves in
/-- The second song has a loop of three quarters of a second and enters a quarter of a second after
the beginning of its second cycle, while a note of the first song at 45 / 4 is still to come. -/
theorem log_after_change_in_second_cycle :
    let first : PerRole String := ⟨"a8 r a", "", "", "k"⟩
    let second : PerRole String := ⟨"c8 d8 e8", "", "", "k"⟩
    let soundtrack : Soundtrack := ⟨fun id => some (if id = 0 then first else second),
      fun _ => none, id⟩
    let song : Composition Rat Rat := .compile 1 second
    let player : Player (Recording Rat Rat) Rat Rat :=
      performAll ⟨.initial (1 / 2) 1 (.replicate 1), ⟨[]⟩⟩ soundtrack
        [(10, .load 0), (10, .start), (10, .tick), (21 / 2, .tick), (11, .tick)]
    let after := player.performAll soundtrack
      ((11, .load 1) :: [11, 23 / 2].map fun time => (time, .tick))
    (player.sequencer.playing = true ∧ player.sequencer.transport.anchor ≤ 11 ∧
      0 < song.loopLength ∧
      (∀ role, ∀ event ∈ song.tracks.get role, event.start < song.loopLength)) ∧
    (∃ new : List (Dispatch Rat Rat),
      after.sink.notes = player.sink.notes.filter (fun note => decide (note.start < 11)) ++ new ∧
        (new.filter fun note => decide (note.role = .lead)).map Dispatch.start =
          [11, 45 / 4, 23 / 2, 47 / 4, 12]) ∧
    (player.sink.notes.filter (fun note => decide (note.role = .lead))).map Dispatch.start =
      [10, 43 / 4, 45 / 4] := by
  intro first second soundtrack song player after
  have hplaying : player.sequencer.playing = true := by decide +kernel
  have hanchor : player.sequencer.transport.anchor ≤ 11 := by decide +kernel
  have hloop : 0 < song.loopLength := by decide +kernel
  have hstarts : ∀ role, ∀ event ∈ song.tracks.get role, event.start < song.loopLength := by
    intro role
    cases role <;> decide +kernel
  obtain ⟨new, hnotes, hnew⟩ := log_after_change soundtrack 1 second player 11 [23 / 2] hplaying
    hanchor (by decide +kernel) rfl hloop hstarts (by decide +kernel)
  have hafter : after = player.performAll soundtrack
      ((11, .load 1) :: [11, 23 / 2].map fun time => (time, .tick)) := rfl
  rw [← hafter] at hnotes
  refine ⟨⟨hplaying, hanchor, hloop, hstarts⟩, ⟨new, hnotes, ?_⟩, by decide +kernel⟩
  rw [hnew .lead]
  decide +kernel

end Player

end Chiptune
