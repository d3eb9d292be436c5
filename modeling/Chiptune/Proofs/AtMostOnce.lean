import Chiptune.Proofs.ExactlyOnce
import Chiptune.Proofs.ExtendedTime

/-!
Ticks at any clock times hand out no occurrence twice.

In a tick a track goes past a stretch of its current cycle and a stretch of the next.  What it goes
past is handed out unless its time is over, and is missed otherwise.

Main statement: whatever the clock shows from tick to tick, be it that it stalls for many loops or goes
back, what a track goes past comes strictly later, by cycles and by events within a cycle, than all it
went past before.
-/
namespace Chiptune

open Extended

variable {γ : Type}

/-- A count read as a natural number. -/
def Extended.whole : Extended → Nat
  | .finite x => ⌊x⌋₊
  | _ => 0

/-- An occurrence that a track goes past in a tick, and its clock time. -/
structure Passing (γ : Type) where
  cycle : Nat
  index : Nat
  event : NoteEvent Extended γ
  time : Extended

namespace Passing

/-- By cycles, and by events within a cycle. -/
def Before (earlier later : Passing γ) : Prop :=
  earlier.cycle < later.cycle ∨ earlier.cycle = later.cycle ∧ earlier.index < later.index

def scheduled (role : Role) (passing : Passing γ) : Scheduled Extended γ :=
  ⟨role, passing.event, passing.time⟩

/-- An event of a cycle that begins at an anchor. -/
def ofIndexed (cycle : Nat) (anchor : Extended) (indexed : NoteEvent Extended γ × Nat) :
    Passing γ :=
  ⟨cycle, indexed.2, indexed.1, anchor + indexed.1.start⟩

/-- What lies at a playhead of some cycle or behind it in time. -/
def Beyond (cycle : Nat) (head : Playhead) (passing : Passing γ) : Prop :=
  (passing.cycle = cycle ∧ head.cursor ≤ passing.index ∧ head.carried = 0) ∨
    (passing.cycle = cycle + 1 ∧ head.carried ≤ passing.index) ∨ cycle + 1 < passing.cycle

/-- What a playhead of some cycle has gone past since that cycle began. -/
def Behind (cycle : Nat) (head : Playhead) (passing : Passing γ) : Prop :=
  (passing.cycle = cycle ∧ passing.index < head.cursor) ∨
    (passing.cycle = cycle + 1 ∧ passing.index < head.carried)

theorem before_of_behind {cycle : Nat} {head : Playhead} {earlier later : Passing γ}
    (hearlier : earlier.Behind cycle head) (hlater : later.Beyond cycle head) :
    earlier.Before later := by
  unfold Behind at hearlier
  unfold Beyond at hlater
  unfold Before
  omega

end Passing

/-- The events of a track from one index up to another, in a cycle that begins at an anchor. -/
def stretch (events : List (NoteEvent Extended γ)) (cycle : Nat) (anchor : Extended)
    (first last : Nat) : List (Passing γ) :=
  (((events.drop first).take (last - first)).zipIdx first).map (Passing.ofIndexed cycle anchor)

section

variable {events : List (NoteEvent Extended γ)} {cycle first last : Nat} {anchor : Extended}

@[simp] theorem stretch_self : stretch events cycle anchor first first = [] := by simp [stretch]

theorem mem_stretch {passing : Passing γ} (h : passing ∈ stretch events cycle anchor first last) :
    passing.cycle = cycle ∧ first ≤ passing.index ∧ passing.index < last ∧
      passing.index < events.length := by
  obtain ⟨⟨event, index⟩, hmem, rfl⟩ := List.mem_map.mp h
  obtain ⟨hfirst, hlast, _⟩ := List.mem_zipIdx hmem
  rw [List.length_take, List.length_drop] at hlast
  have hindex : index < last ∧ index < events.length := by omega
  exact ⟨rfl, hfirst, hindex⟩

theorem ordered_stretch : (stretch events cycle anchor first last).Pairwise Passing.Before := by
  have hindices := List.pairwise_lt_range' (s := first)
    (n := ((events.drop first).take (last - first)).length) 1
  rw [← List.zipIdx_map_snd, List.pairwise_map] at hindices
  rw [stretch, List.pairwise_map]
  exact hindices.imp fun hlt => .inr ⟨rfl, hlt⟩

end

namespace Playhead

/-- Early events stand for a cycle that is finished. -/
def Finished (events : Nat) (head : Playhead) : Prop := head.carried = 0 ∨ events ≤ head.cursor

/-- What a track goes past as its playhead moves on, in a cycle that begins at an anchor. -/
def passings (before after : Playhead) (events : List (NoteEvent Extended γ)) (cycle : Nat)
    (anchor loopLength : Extended) : List (Passing γ) :=
  stretch events cycle anchor before.cursor after.cursor ++
    stretch events (cycle + 1) (anchor + loopLength) before.carried after.carried

/-- A playhead moves on: it goes back nowhere, and early events stay behind a finished cycle. -/
structure Moves (before after : Playhead) (events : Nat) : Prop where
  cursor_le : before.cursor ≤ after.cursor
  carried_le : before.carried ≤ after.carried
  finished : before.Finished events → after.Finished events

theorem Moves.refl (head : Playhead) (events : Nat) : head.Moves head events :=
  ⟨le_rfl, le_rfl, id⟩

variable {before after : Playhead} {events : List (NoteEvent Extended γ)} {cycle : Nat}
  {anchor loopLength : Extended}

@[simp] theorem passings_self : before.passings before events cycle anchor loopLength = [] := by
  simp [passings]

theorem ordered_passings :
    (before.passings after events cycle anchor loopLength).Pairwise Passing.Before := by
  refine List.pairwise_append.mpr ⟨ordered_stretch, ordered_stretch, ?_⟩
  intro earlier hearlier later hlater
  refine .inl ?_
  rw [(mem_stretch hearlier).1, (mem_stretch hlater).1]
  exact Nat.lt_succ_self cycle

theorem behind_of_mem_passings {passing : Passing γ}
    (h : passing ∈ before.passings after events cycle anchor loopLength) :
    passing.Behind cycle after := by
  rcases List.mem_append.mp h with hnow | hnext
  · have hmem := mem_stretch hnow
    exact .inl ⟨hmem.1, hmem.2.2.1⟩
  · have hmem := mem_stretch hnext
    exact .inr ⟨hmem.1, hmem.2.2.1⟩

theorem beyond_of_mem_passings (hfinished : before.Finished events.length) {passing : Passing γ}
    (h : passing ∈ before.passings after events cycle anchor loopLength) :
    passing.Beyond cycle before := by
  rcases List.mem_append.mp h with hnow | hnext
  · have hmem := mem_stretch hnow
    refine .inl ⟨hmem.1, hmem.2.1, hfinished.resolve_right ?_⟩
    omega
  · have hmem := mem_stretch hnext
    exact .inr (.inl ⟨hmem.1, hmem.2.1⟩)

/-- What lies beyond a playhead lies beyond where it came from. -/
theorem Moves.beyond (h : before.Moves after events.length) {passing : Passing γ}
    (hbeyond : passing.Beyond cycle after) : passing.Beyond cycle before := by
  have hcursor := h.cursor_le
  have hcarried := h.carried_le
  unfold Passing.Beyond at hbeyond ⊢
  omega

end Playhead

namespace Scheduler

/-- The turn of the loop keeps early events only of the cycle directly behind it. -/
theorem finished_headsAfter {heads : PerRole Playhead} {events : Nat} {role : Role}
    (h : (heads.get role).Finished events) (cycles : Nat) :
    ((headsAfter heads cycles).get role).Finished events := by
  match cycles with
  | 0 => exact h
  | 1 => exact .inl (by simp [headsAfter])
  | cycles + 2 => exact .inl (by simp [headsAfter, Playhead.top])

theorem beyond_headsAfter {heads : PerRole Playhead} {role : Role} {cycle cycles : Nat}
    {passing : Passing γ}
    (h : passing.Beyond (cycle + cycles) ((headsAfter heads cycles).get role)) :
    passing.Beyond cycle (heads.get role) := by
  unfold Passing.Beyond at h ⊢
  match cycles with
  | 0 => exact h
  | 1 =>
      simp only [headsAfter, PerRole.get_map] at h
      omega
  | cycles + 2 => omega

/-- What a pass goes past: what it hands out are the occurrences whose time is not over, and it counts
the others. -/
structure Pass.GoesPast (pass : Pass Extended γ) (role : Role) (now horizon : Extended)
    (passings : List (Passing γ)) : Prop where
  scheduled : pass.scheduled =
    (passings.filter fun passing => decide (now ≤ passing.time)).map (Passing.scheduled role)
  counted : pass.scheduled.length + pass.missed = passings.length
  within : ∀ passing ∈ passings, ¬ horizon < passing.time

theorem stretch_of_prefix {events due : List (NoteEvent Extended γ)} {first : Nat}
    (h : due <+: events.drop first) (cycle : Nat) (anchor : Extended) :
    stretch events cycle anchor first (first + due.length) =
      (due.zipIdx first).map (Passing.ofIndexed cycle anchor) := by
  rw [stretch, Nat.add_sub_cancel_left, ← List.prefix_iff_eq_take.mp h]

theorem not_lt_of_mem_within {events : List (NoteEvent Extended γ)} {index : Nat}
    {anchor horizon : Extended} {event : NoteEvent Extended γ}
    (h : event ∈ within events index anchor horizon) : ¬ horizon < anchor + event.start := by
  have hwithin := List.mem_takeWhile_imp h
  simpa using hwithin

theorem event_of_mem_zipIdx {events : List (NoteEvent Extended γ)} {first cycle : Nat}
    {anchor : Extended} {passing : Passing γ}
    (h : passing ∈ (events.zipIdx first).map (Passing.ofIndexed cycle anchor)) :
    passing.event ∈ events ∧ passing.time = anchor + passing.event.start := by
  obtain ⟨⟨event, index⟩, hmem, rfl⟩ := List.mem_map.mp h
  exact ⟨List.fst_mem_of_mem_zipIdx hmem, rfl⟩

/-- What is handed out of a stretch. -/
theorem filter_zipIdx (events : List (NoteEvent Extended γ)) (role : Role) (first cycle : Nat)
    (now anchor : Extended) :
    (((events.zipIdx first).map (Passing.ofIndexed cycle anchor)).filter
        fun passing => decide (now ≤ passing.time)).map (Passing.scheduled role) =
      (events.filter fun event => decide (now ≤ anchor + event.start)).map
        fun event => ⟨role, event, anchor + event.start⟩ := by
  conv_rhs => rw [← List.zipIdx_map_fst first events]
  rw [List.filter_map, List.filter_map, List.map_map, List.map_map]
  rfl

variable {now begun : Rat} {loopLength : Extended}

theorem pass_goesPast (role : Role) {events : List (NoteEvent Extended γ)} (head : Playhead)
    (horizon : Extended) (cycle : Nat) (hstarts : ∀ event ∈ events, 0 ≤ event.start)
    (hnext : finite now < finite begun + loopLength) :
    let passed := pass role events head (finite now) (finite begun) loopLength horizon
    passed.GoesPast role (finite now) horizon
        (head.passings passed.head events cycle (finite begun) loopLength) ∧
      head.Moves passed.head events.length := by
  unfold pass
  dsimp only
  generalize hdue : within events head.cursor (finite begun) horizon = due
  have hduePrefix : due <+: events.drop head.cursor := hdue ▸ List.takeWhile_prefix _
  generalize hearly : (if head.cursor + due.length = events.length ∧
    finite begun + loopLength ≤ horizon then
      within events head.carried (finite begun + loopLength) horizon else []) = early
  have hearlyPrefix : early <+: events.drop head.carried := by
    rw [← hearly]
    split
    · exact List.takeWhile_prefix _
    · exact List.nil_prefix
  have hearlyMem : ∀ event ∈ early,
      event ∈ within events head.carried (finite begun + loopLength) horizon ∧
        head.cursor + due.length = events.length := by
    intro event hevent
    rw [← hearly] at hevent
    split at hevent
    · next hboth => exact ⟨hevent, hboth.1⟩
    · exact absurd hevent List.not_mem_nil
  have hall : (early.filter fun event =>
      decide (finite now ≤ finite begun + loopLength + event.start)) = early := by
    rw [List.filter_eq_self]
    intro event hevent
    have hstart := hstarts event (List.mem_of_mem_drop (hearlyPrefix.subset hevent))
    exact decide_eq_true (le_iff.mpr (.inl (lt_add_of_nonneg hnext hstart)))
  refine ⟨⟨?_, ?_, ?_⟩, ⟨Nat.le_add_right _ _, Nat.le_add_right _ _, ?_⟩⟩
  · rw [Playhead.passings, stretch_of_prefix hduePrefix, stretch_of_prefix hearlyPrefix,
      List.filter_append, List.map_append, filter_zipIdx, filter_zipIdx, hall]
  · have htimely := List.length_filter_le
      (fun event => decide (finite now ≤ finite begun + event.start)) due
    rw [Playhead.passings, stretch_of_prefix hduePrefix, stretch_of_prefix hearlyPrefix]
    simp only [List.length_append, List.length_map, List.length_zipIdx]
    omega
  · intro passing hpassing
    rw [Playhead.passings, stretch_of_prefix hduePrefix, stretch_of_prefix hearlyPrefix] at hpassing
    rcases List.mem_append.mp hpassing with hnow | hlater
    · obtain ⟨hmem, htime⟩ := event_of_mem_zipIdx hnow
      rw [htime]
      exact not_lt_of_mem_within (hdue ▸ hmem)
    · obtain ⟨hmem, htime⟩ := event_of_mem_zipIdx hlater
      rw [htime]
      exact not_lt_of_mem_within (hearlyMem _ hmem).1
  · intro hfinished
    cases early with
    | nil =>
        refine hfinished.imp id fun hcursor => ?_
        exact hcursor.trans (Nat.le_add_right _ _)
    | cons event rest => exact .inr (hearlyMem event List.mem_cons_self).2.ge

/-- A tick and where it goes past the tracks. -/
structure Stride (γ : Type) where
  /-- The cycle after the turn of the loop. -/
  cycle : Nat
  now : Rat
  /-- The playheads after the turn of the loop. -/
  heads : PerRole Playhead
  tick : Tick Extended γ

def Stride.passings (stride : Stride γ) (composition : Composition Extended γ) (role : Role) :
    List (Passing γ) :=
  (stride.heads.get role).passings (stride.tick.scheduler.heads.get role)
    (composition.tracks.get role) stride.cycle stride.tick.report.anchor composition.loopLength

/-- A tick in some cycle, which moves on by the number of whole cycles that the tick reports. -/
def stride (scheduler : Scheduler Extended) (composition : Composition Extended γ) (cycle : Nat)
    (anchor : Extended) (now : Rat) : Stride γ :=
  let tick := scheduler.tick composition (finite now) anchor
  { cycle := cycle + tick.cycles.elim 0 Extended.whole
    now
    heads := tick.cycles.elim scheduler.heads fun cycles => nextCycle cycles scheduler.heads
    tick }

/-- Ticks at a list of clock times, each with the anchor that the one before it reported. -/
def strides (scheduler : Scheduler Extended) (composition : Composition Extended γ) :
    Nat → Extended → List Rat → List (Stride γ)
  | _, _, [] => []
  | cycle, anchor, now :: later =>
    let stride := scheduler.stride composition cycle anchor now
    stride :: stride.tick.scheduler.strides composition stride.cycle stride.tick.report.anchor later

theorem map_tick_strides (scheduler : Scheduler Extended) (composition : Composition Extended γ)
    (cycle : Nat) (anchor : Extended) (nows : List Rat) :
    (scheduler.strides composition cycle anchor nows).map Stride.tick =
      scheduler.ticks composition anchor (nows.map finite) := by
  induction nows generalizing scheduler cycle anchor with
  | nil => rfl
  | cons now later ih => exact congrArg (List.cons _) (ih ..)

/-- Where a tick stands before it goes on: as many cycles later as it has skipped. -/
structure Stride.Turns (stride : Stride γ) (scheduler : Scheduler Extended)
    (composition : Composition Extended γ) (cycle : Nat) (anchor begun : Rat) (cycles : Nat) :
    Prop where
  cycle_eq : stride.cycle = cycle + cycles
  heads_eq : stride.heads = headsAfter scheduler.heads cycles
  anchor_eq : stride.tick.report.anchor = finite begun
  begun_eq : ∀ length, composition.loopLength = finite length → begun = anchor + cycles * length
  lookahead_eq : stride.tick.scheduler.lookahead = scheduler.lookahead
  moves : ∀ role, (stride.heads.get role).Moves (stride.tick.scheduler.heads.get role)
    (composition.tracks.get role).length

/-- A tick accounts for what it goes past: it hands out the occurrences whose time is not over, counts
the others, and leaves what comes after the end of the lookahead. -/
structure Stride.Accounts (stride : Stride γ) (composition : Composition Extended γ)
    (lookahead : Extended) : Prop where
  scheduled : ∀ role,
    stride.tick.scheduled.filter (fun scheduled => decide (scheduled.role = role)) =
      ((stride.passings composition role).filter fun passing =>
        decide (finite stride.now ≤ passing.time)).map (Passing.scheduled role)
  dispatched : stride.tick.report.dispatched = stride.tick.scheduled.length
  counted : stride.tick.report.dispatched + stride.tick.report.missed =
    (PerRole.ofRole fun role => (stride.passings composition role).length).total
  within : ∀ role, ∀ passing ∈ stride.passings composition role,
    ¬ finite stride.now + lookahead < passing.time

theorem elim_nextCycle (heads : PerRole Playhead) (cycles : Nat) :
    (if cycles = 0 then none else some (finite cycles)).elim heads
      (fun cycles => nextCycle cycles heads) = headsAfter heads cycles := by
  by_cases hcycles : cycles = 0
  · simp [hcycles, headsAfter]
  · simp [hcycles, nextCycle_finite, nextCycle_eq]

theorem elim_whole (cycles : Nat) :
    (if cycles = 0 then none else some (finite cycles)).elim 0 Extended.whole = cycles := by
  by_cases hcycles : cycles = 0
  · simp [hcycles]
  · simp [hcycles, Extended.whole]

variable {composition : Composition Extended γ}

/-- A song without a loop stands still. -/
theorem stride_of_degenerate (hloop : composition.isDegenerate = true)
    (scheduler : Scheduler Extended) (cycle : Nat) (anchor now : Rat) :
    let stride := scheduler.stride composition cycle (finite anchor) now
    stride.Turns scheduler composition cycle anchor anchor 0 ∧
      stride.Accounts composition scheduler.lookahead := by
  have htick : scheduler.tick composition (finite now) (finite anchor) =
      ⟨scheduler, ⟨finite anchor, false, 0, 0⟩, none, []⟩ := by
    rw [tick, hloop, if_pos rfl]
  have hnothing (role : Role) : (scheduler.stride composition cycle (finite anchor) now).passings
      composition role = [] := by
    simp [Stride.passings, stride, htick]
  constructor
  · constructor <;> simp [stride, htick, headsAfter, Playhead.Moves.refl]
  · refine { scheduled := ?_, dispatched := ?_, counted := ?_, within := ?_ }
    · intro role
      rw [hnothing]
      simp [stride, htick]
    · simp [stride, htick]
    · simp only [hnothing]
      simp [stride, htick, PerRole.total, PerRole.ofRole]
    · intro role
      rw [hnothing]
      simp

/-- One tick over a song with a loop, at any clock time. -/
theorem stride_of_loop (hfromZero : composition.FromZero) (hloop : composition.isDegenerate = false)
    (scheduler : Scheduler Extended) (cycle : Nat) (anchor now : Rat) :
    let stride := scheduler.stride composition cycle (finite anchor) now
    (∃ begun cycles, stride.Turns scheduler composition cycle anchor begun cycles) ∧
      stride.Accounts composition scheduler.lookahead := by
  obtain ⟨cycles, begun, hturned, htick⟩ := tick_of_loop scheduler now anchor hloop
  generalize hpasses : passAll composition (headsAfter scheduler.heads cycles) (finite now)
    (finite begun) (finite now + scheduler.lookahead) = passes at htick
  have hpass (role : Role) := pass_goesPast role ((headsAfter scheduler.heads cycles).get role)
    (finite now + scheduler.lookahead) (cycle + cycles) (hfromZero role) hturned.next
  have hget (role : Role) : passes.get role = pass role (composition.tracks.get role)
      ((headsAfter scheduler.heads cycles).get role) (finite now) (finite begun)
      composition.loopLength (finite now + scheduler.lookahead) := by
    rw [← hpasses]
    exact PerRole.get_ofRole _ role
  simp only [← hget] at hpass
  have hpassings (role : Role) : (scheduler.stride composition cycle (finite anchor) now).passings
      composition role = ((headsAfter scheduler.heads cycles).get role).passings
        (passes.get role).head (composition.tracks.get role) (cycle + cycles) (finite begun)
        composition.loopLength := by
    simp only [Stride.passings, stride, htick, elim_whole, elim_nextCycle, PerRole.get_map]
  refine ⟨⟨begun, cycles, ?_⟩, ?_⟩
  · refine
      { cycle_eq := ?_, heads_eq := ?_, anchor_eq := ?_, begun_eq := hturned.begun_eq
        lookahead_eq := ?_, moves := ?_ }
    all_goals simp only [stride, htick, elim_whole, elim_nextCycle, PerRole.get_map]
    exact fun role => (hpass role).2
  · refine { scheduled := ?_, dispatched := ?_, counted := ?_, within := ?_ }
    · intro role
      have hfilter : (passes.toList.flatMap Pass.scheduled).filter
          (fun scheduled => decide (scheduled.role = role)) = (passes.get role).scheduled := by
        rw [← hpasses]
        exact filter_role_passAll _ _ _ _ role
      rw [hpassings]
      simp only [stride, htick]
      exact hfilter.trans (hpass role).1.scheduled
    · simp only [stride, htick]
    · simp only [hpassings, ← (hpass _).1.counted]
      simp only [stride, htick]
      exact length_add_total fun role => rfl
    · intro role
      rw [hpassings]
      exact (hpass role).1.within

/-- One tick, at any clock time. -/
theorem stride_goesPast (hfromZero : composition.FromZero) (scheduler : Scheduler Extended)
    (cycle : Nat) (anchor now : Rat) :
    let stride := scheduler.stride composition cycle (finite anchor) now
    (∃ begun cycles, stride.Turns scheduler composition cycle anchor begun cycles) ∧
      stride.Accounts composition scheduler.lookahead := by
  cases hloop : composition.isDegenerate with
  | true =>
      obtain ⟨hturns, haccounts⟩ := stride_of_degenerate hloop scheduler cycle anchor now
      exact ⟨⟨anchor, 0, hturns⟩, haccounts⟩
  | false => exact stride_of_loop hfromZero hloop scheduler cycle anchor now

/-- Over a run of ticks every track only ever goes on. -/
theorem strides_ordered (hfromZero : composition.FromZero) (role : Role)
    (scheduler : Scheduler Extended) (cycle : Nat) (anchor : Rat) (nows : List Rat)
    (hfinished : (scheduler.heads.get role).Finished (composition.tracks.get role).length) :
    let passings := (scheduler.strides composition cycle (finite anchor) nows).flatMap
      fun stride => stride.passings composition role
    passings.Pairwise Passing.Before ∧
      ∀ passing ∈ passings, passing.Beyond cycle (scheduler.heads.get role) := by
  induction nows generalizing scheduler cycle anchor with
  | nil => simp [strides]
  | cons now later ih =>
      obtain ⟨⟨begun, cycles, hturns⟩, _⟩ :=
        stride_goesPast hfromZero scheduler cycle anchor now
      have hmoves := hturns.moves role
      have hturned : ((scheduler.stride composition cycle (finite anchor) now).heads.get
          role).Finished (composition.tracks.get role).length := by
        rw [hturns.heads_eq]
        exact finished_headsAfter hfinished cycles
      have hback {passing : Passing γ} (h : passing.Beyond
          (scheduler.stride composition cycle (finite anchor) now).cycle
          ((scheduler.stride composition cycle (finite anchor) now).heads.get role)) :
          passing.Beyond cycle (scheduler.heads.get role) := by
        rw [hturns.cycle_eq, hturns.heads_eq] at h
        exact beyond_headsAfter h
      have hlater := ih (scheduler.stride composition cycle (finite anchor) now).tick.scheduler
        (scheduler.stride composition cycle (finite anchor) now).cycle begun
        (hmoves.finished hturned)
      rw [← hturns.anchor_eq] at hlater
      simp only [strides, List.flatMap_cons]
      refine ⟨List.pairwise_append.mpr ⟨Playhead.ordered_passings, hlater.1, ?_⟩, ?_⟩
      · intro earlier hearlier later hmem
        exact Passing.before_of_behind (Playhead.behind_of_mem_passings hearlier)
          (hlater.2 later hmem)
      · intro passing hpassing
        rcases List.mem_append.mp hpassing with hnow | hrest
        · exact hback (Playhead.beyond_of_mem_passings hturned hnow)
        · exact hback (hmoves.beyond (hlater.2 passing hrest))

/-- Every tick of a run accounts for what it goes past, in a cycle that begins where the loops before
it end. -/
theorem strides_account (hfromZero : composition.FromZero) (scheduler : Scheduler Extended)
    (origin : Rat) (cycle : Nat) (anchor : Rat) (nows : List Rat)
    (hanchor : ∀ length, composition.loopLength = finite length → anchor = origin + cycle * length) :
    ∀ stride ∈ scheduler.strides composition cycle (finite anchor) nows,
      stride.Accounts composition scheduler.lookahead ∧
        ∀ length, composition.loopLength = finite length →
          stride.tick.report.anchor = finite (origin + stride.cycle * length) := by
  induction nows generalizing scheduler cycle anchor with
  | nil => simp [strides]
  | cons now later ih =>
      obtain ⟨⟨begun, cycles, hturns⟩, haccounts⟩ :=
        stride_goesPast hfromZero scheduler cycle anchor now
      have hbegun : ∀ length, composition.loopLength = finite length →
          begun = origin + (scheduler.stride composition cycle (finite anchor) now).cycle * length := by
        intro length hlength
        rw [hturns.cycle_eq, hturns.begun_eq length hlength, hanchor length hlength]
        push_cast
        ring
      have hlater := ih (scheduler.stride composition cycle (finite anchor) now).tick.scheduler
        (scheduler.stride composition cycle (finite anchor) now).cycle begun hbegun
      rw [← hturns.anchor_eq, hturns.lookahead_eq] at hlater
      intro stride hstride
      rcases List.mem_cons.mp hstride with rfl | hmem
      · refine ⟨haccounts, fun length hlength => ?_⟩
        rw [hturns.anchor_eq, hbegun length hlength]
      · exact hlater stride hmem

/-- What a tick hands out of a track is among what it goes past. -/
theorem Stride.Accounts.passing_of_mem {stride : Stride γ} {lookahead : Extended}
    (h : stride.Accounts composition lookahead) {scheduled : Scheduled Extended γ}
    (hscheduled : scheduled ∈ stride.tick.scheduled) :
    ∃ passing ∈ stride.passings composition scheduled.role,
      scheduled.time = passing.time ∧ finite stride.now ≤ passing.time := by
  have hmem : scheduled ∈ stride.tick.scheduled.filter
      fun other => decide (other.role = scheduled.role) :=
    List.mem_filter.mpr ⟨hscheduled, decide_eq_true rfl⟩
  rw [h.scheduled scheduled.role] at hmem
  obtain ⟨passing, hpassing, heq⟩ := List.mem_map.mp hmem
  obtain ⟨hpassing, hnow⟩ := List.mem_filter.mp hpassing
  exact ⟨passing, hpassing, (congrArg Scheduled.time heq).symm, of_decide_eq_true hnow⟩

theorem Stride.Accounts.now_le {stride : Stride γ} {lookahead : Extended}
    (h : stride.Accounts composition lookahead) {scheduled : Scheduled Extended γ}
    (hscheduled : scheduled ∈ stride.tick.scheduled) : finite stride.now ≤ scheduled.time := by
  obtain ⟨passing, _, htime, hnow⟩ := h.passing_of_mem hscheduled
  rwa [htime]

/-- What a tick hands out lies between its clock time and the end of the lookahead. -/
theorem Stride.Accounts.time_between {stride : Stride γ} {lookahead : Extended}
    (h : stride.Accounts composition lookahead) (hlookahead : lookahead ≠ nan)
    {scheduled : Scheduled Extended γ} (hscheduled : scheduled ∈ stride.tick.scheduled) :
    finite stride.now ≤ scheduled.time ∧ scheduled.time ≤ finite stride.now + lookahead := by
  obtain ⟨passing, hpassing, htimed, hnow⟩ := h.passing_of_mem hscheduled
  have hend : finite stride.now + lookahead ≠ nan := by
    cases lookahead with
    | nan => exact absurd rfl hlookahead
    | finite x => simp
    | infinite negative => simp
  have htime : passing.time ≠ nan := by
    rintro heq
    rw [heq, le_iff] at hnow
    simp at hnow
  rw [htimed]
  exact ⟨hnow, le_of_not_lt hend htime (h.within _ _ hpassing)⟩

/-- At most once under any clock. -/
theorem strides_at_most_once [Scalar γ] [Tuning Extended] (id : Nat) (texts : PerRole String)
    (scheduler opening : Scheduler Extended)
    (hopening : opening = scheduler.rewind ∨ ∃ (sought : Composition Extended γ)
      (position : Extended), opening = scheduler.seek sought position)
    (origin : Rat) (nows : List Rat) :
    let composition : Composition Extended γ := Composition.compile id texts
    let strides := opening.strides composition 0 (finite origin) nows
    strides.map Stride.tick = opening.ticks composition (finite origin) (nows.map finite) ∧
      (∀ role, (strides.flatMap fun stride => stride.passings composition role).Pairwise
        Passing.Before) ∧
      ∀ stride ∈ strides, stride.Accounts composition scheduler.lookahead ∧
        (∀ length, composition.loopLength = finite length →
          stride.tick.report.anchor = finite (origin + stride.cycle * length)) ∧
        (scheduler.lookahead ≠ nan → ∀ scheduled ∈ stride.tick.scheduled,
          finite stride.now ≤ scheduled.time ∧
            scheduled.time ≤ finite stride.now + scheduler.lookahead) := by
  intro composition strides
  have hfromZero : composition.FromZero := Composition.fromZero_compile id texts
  have hcarried (role : Role) : (opening.heads.get role).carried = 0 := by
    rcases hopening with rfl | ⟨sought, position, rfl⟩
    · simp [rewind, Playhead.top]
    · simp [seek]
  have hlookahead : opening.lookahead = scheduler.lookahead := by
    rcases hopening with rfl | ⟨sought, position, rfl⟩
    · rfl
    · rfl
  have haccount := strides_account hfromZero opening origin 0 origin nows (by simp)
  rw [hlookahead] at haccount
  refine ⟨map_tick_strides .., ?_, ?_⟩
  · intro role
    exact (strides_ordered hfromZero role opening 0 origin nows (.inl (hcarried role))).1
  · intro stride hstride
    obtain ⟨haccounts, hanchor⟩ := haccount stride hstride
    exact ⟨haccounts, hanchor, fun hnumber scheduled => haccounts.time_between hnumber⟩

open Octaves in
/-- From a position inside the first cycle the clock turns the loop, goes back and then stalls for more
than two loops, over a song whose lookahead is longer than its loop. -/
theorem strides_at_most_once_back_and_on :
    let composition : Composition Extended Rat := .compile 0 ⟨"a8 r a", "", "", "k"⟩
    let scheduler := Scheduler.initial (finite (3 / 2))
    let strides := (scheduler.seek composition (finite (1 / 2))).strides composition 0 (finite 10)
      [10, 12, 11, 16]
    let passings := strides.flatMap fun stride => stride.passings composition .lead
    passings.Pairwise Passing.Before ∧
      passings.map (fun passing => (passing.cycle, passing.index)) =
        [(0, 1), (1, 0), (1, 1), (2, 0), (2, 1), (4, 0), (4, 1), (5, 0), (5, 1)] ∧
      strides.map (fun stride => (stride.tick.report.dispatched, stride.tick.report.missed)) =
        [(3, 0), (4, 0), (0, 0), (3, 3)] ∧
      ∀ stride ∈ strides, ∀ scheduled ∈ stride.tick.scheduled,
        finite stride.now ≤ scheduled.time ∧ scheduled.time ≤ finite stride.now + finite (3 / 2) := by
  intro composition scheduler strides passings
  have hrun := strides_at_most_once 0 ⟨"a8 r a", "", "", "k"⟩ scheduler
    (scheduler.seek composition (finite (1 / 2))) (.inr ⟨composition, finite (1 / 2), rfl⟩) 10
    [10, 12, 11, 16]
  refine ⟨hrun.2.1 .lead, by decide +kernel, by decide +kernel, ?_⟩
  intro stride hstride
  exact (hrun.2.2 stride hstride).2.2 (by decide)

end Scheduler

end Chiptune
