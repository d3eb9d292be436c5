import Chiptune.Proofs.ExactlyOnce
import Chiptune.Proofs.ExtendedTime

/-!
Clock readings that repeat or go back.

A tick leaves every track caught up with its lookahead: nothing that is still to be handed out comes
up to the end of it.  A tick at no later a clock time looks no further, and so finds nothing.

Main statement: after a tick, ticks at its clock time or before it do nothing, whatever state the
first of them came from.
-/
namespace Chiptune

open Extended

variable {γ : Type}

/-- A tick that does nothing: no cycle ends, and no event is handed out or missed. -/
def Tick.nothing {τ : Type} (scheduler : Scheduler τ) (anchor : τ) : Tick τ γ :=
  ⟨scheduler, ⟨anchor, false, 0, 0⟩, none, []⟩

namespace Extended

variable {earlier later : Rat} {length time : Extended}

/-- What lies beyond a later end lies beyond an earlier one. -/
theorem add_lt_of_le (hle : earlier ≤ later) (h : finite later + length < time) :
    finite earlier + length < time := by
  cases length with
  | finite x =>
      cases time with
      | finite y =>
          rw [finite_add_finite, finite_lt_finite] at h ⊢
          linarith
      | infinite negative => exact h
      | nan => exact h
  | infinite negative => exact h
  | nan => exact h

/-- What comes by an earlier end comes by a later one. -/
theorem le_add_of_le (hle : earlier ≤ later) (h : time ≤ finite earlier + length) :
    time ≤ finite later + length := by
  cases length with
  | finite x =>
      rw [finite_add_finite] at h ⊢
      exact Extended.le_trans h (finite_le_finite.mpr (by linarith))
  | infinite negative => exact h
  | nan => exact h

end Extended

namespace Scheduler

section

variable {τ : Type} [Scalar τ] {events : List (NoteEvent τ γ)} {index : Nat} {anchor horizon : τ}

theorem within_eq_nil_iff :
    within events index anchor horizon = [] ↔
      ∀ event ∈ events[index]?, horizon < anchor + event.start := by
  unfold within
  cases hrest : events.drop index with
  | nil => simp [← List.head?_drop, hrest]
  | cons event rest => simp [← List.head?_drop, hrest, List.takeWhile_cons]

/-- Behind what comes by the horizon, nothing does. -/
theorem within_add_length (events : List (NoteEvent τ γ)) (index : Nat) (anchor horizon : τ) :
    within events (index + (within events index anchor horizon).length) anchor horizon = [] := by
  rw [within, ← List.drop_drop, within, drop_length_takeWhile]
  exact List.takeWhile_eq_nil_iff.mpr fun hpos => List.dropWhile_get_zero_not _ _ hpos

end

end Scheduler

namespace Playhead

/-- A playhead has handed out all that comes by a horizon: of its cycle, and of the next where its
cycle is finished and the next begins by then. -/
structure CaughtUp {τ : Type} [Scalar τ] (head : Playhead) (events : List (NoteEvent τ γ))
    (anchor loopLength horizon : τ) : Prop where
  due : Scheduler.within events head.cursor anchor horizon = []
  early : head.cursor = events.length → anchor + loopLength ≤ horizon →
    Scheduler.within events head.carried (anchor + loopLength) horizon = []

/-- What is caught up with an end of the lookahead is so with an earlier one. -/
theorem CaughtUp.earlier {head : Playhead} {events : List (NoteEvent Extended γ)}
    {anchor loopLength lookahead : Extended} {now again : Rat} (hagain : again ≤ now)
    (h : head.CaughtUp events anchor loopLength (finite now + lookahead)) :
    head.CaughtUp events anchor loopLength (finite again + lookahead) := by
  have hwithin {index : Nat} {anchor : Extended}
      (hnone : Scheduler.within events index anchor (finite now + lookahead) = []) :
      Scheduler.within events index anchor (finite again + lookahead) = [] := by
    rw [Scheduler.within_eq_nil_iff] at hnone ⊢
    exact fun event hevent => add_lt_of_le hagain (hnone event hevent)
  exact ⟨hwithin h.due, fun hend hnext => hwithin (h.early hend (le_add_of_le hagain hnext))⟩

end Playhead

namespace Scheduler

section

variable {τ : Type} [Scalar τ]

/-- A pass catches up. -/
theorem caughtUp_pass (role : Role) (events : List (NoteEvent τ γ)) (head : Playhead)
    (now anchor loopLength horizon : τ) :
    (pass role events head now anchor loopLength horizon).head.CaughtUp events anchor loopLength
      horizon := by
  unfold pass
  refine ⟨within_add_length .., fun hend hnext => ?_⟩
  dsimp only at hend ⊢
  rw [if_pos ⟨hend, hnext⟩]
  exact within_add_length ..

/-- A pass over a track that has caught up does nothing. -/
theorem pass_of_caughtUp {events : List (NoteEvent τ γ)} {head : Playhead}
    {anchor loopLength horizon : τ} (h : head.CaughtUp events anchor loopLength horizon) (role : Role)
    (now : τ) : pass role events head now anchor loopLength horizon = ⟨head, [], 0⟩ := by
  have hearly : (if head.cursor = events.length ∧ anchor + loopLength ≤ horizon then
      within events head.carried (anchor + loopLength) horizon else []) = [] := by
    split
    · next hboth => exact h.early hboth.1 hboth.2
    · rfl
  simp [pass, h.due, hearly]

end

/-- A scheduler has nothing to do at a clock time, in a cycle that began at an anchor: the cycle runs
still, and every track has caught up with the lookahead. -/
structure Rests (scheduler : Scheduler Extended) (composition : Composition Extended γ)
    (anchor now : Rat) : Prop where
  runs : finite now < finite anchor + composition.loopLength
  caughtUp : ∀ role, (scheduler.heads.get role).CaughtUp (composition.tracks.get role)
    (finite anchor) composition.loopLength (finite now + scheduler.lookahead)

variable {scheduler : Scheduler Extended} {composition : Composition Extended γ}
  {anchor now again : Rat}

theorem Rests.earlier (h : scheduler.Rests composition anchor now) (hagain : again ≤ now) :
    scheduler.Rests composition anchor again where
  runs := by
    rcases hagain.eq_or_lt with rfl | hlt
    · exact h.runs
    · exact Extended.lt_trans (finite_lt_finite.mpr hlt) h.runs
  caughtUp role := (h.caughtUp role).earlier hagain

/-- A cycle that runs has not passed. -/
theorem cyclesPassed_of_runs {loopLength : Extended}
    (h : finite now < finite anchor + loopLength) :
    cyclesPassed loopLength (finite now) (finite anchor) = none := by
  refine if_neg ?_
  cases loopLength with
  | finite length =>
      rw [finite_add_finite, finite_lt_finite] at h
      rw [finite_sub_finite, finite_le_finite, not_le]
      linarith
  | infinite negative =>
      obtain rfl : negative = false := finite_lt_infinite.mp h
      simp [le_iff]
  | nan => exact absurd h (not_lt_nan _)

/-- A tick that finds nothing to do does nothing. -/
theorem Rests.tick (h : scheduler.Rests composition anchor now) :
    scheduler.tick composition (finite now) (finite anchor) =
      .nothing scheduler (finite anchor) := by
  have hpass (role : Role) := pass_of_caughtUp (h.caughtUp role) role (finite now)
  unfold Scheduler.tick
  split
  · rfl
  · simp only [cyclesPassed_of_runs h.runs, Option.elim_none, passAll, hpass]
    rfl

/-- A tick leaves nothing to do at its clock time. -/
theorem rests_tick (hloop : composition.isDegenerate = false) (scheduler : Scheduler Extended)
    (now anchor : Rat) :
    let tick := scheduler.tick composition (finite now) (finite anchor)
    ∃ begun, tick.report.anchor = finite begun ∧ tick.scheduler.Rests composition begun now := by
  obtain ⟨cycles, begun, hturned, htick⟩ := tick_of_loop scheduler now anchor hloop
  intro tick
  refine ⟨begun, congrArg (fun tick => tick.report.anchor) htick, hturned.next, fun role => ?_⟩
  have hhead : tick.scheduler.heads.get role =
      (pass role (composition.tracks.get role)
        ((headsAfter scheduler.heads cycles).get role) (finite now) (finite begun)
        composition.loopLength (finite now + scheduler.lookahead)).head := by
    simp only [tick, htick, PerRole.get_map, passAll, PerRole.get_ofRole]
  have hlookahead : tick.scheduler.lookahead = scheduler.lookahead := by
    simp only [tick, htick]
  rw [hhead, hlookahead]
  exact caughtUp_pass ..

/-- One more tick. -/
theorem tick_tick (composition : Composition Extended γ) (scheduler : Scheduler Extended)
    (anchor : Rat) (hagain : again ≤ now) :
    let tick := scheduler.tick composition (finite now) (finite anchor)
    tick.scheduler.tick composition (finite again) tick.report.anchor =
      .nothing tick.scheduler tick.report.anchor := by
  intro tick
  cases hloop : composition.isDegenerate with
  | true =>
      rw [Scheduler.tick, hloop, if_pos rfl]
      rfl
  | false =>
      obtain ⟨begun, hbegun, hrests⟩ := rests_tick hloop scheduler now anchor
      rw [hbegun]
      exact (hrests.earlier hagain).tick

/-- Clock readings that repeat or go back.  A song is ticked at some clock time, with the playheads, the
lookahead and the anchor anything.  Ticks that follow at that time or before it, each with the anchor
that the one before it reported, do nothing, however many they are: no cycle ends, nothing is handed
out or missed, and the anchor and the playheads stay. -/
theorem ticks_stale (composition : Composition Extended γ) (scheduler : Scheduler Extended)
    (anchor now : Rat) (later : List Rat) (hlater : ∀ again ∈ later, again ≤ now) :
    let tick := scheduler.tick composition (finite now) (finite anchor)
    tick.scheduler.ticks composition tick.report.anchor (later.map finite) =
      later.map fun _ => .nothing tick.scheduler tick.report.anchor := by
  intro tick
  induction later with
  | nil => rfl
  | cons again later ih =>
      have hagain : tick.scheduler.tick composition (finite again) tick.report.anchor =
          .nothing tick.scheduler tick.report.anchor :=
        tick_tick composition scheduler anchor (hlater again List.mem_cons_self)
      have hrest := ih fun other hother => hlater other (List.mem_cons_of_mem again hother)
      simp only [List.map_cons, ticks, hagain]
      exact congrArg (List.cons _) hrest

open Octaves in
/-- A tick turns the loop and then reaches, at the very end of the lookahead, the next turn: on one track
as it comes to the end of the cycle, on another from there. -/
theorem ticks_stale_at_turn :
    let composition : Composition Extended Rat := .compile 0 ⟨"a8 r a", "", "", "k"⟩
    let scheduler : Scheduler Extended := ⟨finite (1 / 4), ⟨⟨2, 1⟩, .top, .top, ⟨1, 1⟩⟩⟩
    let tick := scheduler.tick composition (finite (49 / 4)) (finite 10)
    (∀ again ∈ [49 / 4, 12, (0 : Rat)], again ≤ 49 / 4) ∧
      (tick.report.wrapped = true ∧ tick.report.dispatched = 2 ∧ tick.report.missed = 1) ∧
      tick.scheduler.ticks composition tick.report.anchor [finite (49 / 4), finite 12, finite 0] =
        List.replicate 3 (.nothing tick.scheduler tick.report.anchor) := by
  intro composition scheduler tick
  have hlater : ∀ again ∈ [49 / 4, 12, (0 : Rat)], again ≤ 49 / 4 := by decide +kernel
  exact ⟨hlater, by decide +kernel,
    ticks_stale composition scheduler 10 (49 / 4) [49 / 4, 12, 0] hlater⟩

end Scheduler

end Chiptune
