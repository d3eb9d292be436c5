import Chiptune.Composition

/-!
The scheduler walks the four tracks of a composition in step with the clock and hands each event out
shortly before it is due.

Every track has a playhead: a cursor into the current cycle and a count of events of the next cycle
that were handed out early, when the lookahead reached past the end of the loop.  As the loop comes
round, each cursor starts from that count, so an event on the loop boundary plays once, as part of
the new cycle.
-/
namespace Chiptune

/-- Where a track stands: the next event of this cycle, and how many events of the next cycle have
been handed out. -/
structure Playhead where
  cursor : Nat
  carried : Nat
deriving DecidableEq, Repr

def Playhead.top : Playhead := ⟨0, 0⟩

/-- An event together with the part that plays it and its clock time. -/
structure Scheduled (τ γ : Type) where
  role : Role
  event : NoteEvent τ γ
  time : τ

structure Report (τ : Type) where
  /-- Clock time at which the cycle began that is current after the tick. -/
  anchor : τ
  /-- Whether the loop came round. -/
  wrapped : Bool
  dispatched : Nat
  /-- Events that were in the past when they were reached. -/
  missed : Nat
deriving Repr

structure Scheduler (τ : Type) where
  /-- Seconds before its time at which an event is handed out. -/
  lookahead : τ
  heads : PerRole Playhead
deriving Repr

structure Tick (τ γ : Type) where
  scheduler : Scheduler τ
  report : Report τ
  /-- How many cycles ended, if any did. -/
  cycles : Option τ
  /-- The events handed out, in order. -/
  scheduled : List (Scheduled τ γ)

namespace Scheduler

variable {τ γ : Type} [Scalar τ]

def defaultLookahead : τ := 0.1

def initial (lookahead : τ) : Scheduler τ := ⟨lookahead, .replicate .top⟩

def rewind (scheduler : Scheduler τ) : Scheduler τ :=
  { scheduler with heads := .replicate .top }

/-- Points every cursor at the first event that starts at a position or after it. -/
def seek (scheduler : Scheduler τ) (composition : Composition τ γ) (position : τ) : Scheduler τ :=
  let cursor (events : List (NoteEvent τ γ)) : Nat :=
    (events.takeWhile fun event => event.start < position).length
  { scheduler with heads := composition.tracks.map fun events => ⟨cursor events, 0⟩ }

/-- Whole cycles that have passed since the anchor; none while the first is still running. -/
def cyclesPassed (loopLength now anchor : τ) : Option τ :=
  let elapsed := now - anchor
  if loopLength ≤ elapsed then some (Scalar.atLeast 1 (Scalar.floor (elapsed / loopLength)))
  else none

/-- Playheads after some cycles have ended.  What was handed out early belongs to the cycle directly
after the one that ended, and to no later one. -/
def nextCycle (cycles : τ) (heads : PerRole Playhead) : PerRole Playhead :=
  if cycles == 1 then heads.map fun head => ⟨head.carried, 0⟩ else .replicate .top

/-- The events from an index on that come before the end of the lookahead, in a cycle that begins at
an anchor. -/
def within (events : List (NoteEvent τ γ)) (index : Nat) (anchor horizon : τ) :
    List (NoteEvent τ γ) :=
  (events.drop index).takeWhile fun event => !decide (horizon < anchor + event.start)

/-- What one tick does to one track. -/
structure Pass (τ γ : Type) where
  head : Playhead
  scheduled : List (Scheduled τ γ)
  missed : Nat

/-- Hands out what is due of a track: the rest of this cycle up to the horizon, then, if that
finished the cycle, the beginning of the next.  Events already in the past are only counted. -/
def pass (role : Role) (events : List (NoteEvent τ γ)) (head : Playhead)
    (now anchor loopLength horizon : τ) : Pass τ γ :=
  let next := anchor + loopLength
  let due := within events head.cursor anchor horizon
  let timely := due.filter fun event => decide (now ≤ anchor + event.start)
  let cursor := head.cursor + due.length
  let early :=
    if cursor = events.length ∧ next ≤ horizon then within events head.carried next horizon else []
  { head := ⟨cursor, head.carried + early.length⟩
    scheduled := timely.map (fun event => ⟨role, event, anchor + event.start⟩) ++
      early.map (fun event => ⟨role, event, next + event.start⟩)
    missed := due.length - timely.length }

/-- Hands out what is due of all tracks. -/
def passAll (composition : Composition τ γ) (heads : PerRole Playhead)
    (now anchor horizon : τ) : PerRole (Pass τ γ) :=
  .ofRole fun role =>
    pass role (composition.tracks.get role) (heads.get role) now anchor composition.loopLength
      horizon

/-- Moves on to a clock time, in a cycle that began at an anchor.  Cycles that have ended are skipped
in one step; then each track hands out what comes within the lookahead. -/
def tick (scheduler : Scheduler τ) (composition : Composition τ γ) (now anchor : τ) : Tick τ γ :=
  if composition.isDegenerate then
    ⟨scheduler, ⟨anchor, false, 0, 0⟩, none, []⟩
  else
    let cycles := cyclesPassed composition.loopLength now anchor
    let anchor := cycles.elim anchor fun cycles => anchor + cycles * composition.loopLength
    let heads := cycles.elim scheduler.heads fun cycles => nextCycle cycles scheduler.heads
    let passes := passAll composition heads now anchor (now + scheduler.lookahead)
    let scheduled := passes.toList.flatMap Pass.scheduled
    { scheduler := { scheduler with heads := passes.map Pass.head }
      report := ⟨anchor, cycles.isSome, scheduled.length, (passes.map Pass.missed).total⟩
      cycles
      scheduled }

end Scheduler

end Chiptune
