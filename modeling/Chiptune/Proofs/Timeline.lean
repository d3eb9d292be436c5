import Chiptune.Proofs.Cut
import Chiptune.Proofs.WellTimed
import Chiptune.Scheduler

/-!
The looped time line of a track: every event of every cycle, with its musical time, which counts
seconds of playing from the top of the first cycle.

A playhead divides the first cycles of the time line into the occurrences handed out and those
ahead.
-/
namespace Chiptune

variable {γ : Type}

/-- One occurrence of an event: the cycle it falls into, its place in the track, and the event. -/
structure Occurrence (γ : Type) where
  cycle : Nat
  index : Nat
  event : NoteEvent Rat γ

namespace Composition

variable (composition : Composition Rat γ)

def timeOf (o : Occurrence γ) : Rat := o.cycle * composition.loopLength + o.event.start

/-- The occurrences of one cycle of a track. -/
def cycleOf (role : Role) (cycle : Nat) : List (Occurrence γ) :=
  (composition.tracks.get role).mapIdx fun index event => ⟨cycle, index, event⟩

/-- The occurrences of the first cycles of a track, in order. -/
def timeline (role : Role) (cycles : Nat) : List (Occurrence γ) :=
  (List.range cycles).flatMap (composition.cycleOf role)

variable {composition} {role : Role}

@[simp] theorem length_cycleOf (cycle : Nat) :
    (composition.cycleOf role cycle).length = (composition.tracks.get role).length := by
  simp [cycleOf]

@[simp] theorem map_event_cycleOf (cycle : Nat) :
    (composition.cycleOf role cycle).map Occurrence.event = composition.tracks.get role := by
  apply List.ext_getElem <;> simp [cycleOf]

theorem mem_cycleOf {cycle : Nat} {o : Occurrence γ} :
    o ∈ composition.cycleOf role cycle ↔
      o.cycle = cycle ∧ (composition.tracks.get role)[o.index]? = some o.event := by
  simp only [cycleOf, List.mem_mapIdx, List.getElem?_eq_some_iff]
  constructor
  · rintro ⟨i, hi, rfl⟩
    exact ⟨rfl, hi, rfl⟩
  · rintro ⟨rfl, hi, hevent⟩
    exact ⟨o.index, hi, by rw [hevent]⟩

theorem event_mem_of_mem_cycleOf {cycle : Nat} {o : Occurrence γ}
    (ho : o ∈ composition.cycleOf role cycle) : o.event ∈ composition.tracks.get role :=
  List.mem_of_getElem? (mem_cycleOf.mp ho).2

/-- Every event occurs once in every cycle. -/
theorem mem_timeline {cycles : Nat} {o : Occurrence γ} :
    o ∈ composition.timeline role cycles ↔
      o.cycle < cycles ∧ (composition.tracks.get role)[o.index]? = some o.event := by
  simp only [timeline, List.mem_flatMap, List.mem_range, mem_cycleOf]
  constructor
  · rintro ⟨cycle, hcycle, rfl, hevent⟩
    exact ⟨hcycle, hevent⟩
  · rintro ⟨hcycle, hevent⟩
    exact ⟨o.cycle, hcycle, rfl, hevent⟩

@[simp] theorem timeline_zero : composition.timeline role 0 = [] := rfl

theorem timeline_succ (cycles : Nat) :
    composition.timeline role (cycles + 1) =
      composition.timeline role cycles ++ composition.cycleOf role cycles := by
  simp [timeline, List.range_succ]

theorem nodup_cycleOf (cycle : Nat) : (composition.cycleOf role cycle).Nodup := by
  rw [List.nodup_iff_getElem?_ne_getElem?]
  intro i j hij hj heq
  have hi : i < (composition.cycleOf role cycle).length := hij.trans hj
  rw [List.getElem?_eq_getElem hi, List.getElem?_eq_getElem hj] at heq
  have hindex := congrArg Occurrence.index (Option.some.inj heq)
  simp only [cycleOf, List.getElem_mapIdx] at hindex
  exact absurd hindex hij.ne

/-- No occurrence is listed twice. -/
theorem nodup_timeline (cycles : Nat) : (composition.timeline role cycles).Nodup := by
  induction cycles with
  | zero => simp
  | succ cycles ih =>
      rw [timeline_succ, List.nodup_append']
      refine ⟨ih, nodup_cycleOf cycles, ?_⟩
      intro o hbefore hlast
      have hlt := (mem_timeline.mp hbefore).1
      have heq := (mem_cycleOf.mp hlast).1
      omega

namespace WellTimed

variable (h : composition.WellTimed)
include h

theorem le_timeOf {cycle : Nat} {o : Occurrence γ} (ho : o ∈ composition.cycleOf role cycle) :
    cycle * composition.loopLength ≤ composition.timeOf o := by
  have hstart := h.nonneg role o.event (event_mem_of_mem_cycleOf ho)
  rw [timeOf, (mem_cycleOf.mp ho).1]
  exact le_add_of_nonneg_right hstart

theorem timeOf_le {cycle : Nat} {o : Occurrence γ} (ho : o ∈ composition.cycleOf role cycle) :
    composition.timeOf o ≤ (cycle + 1) * composition.loopLength := by
  have hstart := h.bounded role o.event (event_mem_of_mem_cycleOf ho)
  rw [timeOf, (mem_cycleOf.mp ho).1]
  linarith

theorem timeOf_nonneg (hloop : 0 < composition.loopLength) {cycles : Nat} {o : Occurrence γ}
    (ho : o ∈ composition.timeline role cycles) : 0 ≤ composition.timeOf o := by
  have hmem : o ∈ composition.cycleOf role o.cycle :=
    mem_cycleOf.mpr ⟨rfl, (mem_timeline.mp ho).2⟩
  have hle := h.le_timeOf hmem
  exact (by positivity : 0 ≤ o.cycle * composition.loopLength).trans hle

theorem sorted_cycleOf (cycle : Nat) :
    (composition.cycleOf role cycle).Pairwise fun a b =>
      composition.timeOf a ≤ composition.timeOf b := by
  have hevents : (composition.cycleOf role cycle).Pairwise fun a b =>
      a.event.start ≤ b.event.start := by
    rw [← List.pairwise_map (f := Occurrence.event) (R := fun a b => a.start ≤ b.start),
      map_event_cycleOf]
    exact h.sorted role
  apply hevents.imp_of_mem
  intro a b ha hb hab
  rw [timeOf, timeOf, (mem_cycleOf.mp ha).1, (mem_cycleOf.mp hb).1]
  linarith

/-- Occurrences are listed in the order of their musical times. -/
theorem sorted_timeline (hloop : 0 < composition.loopLength) (cycles : Nat) :
    (composition.timeline role cycles).Pairwise fun a b =>
      composition.timeOf a ≤ composition.timeOf b := by
  induction cycles with
  | zero => simp
  | succ cycles ih =>
      rw [timeline_succ, List.pairwise_append]
      refine ⟨ih, h.sorted_cycleOf cycles, ?_⟩
      intro a ha b hb
      obtain ⟨hlt, hevent⟩ := mem_timeline.mp ha
      have hcycles : ((a.cycle + 1 : Nat) : Rat) ≤ cycles := Nat.cast_le.mpr hlt
      calc composition.timeOf a
          ≤ (a.cycle + 1) * composition.loopLength := h.timeOf_le (mem_cycleOf.mpr ⟨rfl, hevent⟩)
        _ ≤ cycles * composition.loopLength := by
          push_cast at hcycles
          exact mul_le_mul_of_nonneg_right hcycles hloop.le
        _ ≤ composition.timeOf b := h.le_timeOf hb

/-- What lies before a musical time is found in the cycles up to it. -/
theorem filter_timeline_eq (hloop : 0 < composition.loopLength) {p : Occurrence γ → Bool}
    {limit : Rat} (hp : ∀ o, p o = true → composition.timeOf o < limit) {cycles more : Nat}
    (hlimit : limit ≤ cycles * composition.loopLength) (hle : cycles ≤ more) :
    (composition.timeline role more).filter p = (composition.timeline role cycles).filter p := by
  induction more, hle using Nat.le_induction with
  | base => rfl
  | succ more hle ih =>
      have hlast : (composition.cycleOf role more).filter p = [] := by
        rw [List.filter_eq_nil_iff]
        intro o ho hpo
        have hcast : (cycles : Rat) ≤ more := Nat.cast_le.mpr hle
        have hmore : cycles * composition.loopLength ≤ more * composition.loopLength :=
          mul_le_mul_of_nonneg_right hcast hloop.le
        linarith [hp o hpo, h.le_timeOf ho]
      rw [timeline_succ, List.filter_append, hlast, List.append_nil, ih]

end WellTimed

end Composition

/-- A playhead inside its track, with early notes only once its cycle is finished. -/
structure Playhead.Valid (head : Playhead) (events : Nat) : Prop where
  cursor_le : head.cursor ≤ events
  carried_le : head.carried ≤ events
  finished : head.carried = 0 ∨ head.cursor = events

theorem Playhead.valid_top (events : Nat) : Playhead.top.Valid events :=
  ⟨Nat.zero_le _, Nat.zero_le _, .inl rfl⟩

namespace Composition

variable (composition : Composition Rat γ) (role : Role) (cycle : Nat) (head : Playhead)

/-- What a playhead in some cycle has handed out since the first cycle began. -/
def handedOut : List (Occurrence γ) :=
  composition.timeline role cycle ++ (composition.cycleOf role cycle).take head.cursor ++
    (composition.cycleOf role (cycle + 1)).take head.carried

/-- What is left of the cycle of a playhead and of the next cycle. -/
def ahead : List (Occurrence γ) :=
  (composition.cycleOf role cycle).drop head.cursor ++
    (composition.cycleOf role (cycle + 1)).drop head.carried

variable {composition role cycle head}

theorem handedOut_append_ahead (hvalid : head.Valid (composition.tracks.get role).length) :
    composition.handedOut role cycle head ++ composition.ahead role cycle head =
      composition.timeline role (cycle + 2) := by
  rw [timeline_succ, timeline_succ, handedOut, ahead]
  rcases hvalid.finished with hcarried | hcursor
  · rw [hcarried, List.take_zero, List.drop_zero, List.append_nil, List.append_assoc,
      ← List.append_assoc (List.take _ _), List.take_append_drop, List.append_assoc]
  · have hall : (composition.cycleOf role cycle).length ≤ head.cursor := by simp [hcursor]
    simp [List.take_of_length_le hall, List.drop_eq_nil_of_le hall]

theorem handedOut_top : composition.handedOut role cycle .top = composition.timeline role cycle := by
  simp [handedOut, Playhead.top]

/-- A playhead that has finished its cycle goes on in the next. -/
theorem handedOut_next (hcursor : head.cursor = (composition.tracks.get role).length) :
    composition.handedOut role (cycle + 1) ⟨head.carried, 0⟩ =
      composition.handedOut role cycle head := by
  have hall : (composition.cycleOf role cycle).length ≤ head.cursor := by simp [hcursor]
  simp [handedOut, timeline_succ, List.take_of_length_le hall]

theorem mem_ahead_next (hcursor : head.cursor = (composition.tracks.get role).length)
    {o : Occurrence γ} (ho : o ∈ composition.ahead role (cycle + 1) ⟨head.carried, 0⟩) :
    o ∈ composition.ahead role cycle head ∨ o ∈ composition.cycleOf role (cycle + 2) := by
  have hall : (composition.cycleOf role cycle).length ≤ head.cursor := by simp [hcursor]
  simpa [ahead, List.drop_eq_nil_of_le hall] using ho

theorem WellTimed.sorted_ahead (h : composition.WellTimed) (hloop : 0 < composition.loopLength)
    (hvalid : head.Valid (composition.tracks.get role).length) :
    (composition.ahead role cycle head).Pairwise fun a b =>
      composition.timeOf a ≤ composition.timeOf b := by
  have hsorted : (composition.timeline role (cycle + 2)).Pairwise fun a b =>
      composition.timeOf a ≤ composition.timeOf b := h.sorted_timeline hloop (cycle + 2)
  rw [← handedOut_append_ahead hvalid, List.pairwise_append] at hsorted
  exact hsorted.2.1

end Composition

end Chiptune
