import Chiptune.Proofs.Tick
import Chiptune.Transport

/-!
Where playing resumes after a pause: the position folded into the loop, and the playheads that
seeking it gives.

Main statement: after a seek to the folded position the scheduler has handed out what lies before the
musical time of the pause, no more and no less, and is ready for a tick.
-/
namespace Chiptune

variable {γ : Type}

namespace Composition

/-- The occurrences of a track before a musical time, in order. -/
def past (composition : Composition Rat γ) (role : Role) (time : Rat) : List (Occurrence γ) :=
  (composition.timeline role (⌊time / composition.loopLength⌋₊ + 1)).filter fun o =>
    decide (composition.timeOf o < time)

variable {composition : Composition Rat γ} {role : Role} {time : Rat}

/-- Any number of cycles that reaches up to the musical time will do. -/
theorem WellTimed.past_eq (h : composition.WellTimed) (hloop : 0 < composition.loopLength)
    {cycles : Nat} (hcycles : time ≤ cycles * composition.loopLength) :
    composition.past role time = (composition.timeline role cycles).filter fun o =>
      decide (composition.timeOf o < time) := by
  have hbefore : ∀ o : Occurrence γ, decide (composition.timeOf o < time) = true →
      composition.timeOf o < time := fun o ho => of_decide_eq_true ho
  have hfloor : time ≤
      ((⌊time / composition.loopLength⌋₊ + 1 : Nat) : Rat) * composition.loopLength := by
    rw [← div_le_iff₀ hloop]
    push_cast
    exact (Nat.lt_floor_add_one _).le
  rcases le_total cycles (⌊time / composition.loopLength⌋₊ + 1) with hle | hle
  · exact h.filter_timeline_eq hloop hbefore hcycles hle
  · exact (h.filter_timeline_eq hloop hbefore hfloor hle).symm

/-- A part of the time line that ends where the musical time is reached. -/
theorem WellTimed.past_of_append (h : composition.WellTimed) (hloop : 0 < composition.loopLength)
    {cycles : Nat} (hcycles : time ≤ cycles * composition.loopLength)
    {before after : List (Occurrence γ)}
    (hsplit : before ++ after = composition.timeline role cycles)
    (hafter : ∀ o ∈ after, time ≤ composition.timeOf o) :
    composition.past role time = before.filter fun o => decide (composition.timeOf o < time) := by
  have hnone : after.filter (fun o => decide (composition.timeOf o < time)) = [] := by
    rw [List.filter_eq_nil_iff]
    intro o ho
    simpa using hafter o ho
  rw [h.past_eq hloop hcycles, ← hsplit, List.filter_append, hnone, List.append_nil]

theorem WellTimed.past_zero (h : composition.WellTimed) (hloop : 0 < composition.loopLength) :
    composition.past role 0 = [] := by
  rw [past, List.filter_eq_nil_iff]
  intro o ho
  simpa using h.timeOf_nonneg hloop ho

/-- Where every event begins before the end of the loop, whole cycles leave nothing behind. -/
theorem timeOf_lt_of_mem (hloop : 0 < composition.loopLength)
    (hstarts : ∀ role, ∀ event ∈ composition.tracks.get role, event.start < composition.loopLength)
    (htime : 0 ≤ time) {o : Occurrence γ}
    (ho : o ∈ composition.timeline role ⌊time / composition.loopLength⌋₊) :
    composition.timeOf o < time := by
  obtain ⟨hlt, hevent⟩ := mem_timeline.mp ho
  have hcycle : ((o.cycle + 1 : Nat) : Rat) ≤ ⌊time / composition.loopLength⌋₊ :=
    Nat.cast_le.mpr hlt
  push_cast at hcycle
  calc composition.timeOf o
      < (o.cycle + 1) * composition.loopLength := by
        rw [timeOf]
        linarith [hstarts role o.event (List.mem_of_getElem? hevent)]
    _ ≤ ⌊time / composition.loopLength⌋₊ * composition.loopLength :=
        mul_le_mul_of_nonneg_right hcycle hloop.le
    _ ≤ time := by
        rw [← le_div_iff₀ hloop]
        exact Nat.floor_le (div_nonneg htime hloop.le)

theorem WellTimed.mem_past (h : composition.WellTimed) (hloop : 0 < composition.loopLength)
    {o : Occurrence γ} :
    o ∈ composition.past role time ↔
      (composition.tracks.get role)[o.index]? = some o.event ∧ composition.timeOf o < time := by
  rw [past, List.mem_filter, mem_timeline, decide_eq_true_iff]
  constructor
  · rintro ⟨⟨_, hevent⟩, hlt⟩
    exact ⟨hevent, hlt⟩
  · rintro ⟨hevent, hlt⟩
    have hcycle := h.le_timeOf (mem_cycleOf.mpr ⟨rfl, hevent⟩)
    have hfloor : o.cycle ≤ ⌊time / composition.loopLength⌋₊ := by
      refine Nat.le_floor ((le_div_iff₀ hloop).mpr ?_)
      linarith
    exact ⟨⟨by omega, hevent⟩, hlt⟩

theorem lt_of_mem_past {o : Occurrence γ} (ho : o ∈ composition.past role time) :
    composition.timeOf o < time :=
  of_decide_eq_true (List.mem_filter.mp ho).2

end Composition

/-- A position in the loop is what is left of a musical time after its whole cycles. -/
theorem foldPosition_eq {loopLength position : Rat} (hloop : 0 < loopLength)
    (hposition : 0 ≤ position) :
    foldPosition position loopLength = position - ⌊position / loopLength⌋₊ * loopLength := by
  rcases hposition.eq_or_lt with rfl | hpos
  · simp [foldPosition]
  · have hfloor : Scalar.floor (position / loopLength) =
        (⌊position / loopLength⌋₊ : Rat) :=
      (natCast_floor_eq_intCast_floor (div_nonneg hposition hloop.le)).symm
    have hremainder : foldPosition position loopLength =
        position - Scalar.floor (position / loopLength) * loopLength := by
      simp only [foldPosition, Scalar.isNaN, Scalar.isInfinite, decide_eq_false hpos.not_ge,
        decide_eq_false hloop.not_ge]
      rfl
    rw [hremainder, hfloor]

/-- Folding forgets whole cycles. -/
theorem foldPosition_sub {loopLength time : Rat} (hloop : 0 < loopLength) (cycles : Nat)
    (hcycles : cycles * loopLength ≤ time) :
    foldPosition (time - cycles * loopLength) loopLength =
      time - ⌊time / loopLength⌋₊ * loopLength := by
  have hquotient : (time - cycles * loopLength) / loopLength = time / loopLength - cycles := by
    field_simp
  have hle : cycles ≤ ⌊time / loopLength⌋₊ := Nat.le_floor ((le_div_iff₀ hloop).mpr hcycles)
  rw [foldPosition_eq hloop (by linarith), hquotient, Nat.floor_sub_natCast, Nat.cast_sub hle]
  ring

namespace Scheduler

variable {composition : Composition Rat γ} {scheduler : Scheduler Rat} {role : Role}

/-- The events of a cycle that begin before a position. -/
def passed (composition : Composition Rat γ) (role : Role) (cycle : Nat) (position : Rat) :
    List (Occurrence γ) :=
  (composition.cycleOf role cycle).takeWhile fun o => decide (o.event.start < position)

theorem head_seek (position : Rat) (cycle : Nat) :
    (scheduler.seek composition position).heads.get role =
      ⟨(passed composition role cycle position).length, 0⟩ := by
  have hhead : (scheduler.seek composition position).heads.get role =
      ⟨((composition.tracks.get role).takeWhile fun event =>
        decide (event.start < position)).length, 0⟩ := PerRole.get_map _ _ role
  rw [hhead, ← Composition.map_event_cycleOf cycle, List.takeWhile_map, List.length_map]
  rfl

/-- Nothing behind the cursor of a seek lies after the position, and nothing ahead of it before. -/
theorem seek_divides (scheduler : Scheduler Rat) (htimed : composition.WellTimed) {played : Rat}
    {cycle : Nat} (hsoon : played ≤ (cycle + 1) * composition.loopLength)
    (hbefore : ∀ o ∈ composition.timeline role cycle, composition.timeOf o < played) :
    let position := played - cycle * composition.loopLength
    let sought := scheduler.seek composition position
    (∀ o ∈ sought.handedOut composition cycle role, composition.timeOf o < played) ∧
      ∀ o ∈ sought.ahead composition cycle role, played ≤ composition.timeOf o := by
  intro position sought
  have htime {o : Occurrence γ} (ho : o ∈ composition.cycleOf role cycle) :
      o.event.start < position ↔ composition.timeOf o < played := by
    rw [Composition.timeOf, (Composition.mem_cycleOf.mp ho).1]
    exact lt_sub_iff_add_lt'
  constructor
  · intro o ho
    rw [handedOut, head_seek position cycle, Composition.handedOut, List.take_zero,
      List.append_nil, passed, take_length_takeWhile] at ho
    rcases List.mem_append.mp ho with hearlier | hnow
    · exact hbefore o hearlier
    · have hearly := List.mem_takeWhile_imp
        (p := fun o : Occurrence γ => decide (o.event.start < position)) hnow
      exact (htime ((List.takeWhile_prefix _).subset hnow)).mp (of_decide_eq_true hearly)
  · intro o ho
    rw [ahead, head_seek position cycle, Composition.ahead, List.drop_zero, passed,
      drop_length_takeWhile] at ho
    rcases List.mem_append.mp ho with hnow | hnext
    · refine not_lt.mp fun hlt => not_of_mem_dropWhile ?_ hnow
        (decide_eq_true ((htime ((List.dropWhile_suffix _).subset hnow)).mpr hlt))
      apply (htimed.sorted_cycleOf cycle).imp_of_mem
      intro a b ha hb hab hlate
      exact decide_eq_true ((htime ha).mpr
        (hab.trans_lt ((htime hb).mp (of_decide_eq_true hlate))))
    · have hstart := htimed.le_timeOf hnext
      push_cast at hstart
      exact hsoon.trans hstart

/-- Playing goes on from a musical time.  The seek hands out again exactly what a pause there took
back. -/
theorem seek_prompt (scheduler : Scheduler Rat) (now : Rat) (htimed : composition.WellTimed)
    (hloop : 0 < composition.loopLength) {played : Rat} (hplayed : 0 ≤ played)
    (hbefore : ∀ role, ∀ o ∈ composition.timeline role ⌊played / composition.loopLength⌋₊,
      composition.timeOf o < played) :
    let cycle := ⌊played / composition.loopLength⌋₊
    let position := played - cycle * composition.loopLength
    (scheduler.seek composition position).Prompt composition (now - played) (now - position) now
        cycle ∧
      ∀ role, (scheduler.seek composition position).handedOut composition cycle role =
        composition.past role played := by
  intro cycle position
  have hcycle : cycle * composition.loopLength ≤ played := by
    rw [← le_div_iff₀ hloop]
    exact Nat.floor_le (div_nonneg hplayed hloop.le)
  have hsoon : played < (cycle + 1) * composition.loopLength := by
    rw [← div_lt_iff₀ hloop]
    exact Nat.lt_floor_add_one _
  have hdivides (role : Role) :=
    seek_divides scheduler htimed hsoon.le (hbefore role)
  refine ⟨⟨⟨by ring, valid_seek scheduler composition position⟩, by linarith, by linarith, ?_, ?_⟩, ?_⟩
  · intro role o ho
    linarith [(hdivides role).2 o ho]
  · intro hturn
    linarith
  · intro role
    have hsplit : (scheduler.seek composition position).handedOut composition cycle role ++
        (scheduler.seek composition position).ahead composition cycle role =
          composition.timeline role (cycle + 2) :=
      Composition.handedOut_append_ahead (valid_seek scheduler composition position role)
    rw [htimed.past_of_append hloop (by push_cast; linarith) hsplit (hdivides role).2]
    exact (List.filter_eq_self.mpr fun o ho =>
      decide_eq_true ((hdivides role).1 o ho)).symm

end Scheduler

end Chiptune
