import Chiptune.Proofs.Playheads

/-!
What one track hands out in a tick, told on the time line: the occurrences ahead of its playhead up
to the end of the lookahead, as far as the next cycle.
-/
namespace Chiptune

variable {γ : Type}

namespace Composition

variable (composition : Composition Rat γ) (role : Role) (cycle : Nat) (head : Playhead)
  (origin horizon : Rat)

/-- An occurrence as it is handed out, when musical time zero falls on a clock time. -/
def scheduledAt (o : Occurrence γ) : Scheduled Rat γ :=
  ⟨role, o.event, origin + composition.timeOf o⟩

/-- What is reached up to a clock time, of all the occurrences ahead. -/
def reach : List (Occurrence γ) :=
  (composition.ahead role cycle head).takeWhile fun o =>
    decide (origin + composition.timeOf o ≤ horizon)

def reachNow : List (Occurrence γ) :=
  ((composition.cycleOf role cycle).drop head.cursor).takeWhile fun o =>
    decide (origin + composition.timeOf o ≤ horizon)

def reachNext : List (Occurrence γ) :=
  if head.cursor + (composition.reachNow role cycle head origin horizon).length =
      (composition.tracks.get role).length ∧
      origin + (cycle + 1) * composition.loopLength ≤ horizon then
    ((composition.cycleOf role (cycle + 1)).drop head.carried).takeWhile fun o =>
      decide (origin + composition.timeOf o ≤ horizon)
  else []

theorem reachNow_prefix_drop :
    composition.reachNow role cycle head origin horizon <+:
      (composition.cycleOf role cycle).drop head.cursor :=
  List.takeWhile_prefix _

theorem reachNext_prefix_drop :
    composition.reachNext role cycle head origin horizon <+:
      (composition.cycleOf role (cycle + 1)).drop head.carried := by
  unfold reachNext
  split
  · exact List.takeWhile_prefix _
  · exact List.nil_prefix

variable {composition role cycle head origin horizon}

theorem mem_of_mem_reachNow {o : Occurrence γ}
    (ho : o ∈ composition.reachNow role cycle head origin horizon) :
    o ∈ composition.cycleOf role cycle :=
  List.mem_of_mem_drop ((reachNow_prefix_drop ..).subset ho)

theorem mem_of_mem_reachNext {o : Occurrence γ}
    (ho : o ∈ composition.reachNext role cycle head origin horizon) :
    o ∈ composition.cycleOf role (cycle + 1) :=
  List.mem_of_mem_drop ((reachNext_prefix_drop ..).subset ho)

theorem length_drop_cursor (cycle : Nat)
    (hvalid : head.Valid (composition.tracks.get role).length) :
    head.cursor + ((composition.cycleOf role cycle).drop head.cursor).length =
      (composition.tracks.get role).length := by
  rw [List.length_drop, length_cycleOf, Nat.add_sub_cancel' hvalid.cursor_le]

/-- Reaching goes on into the next cycle only from the end of the current one. -/
theorem reach_eq_append (h : composition.WellTimed)
    (hvalid : head.Valid (composition.tracks.get role).length) :
    composition.reach role cycle head origin horizon =
      composition.reachNow role cycle head origin horizon ++
        composition.reachNext role cycle head origin horizon := by
  have hlength := length_drop_cursor cycle hvalid
  rw [reach, ahead, List.takeWhile_append, ← reachNow]
  by_cases hall : (composition.reachNow role cycle head origin horizon).length =
      ((composition.cycleOf role cycle).drop head.cursor).length
  · rw [if_pos hall, (reachNow_prefix_drop ..).eq_of_length hall]
    congr 1
    unfold reachNext
    split
    · rfl
    · next hnot =>
        rw [List.eq_nil_iff_forall_not_mem]
        intro o ho
        have hle := h.le_timeOf (List.mem_of_mem_drop ((List.takeWhile_prefix _).subset ho))
        have hreached := List.mem_takeWhile_imp ho
        rw [decide_eq_true_iff] at hreached
        push_cast at hle
        exact hnot ⟨by omega, by linarith⟩
  · have hnext : composition.reachNext role cycle head origin horizon = [] :=
      if_neg fun hboth => hall (by omega)
    rw [if_neg hall, hnext, List.append_nil]

/-- A playhead moved on over what it reached. -/
theorem handedOut_reach (hvalid : head.Valid (composition.tracks.get role).length) :
    composition.handedOut role cycle
        ⟨head.cursor + (composition.reachNow role cycle head origin horizon).length,
          head.carried + (composition.reachNext role cycle head origin horizon).length⟩ =
      composition.handedOut role cycle head ++
        (composition.reachNow role cycle head origin horizon ++
          composition.reachNext role cycle head origin horizon) := by
  rw [handedOut, handedOut, List.take_add, List.take_add,
    ← List.prefix_iff_eq_take.mp (reachNow_prefix_drop ..),
    ← List.prefix_iff_eq_take.mp (reachNext_prefix_drop ..)]
  rcases hvalid.finished with hcarried | hcursor
  · simp [hcarried]
  · have hnil : composition.reachNow role cycle head origin horizon = [] := by
      rw [reachNow, List.drop_eq_nil_of_le (by simp [hcursor]), List.takeWhile_nil]
    simp [hnil]

end Composition

namespace Scheduler

variable {composition : Composition Rat γ} {role : Role} {cycle : Nat} {head : Playhead}
  {origin now horizon : Rat}

theorem within_cycleOf (index : Nat) :
    within (composition.tracks.get role) index (origin + cycle * composition.loopLength) horizon =
      (((composition.cycleOf role cycle).drop index).takeWhile fun o =>
        decide (origin + composition.timeOf o ≤ horizon)).map Occurrence.event := by
  have hpredicate : ∀ o ∈ (composition.cycleOf role cycle).drop index,
      (!decide (horizon < origin + cycle * composition.loopLength + o.event.start)) =
        decide (origin + composition.timeOf o ≤ horizon) := by
    intro o ho
    have hcycle := (Composition.mem_cycleOf.mp (List.mem_of_mem_drop ho)).1
    rw [Composition.timeOf, hcycle, add_assoc, ← decide_not]
    exact decide_eq_decide.mpr not_lt
  rw [within, ← Composition.map_event_cycleOf cycle,
    ← List.map_drop, List.takeWhile_map]
  exact congrArg _ (takeWhile_congr hpredicate)

/-- What a pass does, in terms of the occurrences it reaches: it hands out those whose time has not
passed and counts the others. -/
structure Pass.Reaches (pass : Pass Rat γ) (composition : Composition Rat γ) (role : Role)
    (cycle : Nat) (head : Playhead) (origin now : Rat) (reached : List (Occurrence γ)) :
    Prop where
  valid : pass.head.Valid (composition.tracks.get role).length
  handedOut : composition.handedOut role cycle pass.head =
    composition.handedOut role cycle head ++ reached
  scheduled : pass.scheduled =
    (reached.filter fun o => decide (now ≤ origin + composition.timeOf o)).map
      (composition.scheduledAt role origin)
  missed : pass.missed =
    reached.length - (reached.filter fun o => decide (now ≤ origin + composition.timeOf o)).length

theorem pass_reaches (h : composition.WellTimed)
    (hvalid : head.Valid (composition.tracks.get role).length)
    (hnow : now ≤ origin + (cycle + 1) * composition.loopLength) :
    (pass role (composition.tracks.get role) head now (origin + cycle * composition.loopLength)
      composition.loopLength horizon).Reaches composition role cycle head origin now
      (composition.reach role cycle head origin horizon) := by
  have hnext : origin + cycle * composition.loopLength + composition.loopLength =
      origin + ((cycle + 1 : Nat) : Rat) * composition.loopLength := by
    push_cast
    ring
  have hdue : within (composition.tracks.get role) head.cursor
      (origin + cycle * composition.loopLength) horizon =
        (composition.reachNow role cycle head origin horizon).map Occurrence.event :=
    within_cycleOf _
  have hearly : (if head.cursor +
        (composition.reachNow role cycle head origin horizon).length =
          (composition.tracks.get role).length ∧
        origin + ((cycle + 1 : Nat) : Rat) * composition.loopLength ≤ horizon then
        within (composition.tracks.get role) head.carried
          (origin + ((cycle + 1 : Nat) : Rat) * composition.loopLength) horizon else []) =
      (composition.reachNext role cycle head origin horizon).map Occurrence.event := by
    rw [within_cycleOf, Composition.reachNext]
    push_cast
    split <;> rfl
  have htime {k : Nat} {o : Occurrence γ} (ho : o ∈ composition.cycleOf role k) :
      origin + k * composition.loopLength + o.event.start = origin + composition.timeOf o := by
    rw [Composition.timeOf, (Composition.mem_cycleOf.mp ho).1, add_assoc]
  have htimely : (((composition.reachNow role cycle head origin horizon).map
      Occurrence.event).filter fun event =>
        decide (now ≤ origin + cycle * composition.loopLength + event.start)) =
      ((composition.reachNow role cycle head origin horizon).filter fun o =>
        decide (now ≤ origin + composition.timeOf o)).map Occurrence.event := by
    rw [List.filter_map]
    refine congrArg _ (List.filter_congr ?_)
    intro o ho
    simp only [Function.comp_apply, htime (Composition.mem_of_mem_reachNow ho)]
  have hall : ((composition.reachNext role cycle head origin horizon).filter fun o =>
      decide (now ≤ origin + composition.timeOf o)) =
      composition.reachNext role cycle head origin horizon := by
    rw [List.filter_eq_self]
    intro o ho
    have hle := h.le_timeOf (Composition.mem_of_mem_reachNext ho)
    push_cast at hle
    exact decide_eq_true (by linarith)
  have hinside := valid_pass role hvalid now (origin + cycle * composition.loopLength)
    composition.loopLength horizon
  rw [Composition.reach_eq_append h hvalid]
  unfold pass at hinside ⊢
  simp only [hnext, hdue, List.length_map, hearly, htimely, List.map_map] at hinside ⊢
  refine ⟨hinside, Composition.handedOut_reach hvalid, ?_, ?_⟩
  · rw [List.filter_append, hall, List.map_append]
    refine congrArg₂ (· ++ ·) ?_ ?_
    · apply List.map_congr_left
      intro o ho
      have hmem := Composition.mem_of_mem_reachNow (List.mem_of_mem_filter ho)
      exact congrArg (Scheduled.mk role o.event) (htime hmem)
    · apply List.map_congr_left
      intro o ho
      exact congrArg (Scheduled.mk role o.event) (htime (Composition.mem_of_mem_reachNext ho))
  · rw [List.filter_append, hall, List.length_append, List.length_append, Nat.add_sub_add_right]

/-- A pass that reaches nothing late hands out all it reaches. -/
theorem Pass.Reaches.of_timely {pass : Pass Rat γ} {reached : List (Occurrence γ)}
    (h : pass.Reaches composition role cycle head origin now reached)
    (htimely : ∀ o ∈ reached, now ≤ origin + composition.timeOf o) :
    pass.scheduled = reached.map (composition.scheduledAt role origin) ∧ pass.missed = 0 := by
  have hall : (reached.filter fun o => decide (now ≤ origin + composition.timeOf o)) =
      reached := List.filter_eq_self.mpr fun o ho => decide_eq_true (htimely o ho)
  rw [h.scheduled, h.missed, hall, Nat.sub_self]
  exact ⟨rfl, rfl⟩

end Scheduler

end Chiptune
