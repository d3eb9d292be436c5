import Chiptune.Proofs.ExactlyOnce

/-!
Ticks that may come late, with gaps shorter than one loop but possibly longer than the lookahead.

What a track goes past in a tick is handed out, or counted as missed if its time is over.  The turn
of the loop moves every playhead into the new cycle, and what the last tick before it had not reached
is left behind unreported.

Main statement: over a run from the top of the tracks, each track reports every occurrence up to the
end of the last lookahead once, except those left behind at a turn of the loop.
-/
namespace Chiptune

variable {γ : Type}

namespace Composition

variable (composition : Composition Rat γ)

/-- The clock time at which the cycle of an occurrence ends. -/
def endOf (origin : Rat) (o : Occurrence γ) : Rat :=
  origin + (o.cycle + 1) * composition.loopLength

/-- What one playhead of a cycle has handed out that another has not. -/
def since (role : Role) (cycle : Nat) (before after : Playhead) : List (Occurrence γ) :=
  (composition.handedOut role cycle after).drop (composition.handedOut role cycle before).length

/-- An occurrence is kept by ticks at a list of clock times if none of them finds its cycle over
before the lookahead of the tick before had come to it. -/
def Kept (origin lookahead : Rat) (times : List Rat) (o : Occurrence γ) : Prop :=
  times.IsChain fun earlier next =>
    composition.endOf origin o ≤ next → origin + composition.timeOf o ≤ earlier + lookahead

instance (origin lookahead : Rat) (times : List Rat) (o : Occurrence γ) :
    Decidable (composition.Kept origin lookahead times o) :=
  inferInstanceAs (Decidable (List.IsChain _ times))

variable {composition} {role : Role} {cycle : Nat} {head : Playhead} {origin lookahead : Rat}
  {o : Occurrence γ}

/-- What has come within the lookahead is kept from then on. -/
theorem kept_of_le {now : Rat} {later : List Rat}
    (htime : origin + composition.timeOf o ≤ now + lookahead)
    (hsorted : (now :: later).IsChain (· ≤ ·)) :
    composition.Kept origin lookahead (now :: later) o := by
  induction later generalizing now with
  | nil => exact List.isChain_singleton _
  | cons next later ih =>
      rw [List.isChain_cons_cons] at hsorted
      refine List.isChain_cons_cons.mpr ⟨fun _ => htime, ih ?_ hsorted.2⟩
      linarith [hsorted.1]

theorem cycle_le_of_mem_ahead (ho : o ∈ composition.ahead role cycle head) : cycle ≤ o.cycle := by
  rcases List.mem_append.mp ho with hnow | hnext
  · exact (mem_cycleOf.mp (List.mem_of_mem_drop hnow)).1.ge
  · exact (Nat.le_succ cycle).trans (mem_cycleOf.mp (List.mem_of_mem_drop hnext)).1.ge

theorem kept_cons_iff {now next : Rat} {later : List Rat}
    (hruns : next < composition.endOf origin o) :
    composition.Kept origin lookahead (now :: next :: later) o ↔
      composition.Kept origin lookahead (next :: later) o := by
  rw [Kept, List.isChain_cons_cons]
  exact and_iff_right fun hended => absurd hruns hended.not_gt

/-- What has not come within the lookahead before its cycle ends is lost. -/
theorem not_kept {now next : Rat} {later : List Rat}
    (hbeyond : now + lookahead < origin + composition.timeOf o)
    (hended : composition.endOf origin o ≤ next) :
    ¬ composition.Kept origin lookahead (now :: next :: later) o := by
  rw [Kept, List.isChain_cons_cons]
  exact fun hkept => absurd (hkept.1 hended) hbeyond.not_ge

theorem WellTimed.timeOf_le_endOf (h : composition.WellTimed)
    (ho : o ∈ composition.ahead role cycle head) :
    origin + composition.timeOf o ≤ composition.endOf origin o := by
  have hmem : o ∈ composition.cycleOf role o.cycle := by
    rcases List.mem_append.mp ho with hnow | hnext
    · exact mem_cycleOf.mpr ⟨rfl, (mem_cycleOf.mp (List.mem_of_mem_drop hnow)).2⟩
    · exact mem_cycleOf.mpr ⟨rfl, (mem_cycleOf.mp (List.mem_of_mem_drop hnext)).2⟩
  have htime := h.timeOf_le hmem
  unfold endOf
  linarith

/-- What has passed is found in the cycles up to the current one. -/
theorem WellTimed.mem_timeline_of_lt (h : composition.WellTimed)
    (hloop : 0 < composition.loopLength) {last : Rat}
    (hevent : (composition.tracks.get role)[o.index]? = some o.event)
    (htime : origin + composition.timeOf o < last) :
    o ∈ composition.timeline role (⌊(last - origin) / composition.loopLength⌋₊ + 2) := by
  have hbegan : o.cycle * composition.loopLength ≤ composition.timeOf o :=
    h.le_timeOf (mem_cycleOf.mpr ⟨rfl, hevent⟩)
  have hcycle : o.cycle ≤ ⌊(last - origin) / composition.loopLength⌋₊ := by
    refine Nat.le_floor ((le_div_iff₀ hloop).mpr ?_)
    linarith
  exact mem_timeline.mpr ⟨by omega, hevent⟩

/-- In a cycle that runs, the cycles of what is ahead have not ended. -/
theorem lt_endOf (hloop : 0 < composition.loopLength) {now : Rat}
    (hruns : now < origin + (cycle + 1) * composition.loopLength) (hcycle : cycle ≤ o.cycle) :
    now < composition.endOf origin o := by
  have hcast : (cycle : Rat) + 1 ≤ o.cycle + 1 := by exact_mod_cast Nat.succ_le_succ hcycle
  have hmul := mul_le_mul_of_nonneg_right hcast hloop.le
  unfold endOf
  linarith

end Composition

namespace Scheduler

/-- A tick, with the cycle and the playheads that it works on after the turn of the loop. -/
structure Leg (γ : Type) where
  now : Rat
  cycle : Nat
  heads : PerRole Playhead
  tick : Tick Rat γ

def Leg.reported (leg : Leg γ) (composition : Composition Rat γ) (role : Role) :
    List (Occurrence γ) :=
  composition.since role leg.cycle (leg.heads.get role) (leg.tick.scheduler.heads.get role)

/-- A tick in some cycle, which moves on by the number of whole cycles that the tick reports. -/
def leg (scheduler : Scheduler Rat) (composition : Composition Rat γ) (cycle : Nat)
    (anchor now : Rat) : Leg γ :=
  let tick := scheduler.tick composition now anchor
  { now
    cycle := cycle + tick.cycles.elim 0 fun cycles => ⌊cycles⌋₊
    heads := tick.cycles.elim scheduler.heads fun cycles => nextCycle cycles scheduler.heads
    tick }

/-- Ticks at a list of clock times, each with the anchor that the one before it reported. -/
def legs (scheduler : Scheduler Rat) (composition : Composition Rat γ) :
    Nat → Rat → List Rat → List (Leg γ)
  | _, _, [] => []
  | cycle, anchor, now :: later =>
    let leg := scheduler.leg composition cycle anchor now
    leg :: leg.tick.scheduler.legs composition leg.cycle leg.tick.report.anchor later

theorem map_tick_legs (scheduler : Scheduler Rat) (composition : Composition Rat γ) (cycle : Nat)
    (anchor : Rat) (nows : List Rat) :
    (scheduler.legs composition cycle anchor nows).map Leg.tick =
      scheduler.ticks composition anchor nows := by
  induction nows generalizing scheduler cycle anchor with
  | nil => rfl
  | cons now later ih => exact congrArg (List.cons _) (ih ..)

/-- A tick accounts for what it reports: it hands out the occurrences whose time is not over and
counts the others as missed. -/
structure Leg.Accounts (leg : Leg γ) (composition : Composition Rat γ) (origin : Rat) : Prop where
  scheduled : ∀ role, leg.tick.ofRole role =
    ((leg.reported composition role).filter fun o =>
      decide (leg.now ≤ origin + composition.timeOf o)).map (composition.scheduledAt role origin)
  dispatched : leg.tick.report.dispatched = leg.tick.scheduled.length
  counted : leg.tick.report.dispatched + leg.tick.report.missed =
    (PerRole.ofRole fun role => (leg.reported composition role).length).total

/-- Where a tick comes down: in the cycle that runs at its clock time, with every track moved on
over what it reports. -/
structure Leg.Lands (leg : Leg γ) (scheduler : Scheduler Rat) (composition : Composition Rat γ)
    (origin : Rat) (cycle cycles : Nat) : Prop where
  cycle_eq : leg.cycle = cycle + cycles
  heads_eq : leg.heads = headsAfter scheduler.heads cycles
  lookahead_eq : leg.tick.scheduler.lookahead = scheduler.lookahead
  inCycle : leg.tick.scheduler.InCycle composition origin leg.tick.report.anchor leg.cycle
  began : leg.tick.report.anchor ≤ leg.now
  runs : leg.now < leg.tick.report.anchor + composition.loopLength
  reported : ∀ role, leg.reported composition role =
    composition.reach role leg.cycle (leg.heads.get role) origin (leg.now + scheduler.lookahead)
  handedOut : ∀ role, leg.tick.scheduler.handedOut composition leg.cycle role =
    composition.handedOut role leg.cycle (leg.heads.get role) ++ leg.reported composition role
  ahead : ∀ role, leg.tick.scheduler.ahead composition leg.cycle role =
    (composition.ahead role leg.cycle (leg.heads.get role)).dropWhile fun o =>
      decide (origin + composition.timeOf o ≤ leg.now + scheduler.lookahead)

variable {scheduler : Scheduler Rat} {composition : Composition Rat γ}
  {origin anchor now next : Rat} {cycle : Nat}

theorem InCycle.valid_headsAfter (h : scheduler.InCycle composition origin anchor cycle)
    (cycles : Nat) (role : Role) :
    ((headsAfter scheduler.heads cycles).get role).Valid (composition.tracks.get role).length := by
  match cycles with
  | 0 => exact h.valid role
  | 1 =>
      rw [headsAfter, PerRole.get_map]
      exact (h.valid role).turned
  | cycles + 2 =>
      rw [show (headsAfter scheduler.heads (cycles + 2)).get role = Playhead.top from
        PerRole.get_replicate _ role]
      exact Playhead.valid_top _

/-- What a tick reports to have ended is the number of turns, and the playheads follow it. -/
theorem leg_turns (scheduler : Scheduler Rat) (hloop : 0 < composition.loopLength) :
    let cycles := turns composition.loopLength now anchor
    (scheduler.leg composition cycle anchor now).cycle = cycle + cycles ∧
      (scheduler.leg composition cycle anchor now).heads = headsAfter scheduler.heads cycles := by
  intro cycles
  simp only [leg, tick_eq scheduler hloop]
  by_cases hcycles : cycles = 0
  · simp [cycles, hcycles, headsAfter]
  · simp [cycles, hcycles, nextCycle_eq]

/-- One tick, late or not. -/
theorem leg_lands (htimed : composition.WellTimed) (hloop : 0 < composition.loopLength)
    (h : scheduler.InCycle composition origin anchor cycle) (hbegan : anchor ≤ now) :
    let leg := scheduler.leg composition cycle anchor now
    leg.Lands scheduler composition origin cycle (turns composition.loopLength now anchor) ∧
      leg.Accounts composition origin := by
  intro leg
  obtain ⟨hcycle, hheads⟩ : leg.cycle = _ ∧ leg.heads = _ := leg_turns scheduler hloop
  have hvalid (role : Role) : (leg.heads.get role).Valid (composition.tracks.get role).length :=
    hheads ▸ h.valid_headsAfter _ role
  have hbegun : anchor + turns composition.loopLength now anchor * composition.loopLength =
      origin + leg.cycle * composition.loopLength := by
    rw [hcycle]
    push_cast
    linear_combination h.anchor_eq
  have hle : anchor + turns composition.loopLength now anchor * composition.loopLength ≤ now :=
    turns_mul_le hloop hbegan
  have hlt : now < anchor +
      (turns composition.loopLength now anchor + 1) * composition.loopLength :=
    lt_turns_succ_mul hloop
  have htick : leg.tick = _ := tick_eq scheduler hloop
  dsimp only at htick
  rw [← hheads, hbegun] at htick
  generalize hpasses : passAll composition leg.heads now
    (origin + leg.cycle * composition.loopLength) (now + scheduler.lookahead) = passes at htick
  have hpass (role : Role) : (passes.get role).Reaches composition role leg.cycle
      (leg.heads.get role) origin now (composition.reach role leg.cycle (leg.heads.get role) origin
        (now + scheduler.lookahead)) := by
    rw [← hpasses, show (passAll composition leg.heads now _ _).get role = _ from
      PerRole.get_ofRole _ role]
    exact pass_reaches htimed (hvalid role) (by linarith)
  have hhead (role : Role) : leg.tick.scheduler.heads.get role = (passes.get role).head := by
    rw [htick]
    exact PerRole.get_map _ _ role
  have hreported (role : Role) : leg.reported composition role =
      composition.reach role leg.cycle (leg.heads.get role) origin (now + scheduler.lookahead) := by
    rw [Leg.reported, Composition.since, hhead role, (hpass role).handedOut, List.drop_left]
  refine ⟨⟨hcycle, hheads, ?_, ⟨?_, ?_⟩, ?_, ?_, hreported, ?_, ?_⟩, ⟨?_, ?_, ?_⟩⟩
  · rw [htick]
  · rw [htick]
  · intro role
    rw [hhead role]
    exact (hpass role).valid
  · rw [htick]
    change origin + leg.cycle * composition.loopLength ≤ now
    linarith
  · rw [htick]
    change now < origin + leg.cycle * composition.loopLength + composition.loopLength
    linarith
  · intro role
    rw [Scheduler.handedOut, hhead role, hreported role, (hpass role).handedOut]
  · intro role
    rw [Scheduler.ahead, hhead role]
    exact ahead_of_reaches (hvalid role) (hpass role)
  · intro role
    have hrole : leg.tick.ofRole role = (passes.get role).scheduled := by
      rw [Tick.ofRole, htick, ← hpasses]
      exact filter_role_passAll _ _ _ _ role
    rw [hreported role]
    exact hrole.trans (hpass role).scheduled
  · rw [htick]
  · have hcounted (role : Role) : (passes.get role).scheduled.length + (passes.get role).missed =
        (leg.reported composition role).length := by
      rw [(hpass role).missed, (hpass role).scheduled, List.length_map, hreported role]
      exact Nat.add_sub_cancel' (List.length_filter_le _ _)
    rw [htick]
    exact length_add_total hcounted

/-- The turn of the loop leaves behind what has not been reached of the cycle that ends. -/
theorem InCycle.handedOut_turn (h : scheduler.InCycle composition origin anchor cycle)
    {cycles : Nat} (hcycles : cycles ≤ 1) (role : Role) :
    ∃ left, composition.handedOut role (cycle + cycles)
        ((headsAfter scheduler.heads cycles).get role) =
          scheduler.handedOut composition cycle role ++ left ∧
      ∀ o ∈ left, cycles = 1 ∧ o.cycle = cycle ∧ o ∈ scheduler.ahead composition cycle role := by
  rcases Nat.le_one_iff_eq_zero_or_eq_one.mp hcycles with rfl | rfl
  · exact ⟨[], (List.append_nil _).symm, by simp⟩
  · refine ⟨(composition.cycleOf role cycle).drop (scheduler.heads.get role).cursor, ?_, ?_⟩
    · rw [headsAfter, PerRole.get_map, Scheduler.handedOut]
      rcases (h.valid role).finished with hcarried | hcursor
      · simp [Composition.handedOut, Composition.timeline_succ, hcarried]
      · have hnothing : (composition.cycleOf role cycle).drop
            (scheduler.heads.get role).cursor = [] := List.drop_eq_nil_of_le (by simp [hcursor])
        rw [Composition.handedOut_next hcursor, hnothing, List.append_nil]
    · intro o ho
      exact ⟨rfl, (Composition.mem_cycleOf.mp (List.mem_of_mem_drop ho)).1,
        List.mem_append_left _ ho⟩

theorem Leg.Lands.lt_endOf {leg : Leg γ} {cycles : Nat}
    (h : leg.Lands scheduler composition origin cycle cycles)
    (hloop : 0 < composition.loopLength) {o : Occurrence γ} (ho : leg.cycle ≤ o.cycle) :
    leg.now < composition.endOf origin o := by
  have hanchor := h.inCycle.anchor_eq
  have hruns := h.runs
  exact Composition.lt_endOf hloop (by linarith) ho

/-- What lies between two playheads of a track: what was left behind at the turn of the loop, and
what was reported. -/
structure Leg.Passes (leg : Leg γ) (scheduler : Scheduler Rat) (composition : Composition Rat γ)
    (origin : Rat) (cycle : Nat) (role : Role) (left : List (Occurrence γ)) : Prop where
  handedOut : leg.tick.scheduler.handedOut composition leg.cycle role =
    scheduler.handedOut composition cycle role ++ (left ++ leg.reported composition role)
  left_ahead : ∀ o ∈ left, o ∈ scheduler.ahead composition cycle role
  left_ended : ∀ o ∈ left, composition.endOf origin o ≤ leg.now
  reported_cycle : ∀ o ∈ leg.reported composition role, leg.cycle ≤ o.cycle
  reported_time : ∀ o ∈ leg.reported composition role,
    origin + composition.timeOf o ≤ leg.now + scheduler.lookahead

theorem Leg.Lands.passes {leg : Leg γ} {cycles : Nat}
    (h : leg.Lands scheduler composition origin cycle cycles) (hcycles : cycles ≤ 1)
    (hin : scheduler.InCycle composition origin anchor cycle) (role : Role) :
    ∃ left, leg.Passes scheduler composition origin cycle role left := by
  obtain ⟨left, hturn, hleft⟩ := hin.handedOut_turn hcycles role
  rw [← h.cycle_eq, ← h.heads_eq] at hturn
  refine ⟨left, ?_, fun o ho => (hleft o ho).2.2, ?_, ?_, ?_⟩
  · rw [h.handedOut role, hturn, List.append_assoc]
  · intro o ho
    obtain ⟨hone, hcycle, _⟩ := hleft o ho
    have hanchor := h.inCycle.anchor_eq
    have hbegan := h.began
    rw [show leg.cycle = o.cycle + 1 by rw [h.cycle_eq, hone, hcycle]] at hanchor
    push_cast at hanchor
    unfold Composition.endOf
    linarith
  · intro o ho
    rw [h.reported role] at ho
    exact Composition.cycle_le_of_mem_ahead ((List.takeWhile_prefix _).subset ho)
  · intro o ho
    rw [h.reported role] at ho
    exact of_decide_eq_true (List.mem_takeWhile_imp
      (p := fun o : Occurrence γ =>
        decide (origin + composition.timeOf o ≤ leg.now + scheduler.lookahead)) ho)

namespace Leg.Passes

variable {leg : Leg γ} {role : Role} {left : List (Occurrence γ)} {later : List Rat} {bound : Rat}

/-- What a tick reports is kept by all that follow. -/
theorem kept (h : leg.Passes scheduler composition origin cycle role left)
    (hgaps : (leg.now :: later).IsChain fun earlier next =>
      earlier ≤ next ∧ next - earlier < bound) :
    ∀ o ∈ leg.reported composition role,
      composition.Kept origin scheduler.lookahead (leg.now :: later) o := by
  intro o ho
  exact Composition.kept_of_le (h.reported_time o ho) (hgaps.imp fun _ _ hpair => hpair.1)

/-- Of all that lies behind a tick and the ticks after it, what is not left behind is kept. -/
theorem filter_kept (h : leg.Passes scheduler composition origin cycle role left)
    (hruns : ∀ o : Occurrence γ, leg.cycle ≤ o.cycle → leg.now < composition.endOf origin o)
    (hbeyond : ∀ o ∈ scheduler.ahead composition cycle role,
      now + scheduler.lookahead < origin + composition.timeOf o)
    (hgaps : (leg.now :: later).IsChain fun earlier next =>
      earlier ≤ next ∧ next - earlier < bound)
    {passed : List (Occurrence γ)} (hpassed : ∀ o ∈ passed, leg.cycle ≤ o.cycle) :
    (left ++ (leg.reported composition role ++ passed)).filter (fun o =>
        decide (composition.Kept origin scheduler.lookahead (now :: leg.now :: later) o)) =
      leg.reported composition role ++ passed.filter fun o =>
        decide (composition.Kept origin scheduler.lookahead (leg.now :: later) o) := by
  have hcons (o : Occurrence γ) (ho : leg.cycle ≤ o.cycle) :
      composition.Kept origin scheduler.lookahead (now :: leg.now :: later) o ↔
        composition.Kept origin scheduler.lookahead (leg.now :: later) o :=
    Composition.kept_cons_iff (hruns o ho)
  have hleft : left.filter (fun o => decide (composition.Kept origin scheduler.lookahead
      (now :: leg.now :: later) o)) = [] := by
    rw [List.filter_eq_nil_iff]
    intro o ho
    simpa using Composition.not_kept (hbeyond o (h.left_ahead o ho)) (h.left_ended o ho)
  have hreported : (leg.reported composition role).filter (fun o =>
      decide (composition.Kept origin scheduler.lookahead (now :: leg.now :: later) o)) =
        leg.reported composition role := by
    rw [List.filter_eq_self]
    intro o ho
    exact decide_eq_true ((hcons o (h.reported_cycle o ho)).mpr (h.kept hgaps o ho))
  have hrest : passed.filter (fun o => decide (composition.Kept origin scheduler.lookahead
      (now :: leg.now :: later) o)) = passed.filter fun o =>
        decide (composition.Kept origin scheduler.lookahead (leg.now :: later) o) :=
    List.filter_congr fun o ho => decide_eq_decide.mpr (hcons o (hpassed o ho))
  rw [List.filter_append, List.filter_append, hleft, hreported, hrest, List.nil_append]

end Leg.Passes

/-- A tick within one loop of the one before leaves everything up to the end of its lookahead
behind, reported or not. -/
theorem Leg.Lands.settled {leg : Leg γ} {cycles : Nat}
    (h : leg.Lands scheduler composition origin cycle cycles) (hcycles : cycles ≤ 1)
    (htimed : composition.WellTimed) (hloop : 0 < composition.loopLength)
    (hlookahead : 0 ≤ scheduler.lookahead)
    (hin : scheduler.InCycle composition origin anchor cycle)
    (hreached : ∀ role, ∀ o ∈ scheduler.handedOut composition cycle role,
      origin + composition.timeOf o ≤ leg.now + scheduler.lookahead) :
    leg.tick.scheduler.Settled composition origin leg.tick.report.anchor leg.now leg.cycle := by
  have hbeyond (role : Role) : ∀ o ∈ leg.tick.scheduler.ahead composition leg.cycle role,
      leg.now + scheduler.lookahead < origin + composition.timeOf o := by
    intro o ho
    rw [h.ahead role] at ho
    refine not_le.mp fun hle => not_of_mem_dropWhile ?_ ho (decide_eq_true hle)
    have hvalid : (leg.heads.get role).Valid (composition.tracks.get role).length :=
      h.heads_eq ▸ hin.valid_headsAfter cycles role
    apply (htimed.sorted_ahead hloop hvalid).imp
    intro a b hab hb
    have hle := of_decide_eq_true hb
    exact decide_eq_true (by linarith)
  refine ⟨⟨h.inCycle, h.began, h.runs, ?_, ?_⟩, ?_⟩
  · intro role o ho
    linarith [hbeyond role o ho]
  · intro role o ho
    rw [h.lookahead_eq]
    exact hbeyond role o ho
  · intro role o ho
    obtain ⟨left, hpasses⟩ := h.passes hcycles hin role
    rw [h.lookahead_eq]
    rw [hpasses.handedOut] at ho
    rcases List.mem_append.mp ho with hbefore | hpassed
    · exact hreached role o hbefore
    · rcases List.mem_append.mp hpassed with hleft | hreported
      · have htime : origin + composition.timeOf o ≤ composition.endOf origin o :=
          htimed.timeOf_le_endOf (hpasses.left_ahead o hleft)
        linarith [hpasses.left_ended o hleft]
      · exact hpasses.reported_time o hreported

/-- What lies between a playhead and the end of the last lookahead of a run, and which of it the run
reports. -/
structure Covers (legs : List (Leg γ)) (composition : Composition Rat γ) (role : Role)
    (origin lookahead last : Rat) (times : List Rat) (before passed : List (Occurrence γ)) :
    Prop where
  handedOut : before ++ passed =
    (composition.timeline role (⌊(last - origin) / composition.loopLength⌋₊ + 2)).filter
      fun o => decide (origin + composition.timeOf o ≤ last + lookahead)
  reported : legs.flatMap (fun leg => leg.reported composition role) =
    passed.filter fun o => decide (composition.Kept origin lookahead times o)

/-- A run of ticks within one loop of each other. -/
theorem legs_cover (htimed : composition.WellTimed) (hloop : 0 < composition.loopLength)
    (hlookahead : 0 ≤ scheduler.lookahead)
    (h : scheduler.Settled composition origin anchor now cycle) (later : List Rat)
    (hgaps : (now :: later).IsChain fun earlier next =>
      earlier ≤ next ∧ next - earlier < composition.loopLength) :
    let legs := scheduler.legs composition cycle anchor later
    (∀ leg ∈ legs, leg.Accounts composition origin) ∧
      ∀ role, ∃ passed, (∀ o ∈ passed, cycle ≤ o.cycle) ∧
        Covers legs composition role origin scheduler.lookahead
          ((now :: later).getLast (List.cons_ne_nil _ _)) (now :: later)
          (scheduler.handedOut composition cycle role) passed := by
  induction later generalizing scheduler anchor now cycle with
  | nil =>
      refine ⟨by simp [legs], fun role => ⟨[], by simp, ?_, by simp [legs]⟩⟩
      rw [List.append_nil, List.getLast_singleton, ← h.cycle_eq hloop, h.handedOut_eq role]
  | cons next later ih =>
      rw [List.isChain_cons_cons] at hgaps
      obtain ⟨⟨hnext, hgap⟩, hlater⟩ := hgaps
      have hruns := h.runs
      have hturns : turns composition.loopLength next anchor ≤ 1 :=
        turns_le_one hloop (by linarith)
      obtain ⟨hlands, haccounts⟩ := leg_lands htimed hloop h.toInCycle (h.began.trans hnext)
      have hnow : (scheduler.leg composition cycle anchor next).now = next := rfl
      have hsettled := hlands.settled hturns htimed hloop hlookahead h.toInCycle
        fun role o ho => (h.reached role o ho).trans (add_le_add_left hnext _)
      simp only [legs, List.forall_mem_cons]
      generalize scheduler.leg composition cycle anchor next = leg at hlands haccounts hsettled hnow
      subst hnow
      obtain ⟨hall, hrun⟩ := ih (hlands.lookahead_eq ▸ hlookahead) hsettled hlater
      refine ⟨⟨haccounts, hall⟩, fun role => ?_⟩
      obtain ⟨left, hpasses⟩ := hlands.passes hturns h.toInCycle role
      obtain ⟨passed, hcycles, hhanded, hreported⟩ := hrun role
      rw [hlands.lookahead_eq] at hhanded hreported
      refine ⟨left ++ (leg.reported composition role ++ passed), ?_, ?_, ?_⟩
      · have hle : cycle ≤ leg.cycle := hlands.cycle_eq ▸ Nat.le_add_right _ _
        intro o ho
        rcases List.mem_append.mp ho with hleft | ho
        · exact Composition.cycle_le_of_mem_ahead (hpasses.left_ahead o hleft)
        · rcases List.mem_append.mp ho with hmem | hmem
          · exact hle.trans (hpasses.reported_cycle o hmem)
          · exact hle.trans (hcycles o hmem)
      · rw [← List.append_assoc left, ← List.append_assoc, ← hpasses.handedOut]
        exact hhanded
      · rw [List.flatMap_cons, hreported]
        exact (hpasses.filter_kept (fun o => hlands.lt_endOf hloop) (h.beyond role) hlater
          hcycles).symm

theorem handedOut_rewind (role : Role) : scheduler.rewind.handedOut composition 0 role = [] := by
  rw [handedOut, show scheduler.rewind.heads.get role = Playhead.top from
    PerRole.get_replicate _ role, Composition.handedOut_top, Composition.timeline_zero]

/-- A run from the top of the tracks. -/
theorem legs_rewind_cover (htimed : composition.WellTimed) (hloop : 0 < composition.loopLength)
    (hlookahead : 0 ≤ scheduler.lookahead) (later : List Rat)
    (hgaps : (origin :: later).IsChain fun earlier next =>
      earlier ≤ next ∧ next - earlier < composition.loopLength) :
    let legs := scheduler.rewind.legs composition 0 origin (origin :: later)
    (∀ leg ∈ legs, leg.Accounts composition origin) ∧
      ∀ role, ∃ passed, Covers legs composition role origin scheduler.lookahead
        ((origin :: later).getLast (List.cons_ne_nil _ _)) (origin :: later) [] passed := by
  have hin : scheduler.rewind.InCycle composition origin origin 0 :=
    (prompt_rewind htimed hloop).toInCycle
  have hturns : turns composition.loopLength origin origin ≤ 1 := turns_le_one hloop (by linarith)
  obtain ⟨hlands, haccounts⟩ := leg_lands htimed hloop hin le_rfl
  have hsettled := hlands.settled hturns htimed hloop hlookahead hin
    fun role o ho => absurd (handedOut_rewind role ▸ ho) List.not_mem_nil
  obtain ⟨hall, hrun⟩ := legs_cover htimed hloop (hlands.lookahead_eq ▸ hlookahead) hsettled later
    hgaps
  refine ⟨List.forall_mem_cons.mpr ⟨haccounts, hall⟩, fun role => ?_⟩
  obtain ⟨left, hpasses⟩ := hlands.passes hturns hin role
  obtain ⟨passed, _, hhanded, hreported⟩ := hrun role
  -- The first cycle has not ended as the first tick comes, so nothing of it is left behind.
  have hleft : left = [] := by
    rw [List.eq_nil_iff_forall_not_mem]
    intro o ho
    have hcycle := Composition.cycle_le_of_mem_ahead (hpasses.left_ahead o ho)
    have hruns : origin < composition.endOf origin o :=
      Composition.lt_endOf hloop (by simpa using hloop) hcycle
    exact absurd hruns (hpasses.left_ended o ho).not_gt
  rw [hpasses.handedOut, handedOut_rewind, hleft, List.nil_append, List.nil_append] at hhanded
  rw [hlands.lookahead_eq] at hhanded hreported
  let first := (scheduler.rewind.leg composition 0 origin origin).reported composition role
  have hfirst : first.filter (fun o =>
      decide (composition.Kept origin scheduler.lookahead (origin :: later) o)) = first :=
    List.filter_eq_self.mpr fun o ho => decide_eq_true (hpasses.kept hgaps o ho)
  refine ⟨first ++ passed, hhanded, ?_⟩
  rw [List.filter_append, hfirst]
  exact congrArg (first ++ ·) hreported

/-- Late ticks.  Over a run of ticks from the top of a compiled song, with gaps shorter than the
loop, each tick hands out those of the occurrences it reports whose time is not over and counts the
others as missed.  Each track reports, in order and once each, the occurrences up to the end of the
last lookahead in the cycles up to the one after the current cycle, except those whose cycle ended
between two ticks before the lookahead of the first had come to them.  So what has passed is
reported just if it was not left behind at a turn of the loop. -/
theorem legs_report_all_kept [Scalar γ] [Tuning Rat] (id : Nat) (texts : PerRole String)
    (scheduler : Scheduler Rat) (origin : Rat) (later : List Rat)
    (hloop : 0 < (Composition.compile id texts : Composition Rat γ).loopLength)
    (hlookahead : 0 ≤ scheduler.lookahead)
    (hgaps : (origin :: later).IsChain fun earlier next => earlier ≤ next ∧
      next - earlier < (Composition.compile id texts : Composition Rat γ).loopLength) :
    let composition : Composition Rat γ := Composition.compile id texts
    let times := origin :: later
    let legs := scheduler.rewind.legs composition 0 origin times
    let last := times.getLast (List.cons_ne_nil _ _)
    legs.map Leg.tick = scheduler.rewind.ticks composition origin times ∧
      (∀ leg ∈ legs, leg.Accounts composition origin) ∧
      ∀ role, let reported := legs.flatMap fun leg => leg.reported composition role
        (reported = (composition.timeline role
            (⌊(last - origin) / composition.loopLength⌋₊ + 2)).filter fun o =>
          decide (origin + composition.timeOf o ≤ last + scheduler.lookahead ∧
            composition.Kept origin scheduler.lookahead times o)) ∧
        reported.Nodup ∧
        ∀ o, (composition.tracks.get role)[o.index]? = some o.event →
          origin + composition.timeOf o < last →
            (o ∈ reported ↔ composition.Kept origin scheduler.lookahead times o) := by
  intro composition times legs last
  have htimed : composition.WellTimed := Composition.wellTimed_compile id texts
  obtain ⟨haccounts, hcover⟩ := legs_rewind_cover htimed hloop hlookahead later hgaps
  refine ⟨map_tick_legs .., haccounts, fun role => ?_⟩
  intro reported
  obtain ⟨passed, hpassed, hkept⟩ := hcover role
  have hreported : reported = (composition.timeline role
      (⌊(last - origin) / composition.loopLength⌋₊ + 2)).filter fun o =>
        decide (origin + composition.timeOf o ≤ last + scheduler.lookahead ∧
          composition.Kept origin scheduler.lookahead times o) := by
    rw [List.nil_append] at hpassed
    refine hkept.trans ?_
    rw [hpassed, List.filter_filter]
    refine List.filter_congr fun o _ => ?_
    rw [Bool.decide_and, Bool.and_comm]
  refine ⟨hreported, ?_, ?_⟩
  · rw [hreported]
    exact (Composition.nodup_timeline _).filter _
  · intro o hevent htime
    have hmem := htimed.mem_timeline_of_lt hloop hevent htime
    rw [hreported, List.mem_filter, decide_eq_true_iff]
    constructor
    · exact fun h => h.2.2
    · exact fun h => ⟨hmem, by linarith, h⟩

open Octaves in
/-- Two gaps longer than the lookahead.  The loop turns in the first and its only note goes
unreported; the note falls into the second within its cycle and is counted as missed. -/
theorem legs_report_all_kept_over_turn :
    let composition : Composition Rat Rat := .compile 0 ⟨"r4 r8 a8", "", "", ""⟩
    let legs := (Scheduler.initial (1 / 8)).rewind.legs composition 0 0 [0, 1 / 2, 5 / 4, 15 / 8]
    (0 < composition.loopLength ∧ (0 : Rat) ≤ 1 / 8 ∧
      [0, 1 / 2, 5 / 4, 15 / 8].IsChain fun earlier next =>
        earlier ≤ next ∧ next - earlier < composition.loopLength) ∧
    (legs.flatMap fun leg => leg.reported composition .lead).map
        (fun o => (o.cycle, composition.timeOf o)) = [(1, 7 / 4)] ∧
      legs.map (fun leg => (leg.tick.report.dispatched, leg.tick.report.missed)) =
        [(0, 0), (0, 0), (0, 0), (0, 1)] := by
  intro composition legs
  have hloop : 0 < composition.loopLength := by decide +kernel
  have hlookahead : (0 : Rat) ≤ 1 / 8 := by decide +kernel
  have hgaps : [0, 1 / 2, 5 / 4, 15 / 8].IsChain fun earlier next =>
      earlier ≤ next ∧ next - earlier < composition.loopLength := by decide +kernel
  have hrun := legs_report_all_kept 0 ⟨"r4 r8 a8", "", "", ""⟩ (Scheduler.initial (1 / 8)) 0
    [1 / 2, 5 / 4, 15 / 8] hloop hlookahead hgaps
  refine ⟨⟨hloop, hlookahead, hgaps⟩, ?_, by decide +kernel⟩
  refine (congrArg (List.map _) (hrun.2.2 .lead).1).trans ?_
  decide +kernel

open Octaves in
/-- A late tick that turns the loop neither hands out nor counts the note left behind: it has passed
by then, and nothing has been reported at all. -/
theorem passed_unreported_at_turn :
    let composition : Composition Rat Rat := .compile 0 ⟨"r4 r8 a8", "", "", ""⟩
    let ticks := (Scheduler.initial (1 / 8)).rewind.ticks composition 0 [0, 1 / 2, 5 / 4]
    0 < composition.loopLength ∧ (0 : Rat) ≤ 1 / 8 ∧
      ([0, 1 / 2, 5 / 4].IsChain fun earlier next =>
        earlier ≤ next ∧ next - earlier < composition.loopLength) ∧
      ((composition.timeline .lead 2).filter fun o =>
        decide (composition.timeOf o < 5 / 4)).length = 1 ∧
      (ticks.map fun tick => tick.report.dispatched + tick.report.missed).sum = 0 := by
  decide +kernel

end Scheduler

end Chiptune
