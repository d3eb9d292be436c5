import Chiptune.Proofs.Lookahead

/-!
What a tick does to all tracks, told on the time line.

Main statement: a tick that comes before anything ahead is past its time misses nothing, loses
nothing at the turn of the loop, and hands out all that is ahead up to the end of the lookahead, as
far as the next cycle.
-/
namespace Chiptune

variable {γ : Type}

def Tick.ofRole (tick : Tick Rat γ) (role : Role) : List (Scheduled Rat γ) :=
  tick.scheduled.filter fun scheduled => decide (scheduled.role = role)

namespace Scheduler

/-- Whole cycles between an anchor and a clock time. -/
def turns (loopLength now anchor : Rat) : Nat := ⌊(now - anchor) / loopLength⌋₊

/-- Playheads after a number of cycles have ended. -/
def headsAfter (heads : PerRole Playhead) : Nat → PerRole Playhead
  | 0 => heads
  | 1 => heads.map fun head => ⟨head.carried, 0⟩
  | _ => .replicate .top

variable {loopLength now anchor : Rat}

theorem turns_mul_le (hloop : 0 < loopLength) (hnow : anchor ≤ now) :
    anchor + turns loopLength now anchor * loopLength ≤ now := by
  have hquotient : 0 ≤ (now - anchor) / loopLength := div_nonneg (by linarith) hloop.le
  have hfloor := (le_div_iff₀ hloop).mp (Nat.floor_le hquotient)
  unfold turns
  linarith

theorem lt_turns_succ_mul (hloop : 0 < loopLength) :
    now < anchor + (turns loopLength now anchor + 1) * loopLength := by
  have hfloor := (div_lt_iff₀ hloop).mp (Nat.lt_floor_add_one ((now - anchor) / loopLength))
  unfold turns
  linarith

theorem one_le_turns_iff (hloop : 0 < loopLength) :
    1 ≤ turns loopLength now anchor ↔ loopLength ≤ now - anchor := by
  rw [turns, Nat.one_le_floor_iff, one_le_div₀ hloop]

theorem turns_le_one (hloop : 0 < loopLength) (hnow : now < anchor + 2 * loopLength) :
    turns loopLength now anchor ≤ 1 := by
  have hquotient : (now - anchor) / loopLength < (2 : Nat) := by
    rw [div_lt_iff₀ hloop]
    push_cast
    linarith
  have hfloor := (Nat.floor_lt' two_ne_zero).mpr hquotient
  unfold turns
  omega

theorem cyclesPassed_eq (hloop : 0 < loopLength) :
    cyclesPassed loopLength now anchor =
      if turns loopLength now anchor = 0 then none
      else some (turns loopLength now anchor : Rat) := by
  have hone : 1 ≤ turns loopLength now anchor ↔ loopLength ≤ now - anchor :=
    one_le_turns_iff hloop
  change (if loopLength ≤ now - anchor then
    some (Scalar.atLeast 1 (Scalar.floor ((now - anchor) / loopLength))) else none) = _
  by_cases hle : loopLength ≤ now - anchor
  · have hturns : 1 ≤ turns loopLength now anchor := hone.mpr hle
    have hquotient : 0 ≤ (now - anchor) / loopLength := div_nonneg (hloop.le.trans hle) hloop.le
    have hfloor : Scalar.floor ((now - anchor) / loopLength) =
        (turns loopLength now anchor : Rat) := (natCast_floor_eq_intCast_floor hquotient).symm
    have hcast : (1 : Rat) ≤ turns loopLength now anchor := by exact_mod_cast hturns
    rw [if_pos hle, hfloor, if_neg (Nat.one_le_iff_ne_zero.mp hturns)]
    unfold Scalar.atLeast
    split
    · rfl
    · next hnot => exact congrArg some (le_antisymm hcast (not_lt.mp hnot))
  · have hturns : turns loopLength now anchor = 0 := by
      by_contra hne
      exact hle (hone.mp (Nat.one_le_iff_ne_zero.mpr hne))
    rw [if_neg hle, if_pos hturns]

theorem nextCycle_eq (heads : PerRole Playhead) {cycles : Nat} (hcycles : cycles ≠ 0) :
    nextCycle (cycles : Rat) heads = headsAfter heads cycles := by
  unfold nextCycle
  match cycles, hcycles with
  | 1, _ => rfl
  | n + 2, _ =>
      have hne : ((n + 2 : Nat) : Rat) ≠ 1 := by
        norm_cast
        omega
      exact if_neg (by simpa using hne)

variable {composition : Composition Rat γ}

/-- A tick of a loop that has a length. -/
theorem tick_eq (scheduler : Scheduler Rat) (hloop : 0 < composition.loopLength) :
    scheduler.tick composition now anchor =
      let cycles := turns composition.loopLength now anchor
      let begun := anchor + cycles * composition.loopLength
      let passes := passAll composition (headsAfter scheduler.heads cycles) now begun
        (now + scheduler.lookahead)
      let scheduled := passes.toList.flatMap Pass.scheduled
      { scheduler := { scheduler with heads := passes.map Pass.head }
        report := ⟨begun, decide (cycles ≠ 0), scheduled.length,
          (passes.map Pass.missed).total⟩
        cycles := if cycles = 0 then none else some (cycles : Rat)
        scheduled } := by
  have hdegenerate : composition.isDegenerate = false := by
    simp [Composition.isDegenerate, Scalar.isNaN, hloop]
  unfold tick
  rw [hdegenerate, cyclesPassed_eq hloop]
  by_cases hcycles : turns composition.loopLength now anchor = 0
  · simp [hcycles, headsAfter]
  · simp [hcycles, nextCycle_eq]

/-- What a scheduler in some cycle has handed out of a track since the first cycle began. -/
def handedOut (scheduler : Scheduler Rat) (composition : Composition Rat γ) (cycle : Nat)
    (role : Role) : List (Occurrence γ) :=
  composition.handedOut role cycle (scheduler.heads.get role)

/-- What is left of a track in the current cycle and in the next. -/
def ahead (scheduler : Scheduler Rat) (composition : Composition Rat γ) (cycle : Nat)
    (role : Role) : List (Occurrence γ) :=
  composition.ahead role cycle (scheduler.heads.get role)

/-- The scheduler is in a cycle, counted from the clock time at which musical time began. -/
structure InCycle (scheduler : Scheduler Rat) (composition : Composition Rat γ)
    (origin anchor : Rat) (cycle : Nat) : Prop where
  anchor_eq : anchor = origin + cycle * composition.loopLength
  valid : ∀ role, (scheduler.heads.get role).Valid (composition.tracks.get role).length

theorem InCycle.handedOut_append_ahead {scheduler : Scheduler Rat} {origin : Rat} {cycle : Nat}
    (h : scheduler.InCycle composition origin anchor cycle) (role : Role) :
    scheduler.handedOut composition cycle role ++ scheduler.ahead composition cycle role =
      composition.timeline role (cycle + 2) :=
  Composition.handedOut_append_ahead (h.valid role)

/-- A tick at a clock time comes before anything ahead is past its time, and at the turn of the loop
before anything ahead is due. -/
structure Prompt (scheduler : Scheduler Rat) (composition : Composition Rat γ)
    (origin anchor now : Rat) (cycle : Nat) : Prop
    extends scheduler.InCycle composition origin anchor cycle where
  began : anchor ≤ now
  soon : now < anchor + 2 * composition.loopLength
  due : ∀ role, ∀ o ∈ scheduler.ahead composition cycle role,
    now ≤ origin + composition.timeOf o
  turn : anchor + composition.loopLength ≤ now →
    ∀ role, ∀ o ∈ scheduler.ahead composition cycle role, now < origin + composition.timeOf o

/-- Where a timely tick leaves a scheduler: the current cycle runs, and all that is ahead lies beyond
the lookahead. -/
structure Clear (scheduler : Scheduler Rat) (composition : Composition Rat γ)
    (origin anchor now : Rat) (cycle : Nat) : Prop
    extends scheduler.InCycle composition origin anchor cycle where
  began : anchor ≤ now
  runs : now < anchor + composition.loopLength
  due : ∀ role, ∀ o ∈ scheduler.ahead composition cycle role,
    now ≤ origin + composition.timeOf o
  beyond : ∀ role, ∀ o ∈ scheduler.ahead composition cycle role,
    now + scheduler.lookahead < origin + composition.timeOf o

section

variable {scheduler : Scheduler Rat} {origin : Rat} {cycle : Nat}

/-- A tick at once is timely. -/
theorem Clear.prompt (h : scheduler.Clear composition origin anchor now cycle) :
    scheduler.Prompt composition origin anchor now cycle where
  toInCycle := h.toInCycle
  began := h.began
  soon := by
    have hbegan := h.began
    have hruns := h.runs
    linarith
  due := h.due
  turn hturn := absurd h.runs hturn.not_gt

/-- The next tick is timely if it comes within the lookahead and within one loop. -/
theorem Clear.prompt_later (h : scheduler.Clear composition origin anchor now cycle) {next : Rat}
    (hnext : now ≤ next) (hgap : next - now ≤ min scheduler.lookahead composition.loopLength) :
    scheduler.Prompt composition origin anchor next cycle where
  toInCycle := h.toInCycle
  began := h.began.trans hnext
  soon := by
    have hruns := h.runs
    have hloop := hgap.trans (min_le_right _ _)
    linarith
  due role o ho := by
    have hbeyond := h.beyond role o ho
    have hlookahead := hgap.trans (min_le_left _ _)
    linarith
  turn _ role o ho := by
    have hbeyond := h.beyond role o ho
    have hlookahead := hgap.trans (min_le_left _ _)
    linarith

/-- At the turn of the loop every track has handed out the whole cycle. -/
theorem Prompt.cursor_eq (h : scheduler.Prompt composition origin anchor now cycle)
    (htimed : composition.WellTimed) (hturn : anchor + composition.loopLength ≤ now)
    (role : Role) :
    (scheduler.heads.get role).cursor = (composition.tracks.get role).length := by
  by_contra hne
  have hcursor := (h.valid role).cursor_le
  have hpos : 0 < ((composition.cycleOf role cycle).drop
      (scheduler.heads.get role).cursor).length := by
    rw [List.length_drop, Composition.length_cycleOf]
    omega
  have hmem := List.getElem_mem hpos
  have hdue := h.turn hturn role _ (List.mem_append_left _ hmem)
  have hle := htimed.timeOf_le (List.mem_of_mem_drop hmem)
  have hanchor := h.anchor_eq
  linarith

/-- The playheads after the turn of the loop have handed out the same, and nothing ahead of them is
past its time. -/
theorem Prompt.headsAfter (h : scheduler.Prompt composition origin anchor now cycle)
    (htimed : composition.WellTimed) (hloop : 0 < composition.loopLength) (role : Role) :
    let cycles := turns composition.loopLength now anchor
    let head := (Scheduler.headsAfter scheduler.heads cycles).get role
    head.Valid (composition.tracks.get role).length ∧
      composition.handedOut role (cycle + cycles) head =
        scheduler.handedOut composition cycle role ∧
      ∀ o ∈ composition.ahead role (cycle + cycles) head,
        now ≤ origin + composition.timeOf o := by
  intro cycles head
  have hle : cycles ≤ 1 := turns_le_one hloop h.soon
  rcases Nat.le_one_iff_eq_zero_or_eq_one.mp hle with hzero | hone
  · simp only [head, hzero, Scheduler.headsAfter, Nat.add_zero]
    exact ⟨h.valid role, rfl, h.due role⟩
  · have hturn : anchor + composition.loopLength ≤ now := by
      have hpassed : composition.loopLength ≤ now - anchor :=
        (one_le_turns_iff hloop).mp hone.ge
      linarith
    have hcursor := h.cursor_eq htimed hturn role
    simp only [head, hone, Scheduler.headsAfter, PerRole.get_map]
    refine ⟨(h.valid role).turned, Composition.handedOut_next hcursor, ?_⟩
    intro o ho
    rcases Composition.mem_ahead_next hcursor ho with hahead | hlater
    · exact h.due role o hahead
    · have hstart := htimed.le_timeOf hlater
      have hanchor := h.anchor_eq
      have hsoon := h.soon
      push_cast at hstart
      linarith

/-- What a timely tick does: it hands out, of every track, what is ahead up to the end of the
lookahead, and misses nothing. -/
structure HandsOut (tick : Tick Rat γ) (scheduler : Scheduler Rat)
    (composition : Composition Rat γ) (origin now : Rat) (cycle next : Nat) : Prop where
  clear : tick.scheduler.Clear composition origin tick.report.anchor now next
  lookahead : tick.scheduler.lookahead = scheduler.lookahead
  missed : tick.report.missed = 0
  handedOut : ∀ role, ∃ reached : List (Occurrence γ),
    tick.scheduler.handedOut composition next role =
      scheduler.handedOut composition cycle role ++ reached ∧
    tick.ofRole role = reached.map (composition.scheduledAt role origin) ∧
    ∀ o ∈ reached, now ≤ origin + composition.timeOf o ∧
      origin + composition.timeOf o ≤ now + scheduler.lookahead

theorem role_of_mem_pass {τ : Type} [Scalar τ] {role : Role} {events : List (NoteEvent τ γ)}
    {head : Playhead} {now anchor loopLength horizon : τ} {scheduled : Scheduled τ γ}
    (h : scheduled ∈ (pass role events head now anchor loopLength horizon).scheduled) :
    scheduled.role = role := by
  simp only [pass, List.mem_append, List.mem_map] at h
  rcases h with ⟨event, _, rfl⟩ | ⟨event, _, rfl⟩
  · rfl
  · rfl

/-- What is handed out of a track comes from the pass over that track. -/
theorem filter_role_passAll {τ : Type} [Scalar τ] {composition : Composition τ γ}
    (heads : PerRole Playhead) (now anchor horizon : τ) (role : Role) :
    let passes := passAll composition heads now anchor horizon
    (passes.toList.flatMap Pass.scheduled).filter
        (fun scheduled => decide (scheduled.role = role)) = (passes.get role).scheduled := by
  intro passes
  have hrole (role : Role) : ∀ scheduled ∈ (passes.get role).scheduled,
      scheduled.role = role := by
    rw [show passes.get role = _ from PerRole.get_ofRole _ role]
    intro scheduled hmem
    exact role_of_mem_pass hmem
  have hfilter (other : Role) : (passes.get other).scheduled.filter
      (fun scheduled => decide (scheduled.role = role)) =
        if other = role then (passes.get other).scheduled else [] := by
    split
    · next heq =>
        rw [List.filter_eq_self]
        intro scheduled hmem
        exact decide_eq_true ((hrole other scheduled hmem).trans heq)
    · next hne =>
        rw [List.filter_eq_nil_iff]
        intro scheduled hmem
        simpa [hrole other scheduled hmem] using hne
  have hlead := hfilter .lead
  have hharmony := hfilter .harmony
  have hbass := hfilter .bass
  have hpercussion := hfilter .percussion
  simp only [PerRole.get] at hlead hharmony hbass hpercussion
  cases role <;> simp [PerRole.toList, PerRole.get, hlead, hharmony, hbass, hpercussion]

/-- What all passes together hand out and miss. -/
theorem length_add_total {τ : Type} {passes : PerRole (Pass τ γ)} {counts : Role → Nat}
    (h : ∀ role, (passes.get role).scheduled.length + (passes.get role).missed = counts role) :
    (passes.toList.flatMap Pass.scheduled).length + (passes.map Pass.missed).total =
      (PerRole.ofRole counts).total := by
  have hlead := h .lead
  have hharmony := h .harmony
  have hbass := h .bass
  have hpercussion := h .percussion
  simp only [PerRole.get] at hlead hharmony hbass hpercussion
  simp only [PerRole.toList, PerRole.map, PerRole.total, PerRole.ofRole, List.flatMap_cons,
    List.flatMap_nil, List.append_nil, List.length_append]
  omega

/-- The occurrences ahead are those reached and those ahead of the playhead moved on. -/
theorem ahead_of_reaches {role : Role} {head : Playhead} {pass : Pass Rat γ} {horizon : Rat}
    (hvalid : head.Valid (composition.tracks.get role).length)
    (hpass : pass.Reaches composition role cycle head origin now
      (composition.reach role cycle head origin horizon)) :
    composition.ahead role cycle pass.head =
      (composition.ahead role cycle head).dropWhile fun o =>
        decide (origin + composition.timeOf o ≤ horizon) := by
  have hbefore : composition.handedOut role cycle head ++ composition.ahead role cycle head =
      composition.timeline role (cycle + 2) := Composition.handedOut_append_ahead hvalid
  have hafter : composition.handedOut role cycle pass.head ++
      composition.ahead role cycle pass.head = composition.timeline role (cycle + 2) :=
    Composition.handedOut_append_ahead hpass.valid
  rw [hpass.handedOut, ← hbefore, List.append_assoc, List.append_cancel_left_eq,
    Composition.reach] at hafter
  conv_rhs at hafter =>
    rw [← List.takeWhile_append_dropWhile (p := fun o =>
      decide (origin + composition.timeOf o ≤ horizon)) (l := composition.ahead role cycle head)]
  exact List.append_cancel_left hafter

theorem tick_handsOut (htimed : composition.WellTimed) (hloop : 0 < composition.loopLength)
    (h : scheduler.Prompt composition origin anchor now cycle) :
    HandsOut (scheduler.tick composition now anchor) scheduler composition origin now cycle
      (cycle + turns composition.loopLength now anchor) := by
  have hbegun : anchor + turns composition.loopLength now anchor * composition.loopLength =
      origin + ((cycle + turns composition.loopLength now anchor : Nat) : Rat) *
        composition.loopLength := by
    rw [h.anchor_eq]
    push_cast
    ring
  have hbegan : anchor + turns composition.loopLength now anchor * composition.loopLength ≤ now :=
    turns_mul_le hloop h.began
  have hruns : now < anchor +
      (turns composition.loopLength now anchor + 1) * composition.loopLength :=
    lt_turns_succ_mul hloop
  rw [tick_eq scheduler hloop]
  generalize hcycles : turns composition.loopLength now anchor = cycles at hbegun hbegan hruns
  have hheads := h.headsAfter htimed hloop
  rw [hcycles] at hheads
  have hnow : now < origin + (((cycle + cycles : Nat) : Rat) + 1) * composition.loopLength := by
    linarith
  rw [hbegun] at hbegan
  dsimp only
  rw [hbegun]
  let passes := passAll composition (Scheduler.headsAfter scheduler.heads cycles) now
    (origin + ((cycle + cycles : Nat) : Rat) * composition.loopLength) (now + scheduler.lookahead)
  let reached (role : Role) := composition.reach role (cycle + cycles)
    ((Scheduler.headsAfter scheduler.heads cycles).get role) origin (now + scheduler.lookahead)
  have hpass (role : Role) : (passes.get role).Reaches composition role (cycle + cycles)
      ((Scheduler.headsAfter scheduler.heads cycles).get role) origin now (reached role) := by
    rw [show passes.get role = _ from PerRole.get_ofRole _ role]
    exact pass_reaches htimed (hheads role).1 hnow.le
  have hdue (role : Role) : ∀ o ∈ reached role, now ≤ origin + composition.timeOf o :=
    fun o ho => (hheads role).2.2 o ((List.takeWhile_prefix _).subset ho)
  have htimely (role : Role) := (hpass role).of_timely (hdue role)
  have hhead (role : Role) : (passes.map Pass.head).get role = (passes.get role).head :=
    PerRole.get_map _ _ role
  have hahead (role : Role) : composition.ahead role (cycle + cycles) (passes.get role).head =
      (composition.ahead role (cycle + cycles)
        ((Scheduler.headsAfter scheduler.heads cycles).get role)).dropWhile fun o =>
          decide (origin + composition.timeOf o ≤ now + scheduler.lookahead) :=
    ahead_of_reaches (hheads role).1 (hpass role)
  refine
    { clear :=
        { anchor_eq := rfl
          valid := fun role => hhead role ▸ (hpass role).valid
          began := hbegan
          runs := by dsimp only; linarith
          due := ?_
          beyond := ?_ }
      lookahead := rfl
      missed := ?_
      handedOut := ?_ }
  · intro role o ho
    rw [Scheduler.ahead, hhead role, hahead role] at ho
    exact (hheads role).2.2 o ((List.dropWhile_suffix _).subset ho)
  · intro role o ho
    rw [Scheduler.ahead, hhead role, hahead role] at ho
    refine not_le.mp fun hle => not_of_mem_dropWhile ?_ ho (decide_eq_true hle)
    apply (htimed.sorted_ahead hloop (hheads role).1).imp
    intro a b hab hb
    exact decide_eq_true (by linarith [of_decide_eq_true hb])
  · apply PerRole.total_eq_zero
    intro role
    rw [PerRole.get_map]
    exact (htimely role).2
  · intro role
    refine ⟨reached role, ?_, ?_, ?_⟩
    · rw [← (hheads role).2.1, ← (hpass role).handedOut, ← hhead role]
      rfl
    · rw [← (htimely role).1]
      exact filter_role_passAll _ _ _ _ role
    · intro o ho
      exact ⟨hdue role o ho, of_decide_eq_true (List.mem_takeWhile_imp
        (p := fun o : Occurrence γ =>
          decide (origin + composition.timeOf o ≤ now + scheduler.lookahead)) ho)⟩

end

end Scheduler

end Chiptune
