import Chiptune.Proofs.ExtendedTime

/-!
The turn of the loop, one cycle at a time.

A tick finds the current cycle by a division, however many cycles have ended.  Here every cycle ends on
its own: the next begins where it ended, and each track goes on behind what was handed out early.

Main statement: for a loop that has a length, ending cycles one at a time comes to an end, and a tick
that does so is the same as a tick that skips them.
-/
namespace Chiptune

open Extended

variable {τ γ : Type}

namespace Scheduler

section

variable [Scalar τ]

/-- A loop on its way to a clock time: when the cycle began that it has come to, the playheads in that
cycle, and how many cycles have ended, if any has. -/
structure Turning (τ : Type) where
  anchor : τ
  heads : PerRole Playhead
  cycles : Option τ

/-- The end of one cycle. -/
def Turning.next (turning : Turning τ) (loopLength : τ) : Turning τ where
  anchor := turning.anchor + loopLength
  heads := turning.heads.map fun head => ⟨head.carried, 0⟩
  cycles := some (turning.cycles.elim 1 (· + 1))

/-- Ending cycles one at a time, for as long as a whole one has passed, leads from one point of a loop
to another. -/
inductive Turning.ComesTo (loopLength now : τ) : Turning τ → Turning τ → Prop where
  | runs {turning : Turning τ} (hruns : ¬ loopLength ≤ now - turning.anchor) :
    Turning.ComesTo loopLength now turning turning
  | ends {turning final : Turning τ} (hpassed : loopLength ≤ now - turning.anchor)
    (hlater : Turning.ComesTo loopLength now (turning.next loopLength) final) :
    Turning.ComesTo loopLength now turning final

/-- There is one way to end cycles. -/
theorem Turning.ComesTo.unique {loopLength now : τ} {turning first second : Turning τ}
    (hfirst : Turning.ComesTo loopLength now turning first)
    (hsecond : Turning.ComesTo loopLength now turning second) : first = second := by
  induction hfirst with
  | runs hruns =>
      cases hsecond with
      | runs => rfl
      | ends hpassed => exact absurd hpassed hruns
  | ends hpassed _ ih =>
      cases hsecond with
      | runs hruns => exact absurd hpassed hruns
      | ends _ hlater => exact ih hlater

/-- A tick in the cycle that the loop has come to. -/
def Turning.handOut (turning : Turning τ) (scheduler : Scheduler τ) (composition : Composition τ γ)
    (now : τ) : Tick τ γ :=
  let passes := passAll composition turning.heads now turning.anchor (now + scheduler.lookahead)
  let scheduled := passes.toList.flatMap Pass.scheduled
  { scheduler := { scheduler with heads := passes.map Pass.head }
    report := ⟨turning.anchor, turning.cycles.isSome, scheduled.length,
      (passes.map Pass.missed).total⟩
    cycles := turning.cycles
    scheduled }

/-- What a tick that ends cycles one at a time finishes with. -/
def TicksEach (scheduler : Scheduler τ) (composition : Composition τ γ) (now anchor : τ)
    (tick : Tick τ γ) : Prop :=
  ∃ turning, Turning.ComesTo composition.loopLength now ⟨anchor, scheduler.heads, none⟩ turning ∧
    tick = turning.handOut scheduler composition now

theorem TicksEach.unique {scheduler : Scheduler τ} {composition : Composition τ γ} {now anchor : τ}
    {first second : Tick τ γ} (hfirst : scheduler.TicksEach composition now anchor first)
    (hsecond : scheduler.TicksEach composition now anchor second) : first = second := by
  obtain ⟨turning, hcomes, rfl⟩ := hfirst
  obtain ⟨other, hother, rfl⟩ := hsecond
  rw [hcomes.unique hother]

end

variable {length now anchor : Rat}

theorem turns_add_length (hlength : 0 < length) :
    turns length now (anchor + length) = turns length now anchor - 1 := by
  have hquotient : (now - (anchor + length)) / length = (now - anchor) / length - 1 := by
    rw [← sub_sub, sub_div, div_self hlength.ne']
  rw [turns, hquotient, Nat.floor_sub_one, turns]

/-- What was handed out early outlives the end of one cycle and no other. -/
theorem headsAfter_turned (heads : PerRole Playhead) (cycles : Nat) :
    headsAfter (heads.map fun head => ⟨head.carried, 0⟩) cycles = headsAfter heads (cycles + 1) := by
  match cycles with
  | 0 => rfl
  | 1 => rfl
  | n + 2 => rfl

/-- The number of cycles that have ended, as a tick reports it. -/
def countOf (cycles : Nat) : Option Extended := if cycles = 0 then none else some (finite cycles)

theorem elim_countOf (cycles : Nat) : (countOf cycles).elim 1 (· + 1) = finite (cycles + 1 : Nat) := by
  by_cases hcycles : cycles = 0
  · simp [countOf, hcycles, one_eq_finite]
  · simp [countOf, hcycles, one_eq_finite, finite_add_finite]

/-- By induction on the cycles that are still to end. -/
theorem comesTo_finite (hlength : 0 < length) (heads : PerRole Playhead) (ended : Nat) {cycles : Nat}
    (hcycles : turns length now anchor = cycles) :
    Turning.ComesTo (finite length) (finite now) ⟨finite anchor, heads, countOf ended⟩
      ⟨finite (anchor + cycles * length), headsAfter heads cycles, countOf (ended + cycles)⟩ := by
  have hpassed : finite length ≤ finite now - finite anchor ↔ 1 ≤ cycles := by
    rw [finite_sub_finite, finite_le_finite, ← hcycles, one_le_turns_iff hlength]
  induction cycles generalizing anchor heads ended with
  | zero =>
      rw [Nat.cast_zero, zero_mul, add_zero]
      exact .runs fun hle => absurd (hpassed.mp hle) Nat.one_pos.not_ge
  | succ cycles ih =>
      have hrest : turns length now (anchor + length) = cycles := by
        rw [turns_add_length hlength, hcycles, Nat.add_sub_cancel]
      have hnext : Turning.next ⟨finite anchor, heads, countOf ended⟩ (finite length) =
          ⟨finite (anchor + length), heads.map fun head => ⟨head.carried, 0⟩,
            countOf (ended + 1)⟩ := by
        rw [Turning.next, elim_countOf, finite_add_finite]
        rfl
      have hbegun : anchor + length + cycles * length = anchor + (cycles + 1 : Nat) * length := by
        push_cast
        ring
      refine .ends (hpassed.mpr (Nat.le_add_left 1 cycles)) ?_
      have hlater := ih (heads.map fun head => ⟨head.carried, 0⟩) (ended + 1) hrest
        (by rw [finite_sub_finite, finite_le_finite, ← hrest, one_le_turns_iff hlength])
      rw [headsAfter_turned, hbegun, Nat.add_assoc, Nat.add_comm 1] at hlater
      exact hnext ▸ hlater

variable {composition : Composition Extended γ}

/-- A tick hands out in the cycle that ending cycles one at a time comes to. -/
theorem ticksEach_of_length (hlength : 0 < length) (hloop : composition.loopLength = finite length)
    (scheduler : Scheduler Extended) (now anchor : Rat) :
    scheduler.TicksEach composition (finite now) (finite anchor)
      (scheduler.tick composition (finite now) (finite anchor)) := by
  have hturned := comesTo_finite hlength scheduler.heads 0 (rfl : turns length now anchor = _)
  rw [Nat.zero_add] at hturned
  refine ⟨_, hloop ▸ hturned, ?_⟩
  rw [tick_of_length hlength hloop]
  by_cases hcycles : turns length now anchor = 0
  · simp [Turning.handOut, countOf, hcycles]
  · simp [Turning.handOut, countOf, hcycles]

/-- The turn of the loop in one step.  For a loop of some length, and whatever the playheads, the
lookahead and the time since the anchor, a tick that ends cycles one at a time finishes, and with the
report, notes and playheads of a tick that skips them all at once.  The cycle that is then current
began a whole number of loops after the anchor and runs at the time of the tick, and the report says
that the loop came round if that number is not zero. -/
theorem ticksEach_iff_eq_tick (composition : Composition Extended γ) (scheduler : Scheduler Extended)
    {length now anchor : Rat} (hlength : 0 < length)
    (hloop : composition.loopLength = finite length) (hbegan : anchor ≤ now) :
    let tick := scheduler.tick composition (finite now) (finite anchor)
    (∀ outcome, scheduler.TicksEach composition (finite now) (finite anchor) outcome ↔
      outcome = tick) ∧
      ∃ (cycles : Nat) (begun : Rat), tick.report.anchor = finite begun ∧
        begun = anchor + cycles * length ∧ 0 ≤ now - begun ∧ now - begun < length ∧
        (tick.report.wrapped = true ↔ 1 ≤ cycles) := by
  intro tick
  have heach := ticksEach_of_length hlength hloop scheduler now anchor
  have htick : tick = _ := tick_of_length hlength hloop scheduler now anchor
  have hbegun : anchor + turns length now anchor * length ≤ now := turns_mul_le hlength hbegan
  have hruns : now < anchor + (turns length now anchor + 1) * length := lt_turns_succ_mul hlength
  refine ⟨fun outcome => ⟨fun houtcome => houtcome.unique heach, fun heq => heq ▸ heach⟩,
    turns length now anchor, _, congrArg (fun tick => tick.report.anchor) htick, rfl, by linarith,
    by linarith, ?_⟩
  rw [htick]
  simp [Nat.one_le_iff_ne_zero]

open Octaves in
/-- A loop of five quarters of a second.  On the turn of the loop what was handed out early counts;
three loops later, to the moment, it does not. -/
theorem ticksEach_iff_eq_tick_on_turns :
    let composition : Composition Extended Rat := .compile 0 ⟨"a8 r a", "", "", "k"⟩
    let scheduler : Scheduler Extended := ⟨finite (1 / 4), .replicate ⟨2, 1⟩⟩
    let next := scheduler.tick composition (finite (45 / 4)) (finite 10)
    let later := scheduler.tick composition (finite 15) (finite (45 / 4))
    (composition.loopLength = finite (5 / 4) ∧ (10 : Rat) ≤ 45 / 4 ∧ (45 / 4 : Rat) ≤ 15) ∧
      (scheduler.TicksEach composition (finite (45 / 4)) (finite 10) next ∧
        scheduler.TicksEach composition (finite 15) (finite (45 / 4)) later) ∧
      (next.report.anchor = finite (45 / 4) ∧ next.report.dispatched = 0) ∧
      later.report.anchor = finite 15 ∧ later.report.dispatched = 2 := by
  intro composition scheduler next later
  have hloop : composition.loopLength = finite (5 / 4) := by decide +kernel
  have hnext := ticksEach_iff_eq_tick composition scheduler (by norm_num) hloop
    (show (10 : Rat) ≤ 45 / 4 by norm_num)
  have hlater := ticksEach_iff_eq_tick composition scheduler (by norm_num) hloop
    (show (45 / 4 : Rat) ≤ 15 by norm_num)
  refine ⟨⟨hloop, by norm_num, by norm_num⟩, ⟨(hnext.1 next).mpr rfl, (hlater.1 later).mpr rfl⟩,
    ?_, ?_⟩
  · decide +kernel
  · decide +kernel

end Scheduler

end Chiptune
