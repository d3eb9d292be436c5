import Chiptune.Proofs.Tick

/-!
Ticks that follow one another closely hand out every occurrence exactly once.

Main statement: from the top of the tracks, and with gaps of at most the lookahead and one loop
between ticks, nothing is missed, and each track has handed out exactly the occurrences up to the end
of the last lookahead, as far as the cycle after the current one.
-/
namespace Chiptune

variable {γ : Type}

namespace Scheduler

/-- Ticks at a list of clock times, each with the anchor that the one before it reported. -/
def ticks {τ : Type} [Scalar τ] (scheduler : Scheduler τ) (composition : Composition τ γ) :
    τ → List τ → List (Tick τ γ)
  | _, [] => []
  | anchor, now :: later =>
    let tick := scheduler.tick composition now anchor
    tick :: tick.scheduler.ticks composition tick.report.anchor later

/-- Where a scheduler stands after timely ticks only: what it has handed out comes up to the end of
the lookahead, and the rest lies beyond. -/
structure Settled (scheduler : Scheduler Rat) (composition : Composition Rat γ)
    (origin anchor now : Rat) (cycle : Nat) : Prop
    extends scheduler.Clear composition origin anchor now cycle where
  reached : ∀ role, ∀ o ∈ scheduler.handedOut composition cycle role,
    origin + composition.timeOf o ≤ now + scheduler.lookahead

variable {scheduler : Scheduler Rat} {composition : Composition Rat γ}
  {origin anchor now next : Rat} {cycle : Nat}

/-- What has been handed out is all that comes up to the end of the lookahead. -/
theorem Settled.handedOut_eq (h : scheduler.Settled composition origin anchor now cycle)
    (role : Role) :
    scheduler.handedOut composition cycle role =
      (composition.timeline role (cycle + 2)).filter fun o =>
        decide (origin + composition.timeOf o ≤ now + scheduler.lookahead) := by
  rw [← h.handedOut_append_ahead role]
  symm
  apply filter_append_of_turn
  · intro o ho
    exact decide_eq_true (h.reached role o ho)
  · intro o ho
    simpa using h.beyond role o ho

/-- The cycle is the number of whole loops that have gone by. -/
theorem Settled.cycle_eq (h : scheduler.Settled composition origin anchor now cycle)
    (hloop : 0 < composition.loopLength) :
    cycle = ⌊(now - origin) / composition.loopLength⌋₊ := by
  have hanchor := h.anchor_eq
  have hbegan := h.began
  have hruns := h.runs
  have hcycle : 0 ≤ cycle * composition.loopLength := by positivity
  have hquotient : 0 ≤ (now - origin) / composition.loopLength :=
    div_nonneg (by linarith) hloop.le
  symm
  rw [Nat.floor_eq_iff hquotient, le_div_iff₀ hloop, div_lt_iff₀ hloop]
  constructor <;> linarith

theorem HandsOut.settled {tick : Tick Rat γ} {cycle' : Nat}
    (h : HandsOut tick scheduler composition origin now cycle cycle')
    (hreached : ∀ role, ∀ o ∈ scheduler.handedOut composition cycle role,
      origin + composition.timeOf o ≤ now + scheduler.lookahead) :
    tick.scheduler.Settled composition origin tick.report.anchor now cycle' where
  toClear := h.clear
  reached role o ho := by
    obtain ⟨reached, hhanded, _, htimes⟩ := h.handedOut role
    rw [h.lookahead]
    rw [hhanded] at ho
    rcases List.mem_append.mp ho with hold | hnew
    · exact hreached role o hold
    · exact (htimes o hnew).2

/-- Where a run of timely ticks leads, and what it hands out of each track on the way. -/
structure RunsTo (ticks : List (Tick Rat γ)) (composition : Composition Rat γ)
    (origin lookahead last : Rat) (before : Role → List (Occurrence γ)) : Prop where
  missed : ∀ tick ∈ ticks, tick.report.missed = 0
  handedOut : ∀ role, (before role).map (composition.scheduledAt role origin) ++
      ticks.flatMap (fun tick => tick.ofRole role) =
    ((composition.timeline role (⌊(last - origin) / composition.loopLength⌋₊ + 2)).filter
      fun o => decide (origin + composition.timeOf o ≤ last + lookahead)).map
        (composition.scheduledAt role origin)

theorem ticks_runsTo (htimed : composition.WellTimed) (hloop : 0 < composition.loopLength)
    (h : scheduler.Settled composition origin anchor now cycle) (later : List Rat)
    (hgaps : (now :: later).IsChain fun earlier next =>
      earlier ≤ next ∧ next - earlier ≤ min scheduler.lookahead composition.loopLength) :
    RunsTo (scheduler.ticks composition anchor later) composition origin scheduler.lookahead
      ((now :: later).getLast (List.cons_ne_nil _ _))
      (scheduler.handedOut composition cycle) := by
  induction later generalizing scheduler anchor now cycle with
  | nil =>
      refine ⟨by simp [ticks], ?_⟩
      intro role
      rw [List.getLast_singleton, ← h.cycle_eq hloop, h.handedOut_eq role]
      simp [ticks]
  | cons next later ih =>
      rw [List.isChain_cons_cons] at hgaps
      obtain ⟨⟨hnext, hgap⟩, hlater⟩ := hgaps
      have htick := tick_handsOut htimed hloop (h.toClear.prompt_later hnext hgap)
      have hsettled := htick.settled fun role o ho =>
        (h.reached role o ho).trans (by linarith)
      rw [← htick.lookahead] at hlater
      have hrun := ih hsettled hlater
      refine ⟨?_, ?_⟩
      · intro tick hmem
        rcases List.mem_cons.mp hmem with rfl | hmem
        · exact htick.missed
        · exact hrun.missed tick hmem
      · intro role
        obtain ⟨reached, hhanded, hofRole, _⟩ := htick.handedOut role
        have hrest := hrun.handedOut role
        rw [htick.lookahead, hhanded, List.map_append, List.append_assoc, ← hofRole] at hrest
        simpa [ticks] using hrest

/-- From the top of the tracks a first tick at the start of the loop is timely. -/
theorem prompt_rewind (htimed : composition.WellTimed) (hloop : 0 < composition.loopLength) :
    scheduler.rewind.Prompt composition origin origin origin 0 := by
  have hvalid (role : Role) :
      (scheduler.rewind.heads.get role).Valid (composition.tracks.get role).length :=
    valid_rewind scheduler composition role
  refine ⟨⟨by simp, hvalid⟩, le_rfl, by linarith, ?_, fun hturn => by linarith⟩
  intro role o ho
  have hmem : o ∈ composition.timeline role 2 := by
    rw [← Composition.handedOut_append_ahead (hvalid role)]
    exact List.mem_append_right _ ho
  linarith [htimed.timeOf_nonneg hloop hmem]

/-- Exactly-once scheduling.  Ticks from the top of a compiled song, with gaps of at most the
lookahead and one loop, miss nothing.  After the last of them each track has handed out, once and at
its own time, every occurrence that comes up to the end of the lookahead in the cycles up to the one
after the current cycle, and nothing else. -/
theorem ticks_handOut_exactly_once [Scalar γ] [Tuning Rat] (id : Nat) (texts : PerRole String)
    (scheduler : Scheduler Rat) (origin : Rat) (later : List Rat)
    (hloop : 0 < (Composition.compile id texts : Composition Rat γ).loopLength)
    (hgaps : (origin :: later).IsChain fun earlier next => earlier ≤ next ∧
      next - earlier ≤ min scheduler.lookahead
        (Composition.compile id texts : Composition Rat γ).loopLength) :
    let composition : Composition Rat γ := Composition.compile id texts
    let ticks := scheduler.rewind.ticks composition origin (origin :: later)
    let last := (origin :: later).getLast (List.cons_ne_nil _ _)
    (∀ tick ∈ ticks, tick.report.missed = 0) ∧
      ∀ role, (ticks.flatMap Tick.scheduled).filter
          (fun scheduled => decide (scheduled.role = role)) =
        ((composition.timeline role (⌊(last - origin) / composition.loopLength⌋₊ + 2)).filter
          fun o => decide (origin + composition.timeOf o ≤ last + scheduler.lookahead)).map
            (composition.scheduledAt role origin) := by
  intro composition ticks last
  have htimed : composition.WellTimed := Composition.wellTimed_compile id texts
  have hprompt : scheduler.rewind.Prompt composition origin origin origin 0 :=
    prompt_rewind htimed hloop
  have hfirst := tick_handsOut htimed hloop hprompt
  have hnothing (role : Role) : scheduler.rewind.handedOut composition 0 role = [] := by
    rw [handedOut, show scheduler.rewind.heads.get role = Playhead.top from
      PerRole.get_replicate _ role, Composition.handedOut_top, Composition.timeline_zero]
  have hsettled := hfirst.settled fun role o ho => absurd (hnothing role ▸ ho) List.not_mem_nil
  have hrun := ticks_runsTo htimed hloop hsettled later (hfirst.lookahead ▸ hgaps)
  refine ⟨?_, ?_⟩
  · intro tick hmem
    rcases List.mem_cons.mp hmem with rfl | hmem
    · exact hfirst.missed
    · exact hrun.missed tick hmem
  · intro role
    obtain ⟨reached, hhanded, hofRole, _⟩ := hfirst.handedOut role
    have hlater := hrun.handedOut role
    rw [hfirst.lookahead, hhanded, hnothing, List.nil_append, ← hofRole] at hlater
    rw [List.filter_flatMap]
    exact hlater

open Octaves in
/-- A loop of five quarters of a second, with ticks on each turn of the loop and a lookahead that is
longer than the loop. -/
theorem ticks_handOut_at_each_turn :
    let composition : Composition Rat Rat := .compile 0 ⟨"a8 r a", "", "", "k"⟩
    let ticks := (Scheduler.initial (3 / 2)).rewind.ticks composition 10 [10, 45 / 4, 25 / 2]
    (0 < composition.loopLength ∧ [10, 45 / 4, 25 / 2].IsChain fun earlier next =>
      earlier ≤ next ∧ next - earlier ≤ min (3 / 2) composition.loopLength) ∧
    (∀ tick ∈ ticks, tick.report.missed = 0) ∧
      ((ticks.flatMap Tick.scheduled).filter
        (fun scheduled => decide (scheduled.role = .lead))).map Scheduled.time =
          [10, 43 / 4, 45 / 4, 12, 25 / 2, 53 / 4, 55 / 4] := by
  intro composition ticks
  have hloop : 0 < composition.loopLength := by decide +kernel
  have hgaps : [10, 45 / 4, 25 / 2].IsChain fun earlier next =>
      earlier ≤ next ∧ next - earlier ≤ min (3 / 2) composition.loopLength := by decide +kernel
  have hrun := ticks_handOut_exactly_once 0 ⟨"a8 r a", "", "", "k"⟩ (Scheduler.initial (3 / 2)) 10
    [45 / 4, 25 / 2] hloop hgaps
  refine ⟨⟨hloop, hgaps⟩, hrun.1, ?_⟩
  refine (congrArg (List.map Scheduled.time) (hrun.2 .lead)).trans ?_
  decide +kernel

end Scheduler

end Chiptune
