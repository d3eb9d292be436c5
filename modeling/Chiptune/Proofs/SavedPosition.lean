import Chiptune.Proofs.Requests

/-!
Where a stopped sequencer goes on.

Main statement: the saved position is inside the loop in which playback paused, whatever song is
loaded afterwards, and a start folds it into the loop of the song that is current then.
-/
namespace Chiptune

open Extended

variable {γ : Type} [Scalar γ]

/-- A sequencer, and the length of the loop in which it paused last.  Before any pause and after a
reset this is zero: such a loop has no position but zero. -/
structure Bookmarked (γ : Type) where
  sequencer : Sequencer Extended γ
  pausedIn : Extended

/-- A fraction at zero or later, folded into a loop with a length. -/
theorem foldPosition_finite_finite {position length : Rat} (hposition : 0 ≤ position)
    (hlength : 0 < length) :
    foldPosition (finite position) (finite length) =
      finite (position - ⌊position / length⌋ * length) := by
  rcases hposition.eq_or_lt with rfl | hpositive
  · rw [zero_div, Int.floor_zero, Int.cast_zero, zero_mul, sub_zero]
    rfl
  · have hinside : ¬ (Scalar.isNaN (finite position) || decide (finite position ≤ 0) ||
        Scalar.isNaN (finite length) || decide (finite length ≤ 0)) = true := by
      have hposition' : ¬ finite position ≤ 0 := fun hle =>
        hpositive.not_ge (finite_le_finite.mp hle)
      have hlength' : ¬ finite length ≤ 0 := fun hle => hlength.not_ge (finite_le_finite.mp hle)
      simp [Scalar.isNaN, hposition', hlength']
    rw [foldPosition, if_neg hinside]
    exact if_neg hlength.ne'

namespace Bookmarked

def initial (lookahead : Extended) (volume : γ) (mix : PerRole γ) : Bookmarked γ :=
  ⟨.initial lookahead volume mix, 0⟩

section

variable [Tuning Extended]

def step (soundtrack : Soundtrack) (state : Bookmarked γ) (timed : Rat × Request γ) :
    Bookmarked γ where
  sequencer := (state.sequencer.perform soundtrack (finite timed.1) timed.2).sequencer
  pausedIn :=
    match timed.2 with
    | .stop =>
      if state.sequencer.playing then
        (state.sequencer.current.map Composition.loopLength).getD 0
      else state.pausedIn
    | .reset => 0
    | .load _ | .start | .setVolume _ | .tick => state.pausedIn

def run (state : Bookmarked γ) (soundtrack : Soundtrack) (requests : List (Rat × Request γ)) :
    Bookmarked γ :=
  requests.foldl (step soundtrack) state

/-- The saved position comes from the loop in which playback paused. -/
structure Keeps (state : Bookmarked γ) : Prop where
  onClock : state.sequencer.OnClock
  folded : state.sequencer.playing = false → ∃ position : Rat,
    state.sequencer.transport.saved = foldPosition (finite position) state.pausedIn

omit [Tuning Extended] in
theorem keeps_initial (lookahead : Extended) (volume : γ) (mix : PerRole γ) :
    (initial lookahead volume mix).Keeps where
  onClock := Sequencer.onClock_initial lookahead volume mix
  folded _ := ⟨0, rfl⟩

variable {state : Bookmarked γ} {soundtrack : Soundtrack}

/-- What one request keeps.  Only a pause and a reset save a position; a load does not touch the one
that is saved, and a start moves it where it is not looked at before the next pause. -/
theorem Keeps.step (h : state.Keeps) (timed : Rat × Request γ) :
    (state.step soundtrack timed).Keeps := by
  obtain ⟨now, request⟩ := timed
  refine ⟨(h.onClock.perform soundtrack now request).2, ?_⟩
  change (state.sequencer.perform soundtrack (finite now) request).sequencer.playing = false →
    ∃ position : Rat,
      (state.sequencer.perform soundtrack (finite now) request).sequencer.transport.saved =
        foldPosition (finite position) (state.step soundtrack (now, request)).pausedIn
  cases Sequencer.transition soundtrack state.sequencer (finite now) request with
  | ignores reply notices hignores hperform =>
      rw [hperform]
      intro hrests
      have hkept : (state.step soundtrack (now, request)).pausedIn = state.pausedIn := by
        cases request with
        | stop => exact if_neg (by simp [hrests])
        | reset => exact hignores.elim
        | load | start | setVolume | tick => rfl
      exact hkept ▸ h.folded hrests
  | replaces id texts song hrequest hother hsong hcompiled hperform =>
      subst hrequest
      rw [hperform]
      exact h.folded
  | begins song position hrequest hrests hcurrent hposition hperform =>
      rw [hperform]
      simp [Sequencer.playing]
  | pauses position hrequest hplays hposition hperform =>
      subst hrequest
      obtain ⟨anchor, hanchor⟩ := h.onClock.anchor
      have hpaused : (state.step soundtrack (now, .stop)).pausedIn =
          (state.sequencer.current.map Composition.loopLength).getD 0 := if_pos hplays
      rw [hperform]
      refine fun _ => ⟨now - anchor, ?_⟩
      rw [hpaused, hposition, hanchor, finite_sub_finite]
  | resets hrequest hperform =>
      subst hrequest
      rw [hperform]
      exact fun _ => ⟨0, rfl⟩
  | adjusts gain hrequest hfinite hperform =>
      subst hrequest
      rw [hperform]
      exact h.folded
  | ticks song tick hrequest hplays hcurrent htick hperform =>
      subst hrequest
      rw [hperform]
      exact h.folded

/-- What any requests keep. -/
theorem Keeps.run (h : state.Keeps) (requests : List (Rat × Request γ)) :
    (state.run soundtrack requests).Keeps := by
  induction requests generalizing state with
  | nil => exact h
  | cons timed later ih => exact ih (h.step timed)

omit [Scalar γ] [Tuning Extended] in
/-- A start plays from the saved position, less the whole loops that it holds. -/
theorem start_inside {sequencer : Sequencer Extended γ} {song : Composition Extended γ}
    {length saved : Rat} (hrests : sequencer.playing = false)
    (hcurrent : sequencer.current = some song) (hloop : song.loopLength = finite length)
    (hlength : 0 < length) (hsaved : sequencer.transport.saved = finite saved) (hnonneg : 0 ≤ saved)
    (now : Rat) :
    let position := saved - ⌊saved / length⌋ * length
    let started := (sequencer.start (finite now)).sequencer
    started.playing = true ∧ 0 ≤ position ∧ position < length ∧
      started.transport.saved = foldPosition sequencer.transport.saved song.loopLength ∧
      started.transport.saved = finite position ∧
      started.transport.position (finite now) = finite position := by
  intro position started
  have hfolded : foldPosition sequencer.transport.saved song.loopLength = finite position := by
    rw [hsaved, hloop]
    exact foldPosition_finite_finite hnonneg hlength
  have hstarted : started.transport.saved =
      foldPosition sequencer.transport.saved song.loopLength := by
    simp only [started, Sequencer.start_of_resting hrests hcurrent]
  have hplays : started.playing = true := by
    simp only [started, Sequencer.start_of_resting hrests hcurrent]
    rfl
  have hposition : started.transport.position (finite now) = finite position := by
    simp only [started, Sequencer.start_of_resting hrests hcurrent, hfolded]
    simp [Transport.position]
  have hfloor := (le_div_iff₀ hlength).mp (Int.floor_le (saved / length))
  have hnext := (div_lt_iff₀ hlength).mp (Int.lt_floor_add_one (saved / length))
  exact ⟨hplays, by linarith, by linarith, hstarted, hstarted.trans hfolded, hposition⟩

/-- The saved position.  A new sequencer takes any requests, at clock times that are fractions.  When
it is stopped and the loop of the current song has a length, the saved position is at zero or later;
it is before the end of the loop, unless playback paused in a longer one; and a start folds it into
the loop and plays from there. -/
theorem saved_in_loop (soundtrack : Soundtrack) (lookahead : Extended) (volume : γ)
    (mix : PerRole γ) (requests : List (Rat × Request γ)) {song : Composition Extended γ}
    {length : Rat} :
    let state := (initial lookahead volume mix).run soundtrack requests
    state.sequencer.playing = false → state.sequencer.current = some song →
    song.loopLength = finite length → 0 < length →
    ∃ saved : Rat, 0 ≤ saved ∧ state.sequencer.transport.saved = finite saved ∧
      (∀ now, state.sequencer.transport.position now = finite saved) ∧
      (¬ finite length < state.pausedIn → saved < length) ∧
      ∀ now : Rat,
        let position := saved - ⌊saved / length⌋ * length
        let started := (state.sequencer.start (finite now)).sequencer
        started.playing = true ∧ 0 ≤ position ∧ position < length ∧
          started.transport.saved = foldPosition state.sequencer.transport.saved song.loopLength ∧
          started.transport.saved = finite position ∧
          started.transport.position (finite now) = finite position := by
  intro state hrests hcurrent hloop hlength
  have hkeeps : state.Keeps := (keeps_initial lookahead volume mix).run requests
  obtain ⟨position, hposition⟩ := hkeeps.folded hrests
  obtain ⟨saved, hfolded, hnonneg, hinside⟩ := foldPosition_finite position state.pausedIn
  have hsaved : state.sequencer.transport.saved = finite saved := hposition.trans hfolded
  have hstands (now : Extended) : state.sequencer.transport.position now = finite saved :=
    (if_neg (Bool.eq_false_iff.mp hrests)).trans hsaved
  exact ⟨saved, hnonneg, hsaved, hstands, hinside length hlength,
    start_inside hrests hcurrent hloop hlength hsaved hnonneg⟩

end

open Octaves in
/-- Playback pauses in the second cycle of a short loop, and a longer one is loaded. -/
theorem saved_in_loop_after_turn :
    let short : PerRole String := ⟨"a", "", "", ""⟩
    let long : PerRole String := ⟨"a a", "", "", ""⟩
    let soundtrack : Soundtrack := ⟨fun id => some (if id = 0 then short else long),
      fun _ => none, id⟩
    let song : Composition Extended Rat := .compile 1 long
    let requests : List (Rat × Request Rat) := [(0, .load 0), (0, .start), (0, .tick),
      (3 / 4, .tick), (3 / 4, .stop), (1, .load 1)]
    let state := (initial (finite (1 / 2)) 1 (.replicate 1)).run soundtrack requests
    (state.sequencer.playing = false ∧ state.sequencer.current = some song ∧
      song.loopLength = finite 1 ∧ (0 : Rat) < 1) ∧
    state.sequencer.transport.saved = finite (1 / 4) ∧
    ∃ saved : Rat, saved < 1 ∧ (∀ now, state.sequencer.transport.position now = finite saved) ∧
      (state.sequencer.start (finite 2)).sequencer.transport.position (finite 2) =
        finite (saved - ⌊saved / 1⌋ * 1) := by
  intro short long soundtrack song requests state
  have hrests : state.sequencer.playing = false := by decide +kernel
  have hcurrent : state.sequencer.current = some song := rfl
  have hloop : song.loopLength = finite 1 := by decide +kernel
  have hpaused : ¬ finite 1 < state.pausedIn := by decide +kernel
  obtain ⟨saved, _, _, hstands, hinside, hstarts⟩ := saved_in_loop soundtrack (finite (1 / 2)) 1
    (.replicate 1) requests hrests hcurrent hloop one_pos
  obtain ⟨_, _, _, _, _, hposition⟩ := hstarts 2
  exact ⟨⟨hrests, hcurrent, hloop, one_pos⟩, by decide +kernel, saved, hinside hpaused, hstands,
    hposition⟩

open Octaves in
/-- Playback pauses late in a long loop, and a shorter one is loaded: the saved position lies behind
the end of its loop. -/
theorem saved_behind_shorter_loop :
    let long : PerRole String := ⟨"a a", "", "", ""⟩
    let short : PerRole String := ⟨"a", "", "", ""⟩
    let soundtrack : Soundtrack := ⟨fun id => some (if id = 0 then long else short),
      fun _ => none, id⟩
    let requests : List (Rat × Request Rat) := [(0, .load 0), (0, .start), (0, .tick),
      (3 / 4, .stop), (3 / 4, .load 1)]
    let state := (initial (finite (1 / 2)) 1 (.replicate 1)).run soundtrack requests
    state.sequencer.playing = false ∧
      state.sequencer.current.map Composition.loopLength = some (finite (1 / 2)) ∧
      state.sequencer.transport.saved = finite (3 / 4) ∧
      ¬ state.sequencer.transport.saved < finite (1 / 2) := by
  decide +kernel

end Bookmarked

end Chiptune
