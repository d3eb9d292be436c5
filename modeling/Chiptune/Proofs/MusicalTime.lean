import Chiptune.Proofs.Requests

/-!
The transport keeps musical time.

Musical time is the time for which the transport has played so far.  The transport itself keeps no
more than a position in the loop: a pause folds it into the loop, a start derives the anchor from
it, and a turn of the loop moves the anchor.

Main statement: in a loop of some length the position is the musical time but for whole loops, and a
pause saves the musical time reduced into the loop.
-/
namespace Chiptune

/-- Folding a position into a loop reduces it by whole loops. -/
theorem foldPosition_eq_toIcoMod {length position : Rat} (hlength : 0 < length)
    (hposition : 0 ≤ position) : foldPosition position length = toIcoMod hlength 0 position := by
  have hquotient : (⌊position / length⌋₊ : Rat) = (⌊position / length⌋ : Int) :=
    natCast_floor_eq_intCast_floor (div_nonneg hposition hlength.le)
  rw [foldPosition_eq hlength hposition, toIcoMod, toIcoDiv_eq_floor, sub_zero, zsmul_eq_mul,
    hquotient]

/-- A transport on its clock, and the seconds that have passed while it played. -/
structure Metered (γ : Type) where
  transport : Transport Rat γ
  now : Rat
  played : Rat

namespace Metered

/-- What happens to a transport in a loop. -/
inductive Move where
  | start
  | stop
  | wait (seconds : Rat)
  /-- The current cycle began a whole number of loops later. -/
  | turn (cycles : Int)

variable {γ : Type}

def initial [Scalar γ] (volume : γ) (now : Rat) : Metered γ := ⟨.initial volume, now, 0⟩

def step (length : Rat) (state : Metered γ) : Move → Metered γ
  | .start => { state with transport := (state.transport.start (some length) state.now).2 }
  | .stop => { state with transport := (state.transport.stop length state.now).2 }
  | .wait seconds =>
    { state with
      now := state.now + seconds
      played := if state.transport.playing then state.played + seconds else state.played }
  | .turn cycles =>
    { state with
      transport := state.transport.rebase (state.transport.anchor + cycles * length) }

/-- The clock does not go back, and the loop comes round only while playing and not before its
time. -/
def Allows (length : Rat) (state : Metered γ) : Move → Prop
  | .start | .stop => True
  | .wait seconds => 0 ≤ seconds
  | .turn cycles =>
    state.transport.playing = true ∧ state.transport.anchor + cycles * length ≤ state.now

instance (length : Rat) (state : Metered γ) : (move : Move) → Decidable (state.Allows length move)
  | .start | .stop => inferInstanceAs (Decidable True)
  | .wait seconds => inferInstanceAs (Decidable (0 ≤ seconds))
  | .turn cycles =>
    inferInstanceAs (Decidable (state.transport.playing = true ∧
      state.transport.anchor + cycles * length ≤ state.now))

/-- A transport that keeps the musical time, in its anchor while it plays and in the saved position
while it rests. -/
structure Keeps {length : Rat} (hlength : 0 < length) (state : Metered γ) : Prop where
  began : state.transport.playing = true → state.transport.anchor ≤ state.now
  runs : state.transport.playing = true →
    ∃ turns : Int, state.now - state.transport.anchor = state.played + turns * length
  rests : state.transport.playing = false →
    state.transport.saved = toIcoMod hlength 0 state.played

variable {length : Rat} {hlength : 0 < length} {state : Metered γ}

theorem keeps_initial [Scalar γ] (volume : γ) (now : Rat) : (initial volume now).Keeps hlength where
  began hplays := absurd hplays Bool.false_ne_true
  runs hplays := absurd hplays Bool.false_ne_true
  rests _ := (toIcoMod_apply_left hlength 0).symm

/-- What is left of a musical time differs from it by whole loops. -/
theorem toIcoMod_eq_add (hlength : 0 < length) (played : Rat) :
    ∃ turns : Int, toIcoMod hlength 0 played = played + turns * length := by
  refine ⟨-toIcoDiv hlength 0 played, ?_⟩
  rw [toIcoMod, zsmul_eq_mul]
  push_cast
  ring

/-- The position is the musical time but for whole loops. -/
theorem Keeps.position (h : state.Keeps hlength) :
    ∃ turns : Int, state.transport.position state.now = state.played + turns * length := by
  unfold Transport.position
  cases hplays : state.transport.playing with
  | true => exact h.runs hplays
  | false => exact h.rests hplays ▸ toIcoMod_eq_add hlength state.played

/-- A start goes on from the saved position. -/
theorem Keeps.start (h : state.Keeps hlength) (hrests : state.transport.playing = false) :
    (state.step length .start).Keeps hlength := by
  have hfolded : foldPosition state.transport.saved length = toIcoMod hlength 0 state.played := by
    rw [h.rests hrests, foldPosition_eq_toIcoMod hlength (left_le_toIcoMod ..), toIcoMod_toIcoMod]
  have hstart : state.step length .start =
      { state with
        transport :=
          { state.transport with
            playing := true
            anchor := state.now - toIcoMod hlength 0 state.played
            saved := toIcoMod hlength 0 state.played } } := by
    simp only [step, Transport.start, hrests, hfolded]
  rw [hstart]
  refine ⟨fun _ => ?_, fun _ => ?_, fun hrests => absurd hrests Bool.true_eq_false.mp⟩
  · exact sub_le_self _ (left_le_toIcoMod ..)
  · obtain ⟨turns, hturns⟩ := toIcoMod_eq_add hlength state.played
    exact ⟨turns, (sub_sub_cancel _ _).trans hturns⟩

/-- A pause saves what is left of the musical time. -/
theorem Keeps.stop (h : state.Keeps hlength) (hplays : state.transport.playing = true) :
    state.step length .stop =
      { state with
        transport :=
          { state.transport with
            playing := false
            saved := toIcoMod hlength 0 state.played } } := by
  obtain ⟨turns, hturns⟩ := h.runs hplays
  have hfolded : foldPosition (state.now - state.transport.anchor) length =
      toIcoMod hlength 0 state.played := by
    rw [foldPosition_eq_toIcoMod hlength (sub_nonneg.mpr (h.began hplays)), hturns,
      ← zsmul_eq_mul, toIcoMod_add_zsmul]
  simp only [step, Transport.stop, hplays, hfolded, if_true]

theorem Keeps.wait (h : state.Keeps hlength) {seconds : Rat} (hseconds : 0 ≤ seconds) :
    (state.step length (.wait seconds)).Keeps hlength := by
  cases hplays : state.transport.playing with
  | true =>
      have hwait : state.step length (.wait seconds) =
          { state with now := state.now + seconds, played := state.played + seconds } := by
        simp only [step, hplays, if_true]
      rw [hwait]
      refine ⟨fun _ => ?_, fun _ => ?_, fun hrests => absurd (hplays.symm.trans hrests) (by simp)⟩
      · have hbegan := h.began hplays
        dsimp only
        linarith
      · obtain ⟨turns, hturns⟩ := h.runs hplays
        refine ⟨turns, ?_⟩
        dsimp only
        linarith
  | false =>
      have hwait : state.step length (.wait seconds) =
          { state with now := state.now + seconds } := by
        simp [step, hplays]
      rw [hwait]
      exact ⟨fun hplaying => absurd (hplays.symm.trans hplaying) (by simp),
        fun hplaying => absurd (hplays.symm.trans hplaying) (by simp), h.rests⟩

theorem Keeps.turn (h : state.Keeps hlength) (hplays : state.transport.playing = true)
    {cycles : Int} (hbegan : state.transport.anchor + cycles * length ≤ state.now) :
    (state.step length (.turn cycles)).Keeps hlength where
  began _ := hbegan
  runs _ := by
    obtain ⟨turns, hturns⟩ := h.runs hplays
    refine ⟨turns - cycles, ?_⟩
    dsimp only [step, Transport.rebase]
    push_cast
    linarith
  rests hrests := absurd (hplays.symm.trans hrests) (by simp)

/-- What one move keeps. -/
theorem Keeps.step (h : state.Keeps hlength) {move : Move} (hmove : state.Allows length move) :
    (state.step length move).Keeps hlength := by
  cases move with
  | start =>
      cases hplays : state.transport.playing with
      | true =>
          have hsame : state.step length .start = state := by
            simp only [Metered.step, Transport.start, hplays]
          rw [hsame]
          exact h
      | false => exact h.start hplays
  | stop =>
      cases hplays : state.transport.playing with
      | true =>
          rw [h.stop hplays]
          exact ⟨fun hplaying => absurd hplaying Bool.false_ne_true,
            fun hplaying => absurd hplaying Bool.false_ne_true, fun _ => rfl⟩
      | false =>
          have hsame : state.step length .stop = state := by
            simp [Metered.step, Transport.stop, hplays]
          rw [hsame]
          exact h
  | wait seconds => exact h.wait hmove
  | turn cycles => exact h.turn hmove.1 hmove.2

/-- Musical time in a loop of some length.  A new transport starts, pauses, waits and turns the loop in
any order, on a clock that does not go back.  At every moment its position differs from the time for
which it has played by a whole number of loops; while it rests, the saved position is that time
reduced into the loop; and a pause of what plays makes it rest without a change to that time. -/
theorem position_conserved [Scalar γ] {length : Rat} (hlength : 0 < length) (volume : γ) (now : Rat)
    (moves : List Move)
    (hmoves : Admits (step length) (Allows length) (initial volume now) moves) :
    let state := moves.foldl (step length) (initial volume now)
    (∃ turns : Int, state.transport.position state.now = state.played + turns * length) ∧
      (state.transport.playing = false →
        state.transport.saved = toIcoMod hlength 0 state.played) ∧
      (state.transport.playing = true →
        let paused := state.step length .stop
        paused.transport.playing = false ∧ paused.played = state.played ∧
          paused.transport.saved = toIcoMod hlength 0 state.played) := by
  intro state
  have hkeeps : state.Keeps hlength :=
    hmoves.foldl (fun _ _ hstate hmove => Keeps.step hstate hmove) (keeps_initial volume now)
  refine ⟨hkeeps.position, hkeeps.rests, fun hplays => ?_⟩
  rw [hkeeps.stop hplays]
  exact ⟨rfl, rfl, rfl⟩

/-- Two pauses in a loop of three halves of a second: the first comes after an end of the loop that
nobody has noted, the second after two ends that were noted late. -/
theorem position_conserved_over_pauses :
    let moves : List Move := [.start, .wait 2, .stop, .wait 7, .start, .wait 3, .turn 2, .wait (1 / 4)]
    let state := moves.foldl (step (3 / 2)) (initial (1 : Rat) 10)
    ((0 : Rat) < 3 / 2 ∧ Admits (step (3 / 2)) (Allows (3 / 2)) (initial (1 : Rat) 10) moves) ∧
      (∃ turns : Int, state.transport.position state.now = state.played + turns * (3 / 2)) ∧
      state.played = 21 / 4 ∧ state.transport.position state.now = 3 / 4 ∧
      (state.step (3 / 2) .stop).transport.saved = 3 / 4 := by
  intro moves state
  have hlength : (0 : Rat) < 3 / 2 := by norm_num
  have hmoves : Admits (step (3 / 2)) (Allows (3 / 2)) (initial (1 : Rat) 10) moves := by
    decide +kernel
  have hconserved := position_conserved hlength (1 : Rat) 10 moves hmoves
  exact ⟨⟨hlength, hmoves⟩, hconserved.1, by decide +kernel, by decide +kernel, by decide +kernel⟩

end Metered

end Chiptune
