import Chiptune.Proofs.AtMostOnce
import Chiptune.Proofs.Buffers
import Chiptune.Proofs.SongChange

/-!
What the requests of a rig put into its queue, in extended time.

Main statement: a request puts nothing into the queue, or a silence stamped with the sample that comes
next, or notes stamped with that sample or later; the sequencer plays before it in the last two cases,
and after it in the last.
-/
namespace Chiptune

open Extended

variable {γ : Type}

/-- A fraction folded into a loop is a fraction, at zero or later and before the end of the loop. -/
theorem foldPosition_finite (position : Rat) (loopLength : Extended) :
    ∃ folded : Rat, foldPosition (finite position) loopLength = finite folded ∧ 0 ≤ folded ∧
      ∀ length : Rat, 0 < length → ¬ finite length < loopLength → folded < length := by
  unfold foldPosition
  split
  · exact ⟨0, rfl, le_rfl, fun length hlength _ => hlength⟩
  · next hinside =>
      simp only [Bool.or_eq_true, decide_eq_true_eq, not_or, Scalar.isNaN] at hinside
      obtain ⟨⟨⟨-, hposition⟩, hnumber⟩, hloop⟩ := hinside
      have hpositive : 0 < position := not_le.mp fun hle => hposition (finite_le_finite.mpr hle)
      cases loopLength with
      | nan => exact absurd rfl hnumber
      | infinite negative =>
          refine ⟨position, rfl, hpositive.le, fun length _ hshorter => ?_⟩
          cases negative with
          | false => exact absurd (finite_lt_infinite.mpr rfl) hshorter
          | true => exact absurd (le_iff.mpr (.inl (infinite_lt_finite.mpr rfl))) hloop
      | finite loop =>
          have hlength : 0 < loop := not_le.mp fun hle => hloop (finite_le_finite.mpr hle)
          refine ⟨position - (position / loop).floor * loop, if_neg hlength.ne', ?_, ?_⟩
          · have hfloor := (le_div_iff₀ hlength).mp (Int.floor_le (position / loop))
            exact sub_nonneg.mpr hfloor
          · intro length _ hshorter
            have hle : loop ≤ length := not_lt.mp fun hlt => hshorter (finite_lt_finite.mpr hlt)
            have hfloor := (div_lt_iff₀ hlength).mp (Int.lt_floor_add_one (position / loop))
            rw [add_mul, one_mul] at hfloor
            exact (sub_lt_iff_lt_add'.mpr hfloor).trans_le hle

namespace Sequencer

/-- The times that a sequencer keeps are fractions, and its song begins at zero or later. -/
structure OnClock (sequencer : Sequencer Extended γ) : Prop where
  anchor : ∃ anchor : Rat, sequencer.transport.anchor = finite anchor
  saved : ∃ saved : Rat, sequencer.transport.saved = finite saved
  fromZero : ∀ song ∈ sequencer.current, song.FromZero

/-- What a request brings about: it only says something, or it silences what sounds, or it hands out
notes whose time is not over. -/
inductive Outcome (sequencer : Sequencer Extended γ) (now : Rat) {α : Type}
    (performed : Performed Extended γ α) : Prop where
  | speaks (notices : List (Notice Extended γ))
    (heffects : performed.effects = notices.map .notice)
    (hrests : performed.sequencer.playing = false → sequencer.playing = false)
  | silences (before after : List (Notice Extended γ))
    (hplaying : sequencer.playing = true)
    (heffects : performed.effects =
      before.map .notice ++ .silence (finite now) :: after.map .notice)
  | plays (hplaying : sequencer.playing = true)
    (hstays : performed.sequencer.playing = true)
    (hsilence : ∀ time, Effect.silence time ∉ performed.effects)
    (hnotes : ∀ note ∈ performed.effects.filterMap Effect.note?, finite now ≤ note.start)

variable [Scalar γ] {sequencer : Sequencer Extended γ} {now : Rat}

theorem onClock_initial (lookahead : Extended) (volume : γ) (mix : PerRole γ) :
    (initial lookahead volume mix).OnClock := by
  refine ⟨⟨0, rfl⟩, ⟨0, rfl⟩, ?_⟩
  simp [initial]

omit [Scalar γ] in
/-- Whatever plays is silenced, and nothing else happens. -/
theorem Outcome.of_silenceIfPlaying {α : Type} {performed : Performed Extended γ α}
    (before after : List (Notice Extended γ))
    (heffects : performed.effects =
      before.map .notice ++ sequencer.silenceIfPlaying (finite now) ++ after.map .notice) :
    Outcome sequencer now performed := by
  cases hplaying : sequencer.playing with
  | true =>
      refine .silences before after hplaying ?_
      rw [heffects, silenceIfPlaying, if_pos hplaying, List.append_assoc]
      rfl
  | false =>
      refine .speaks (before ++ after) ?_ fun _ => hplaying
      rw [heffects, silenceIfPlaying, hplaying]
      simp

/-- A request at a clock time that is a fraction. -/
theorem OnClock.perform [Tuning Extended] (h : sequencer.OnClock) (soundtrack : Soundtrack)
    (now : Rat) (request : Request γ) :
    let performed := sequencer.perform soundtrack (finite now) request
    Outcome sequencer now performed ∧ performed.sequencer.OnClock := by
  cases transition soundtrack sequencer (finite now) request with
  | ignores reply notices hignores hperform =>
      rw [hperform]
      exact ⟨.speaks notices rfl fun hrests => hrests, h⟩
  | replaces id texts song hrequest hother hsong hcompiled hperform =>
      rw [hperform]
      refine ⟨.of_silenceIfPlaying [_] [_] rfl, h.anchor, h.saved, ?_⟩
      intro other hmem
      obtain rfl : song = other := Option.mem_some.mp hmem
      exact hcompiled ▸ Composition.fromZero_compile id texts
  | begins song position hrequest hrests hcurrent hposition hperform =>
      obtain ⟨saved, hsaved⟩ := h.saved
      obtain ⟨folded, hfolded, -⟩ := foldPosition_finite saved song.loopLength
      obtain rfl : position = finite folded := by rw [hposition, hsaved, hfolded]
      rw [hperform]
      refine ⟨.speaks [_] rfl fun _ => hrests, ⟨now - folded, ?_⟩, ⟨folded, rfl⟩, h.fromZero⟩
      exact finite_sub_finite now folded
  | pauses position hrequest hplays hposition hperform =>
      obtain ⟨anchor, hanchor⟩ := h.anchor
      obtain ⟨folded, hfolded, -⟩ := foldPosition_finite (now - anchor)
        ((sequencer.current.map Composition.loopLength).getD 0)
      obtain rfl : position = finite folded := by rw [hposition, hanchor, finite_sub_finite, hfolded]
      rw [hperform]
      exact ⟨.silences [_] [] hplays rfl, ⟨anchor, hanchor⟩, ⟨folded, rfl⟩, h.fromZero⟩
  | resets hrequest hperform =>
      rw [hperform]
      exact ⟨.of_silenceIfPlaying [] [_] rfl, ⟨0, rfl⟩, ⟨0, rfl⟩, by simp⟩
  | adjusts gain hrequest hfinite hperform =>
      rw [hperform]
      exact ⟨.speaks [] rfl fun hrests => hrests, h.anchor, h.saved, h.fromZero⟩
  | ticks song tick hrequest hplays hcurrent htick hperform =>
      obtain ⟨anchor, hanchor⟩ := h.anchor
      obtain ⟨⟨begun, cycles, hturns⟩, haccounts⟩ := Scheduler.stride_goesPast
        (h.fromZero song hcurrent) sequencer.scheduler 0 anchor now
      rw [hanchor] at htick
      rw [hperform, htick]
      refine ⟨.plays hplays hplays (silence_not_mem_tickEffects _) ?_,
        ⟨begun, hturns.anchor_eq⟩, h.saved, h.fromZero⟩
      intro note hnote
      rw [filterMap_note_tickEffects] at hnote
      obtain ⟨scheduled, hscheduled, rfl⟩ := List.mem_map.mp hnote
      exact haccounts.now_le hscheduled

end Sequencer

namespace Output

/-- The rate is positive, and the rate and the counter fit into 64 bits. -/
structure Counts (output : Output Extended γ) : Prop where
  rate_pos : 0 < output.rate
  rate_lt : output.rate < 2 ^ 64
  counter_lt : output.counter < 2 ^ 64

variable {output : Output Extended γ}

theorem Counts.now_eq (h : output.Counts) :
    (output.clock.now : Extended) = finite (output.counter / output.rate) := by
  have hrate : (output.rate : Rat) ≠ 0 := Nat.cast_ne_zero.mpr h.rate_pos.ne'
  change ((output.counter : Extended) / (output.rate : Extended)) = _
  rw [natCast_eq_finite h.counter_lt, natCast_eq_finite h.rate_lt, finite_div_finite _ hrate]

/-- In samples, the time played is the counter. -/
theorem Counts.exactCount_now (h : output.Counts) :
    exactCount ((output.counter / output.rate : Rat) * output.rate) = output.counter := by
  have hrate : (output.rate : Rat) ≠ 0 := Nat.cast_ne_zero.mpr h.rate_pos.ne'
  have hcounter := h.counter_lt
  rw [div_mul_cancel₀ _ hrate, exactCount_eq, nearest_natCast, maxCount]
  omega

/-- A silence from now on is stamped with the sample that comes next. -/
theorem Counts.toSamples_now (h : output.Counts) :
    output.toSamples output.clock.now = output.counter := by
  unfold toSamples
  rw [h.now_eq, natCast_eq_finite h.rate_lt, finite_mul_finite]
  exact h.exactCount_now

/-- What is not over is stamped with the sample that comes next or a later one. -/
theorem Counts.counter_le_toSamples (h : output.Counts) {time : Extended}
    (htime : output.clock.now ≤ time) : output.counter ≤ output.toSamples time := by
  have hrate : (0 : Rat) < output.rate := Nat.cast_pos.mpr h.rate_pos
  rw [h.now_eq] at htime
  have hle := nearestCount_mul_mono hrate htime
  rw [h.exactCount_now, ← natCast_eq_finite h.rate_lt] at hle
  exact hle

theorem toSamples_le (output : Output Extended γ) (time : Extended) :
    output.toSamples time ≤ maxCount :=
  nearestCount_le _

end Output

namespace Rig

/-- What a request puts into the queue of a rig. -/
inductive Sends (rig after : Rig Extended γ) : List (Message Extended γ) → Prop where
  | nothing (hrests : after.sequencer.playing = false → rig.sequencer.playing = false) :
    Sends rig after []
  | silence (hplaying : rig.sequencer.playing = true) :
    Sends rig after [.stopAll rig.sink.counter]
  | notes (notes : List (StampedNote Extended γ)) (hplaying : rig.sequencer.playing = true)
    (hstays : after.sequencer.playing = true)
    (hstamps : ∀ note ∈ notes, rig.sink.counter ≤ note.stamp ∧ note.stamp ≤ maxCount) :
    Sends rig after (notes.map .note)

theorem filterMap_message_notices (output : Output Extended γ)
    (notices : List (Notice Extended γ)) :
    (notices.map Effect.notice).filterMap output.message? = [] := by
  simp [List.filterMap_map, Function.comp_def, Output.message?]

theorem filterMap_message_notes (output : Output Extended γ) {effects : List (Effect Extended γ)}
    (hsilence : ∀ time, Effect.silence time ∉ effects) :
    effects.filterMap output.message? =
      ((effects.filterMap Effect.note?).map output.stamped).map .note := by
  induction effects with
  | nil => rfl
  | cons effect rest ih =>
      have hrest := ih fun time hmem => hsilence time (List.mem_cons_of_mem effect hmem)
      cases effect with
      | notice notice => exact hrest
      | dispatch note => exact congrArg (List.cons (Message.note (output.stamped note))) hrest
      | silence time => exact absurd List.mem_cons_self (hsilence time)

variable [Scalar γ] [Tuning Extended] {rig : Rig Extended γ}

/-- A request whose messages all find room. -/
theorem request_sends (hclock : rig.sequencer.OnClock) (hcounts : rig.sink.Counts)
    (soundtrack : Soundtrack) (request : Request γ)
    (hroom : .queueFull ∉ (rig.request soundtrack request).notices) :
    let after := (rig.request soundtrack request).player
    after.sequencer.OnClock ∧
      ∃ messages, after.sink = rig.sink.queued messages ∧ rig.Sends after messages := by
  intro after
  have hnow : rig.now = finite (rig.sink.counter / rig.sink.rate) := hcounts.now_eq
  obtain ⟨houtcome, hafter⟩ := hclock.perform soundtrack (rig.sink.counter / rig.sink.rate) request
  rw [← hnow] at houtcome hafter
  refine ⟨hafter, _, Output.hearAll_eq_queued _ _ hroom, ?_⟩
  cases houtcome with
  | speaks notices heffects hrests =>
      have hmessages : (rig.sequencer.perform soundtrack rig.now request).effects.filterMap
          rig.sink.message? = [] := by
        rw [heffects, filterMap_message_notices]
      exact hmessages ▸ .nothing hrests
  | silences before later hplaying heffects =>
      have hmessages : (rig.sequencer.perform soundtrack rig.now request).effects.filterMap
          rig.sink.message? = [.stopAll rig.sink.counter] := by
        have hsilence : rig.sink.message? (.silence rig.now) =
            some (.stopAll rig.sink.counter) :=
          congrArg (fun stamp => some (Message.stopAll stamp)) hcounts.toSamples_now
        rw [heffects, ← hnow, List.filterMap_append, filterMap_message_notices, List.nil_append,
          List.filterMap_cons_some hsilence, filterMap_message_notices]
      exact hmessages ▸ .silence hplaying
  | plays hplaying hstays hsilence hnotes =>
      have hmessages := filterMap_message_notes rig.sink hsilence
      refine hmessages ▸ .notes _ hplaying hstays ?_
      intro note hnote
      obtain ⟨dispatch, hdispatch, rfl⟩ := List.mem_map.mp hnote
      have htime : rig.now ≤ dispatch.start := hnow ▸ hnotes dispatch hdispatch
      exact ⟨hcounts.counter_le_toSamples htime, rig.sink.toSamples_le dispatch.start⟩

end Rig

section

variable {σ ι : Type} {step : σ → ι → σ} {allows : σ → ι → Prop}

def Admits (step : σ → ι → σ) (allows : σ → ι → Prop) : σ → List ι → Prop
  | _, [] => True
  | state, input :: later => allows state input ∧ Admits step allows (step state input) later

instance decidableAdmits [∀ state input, Decidable (allows state input)] :
    (state : σ) → (inputs : List ι) → Decidable (Admits step allows state inputs)
  | _, [] => .isTrue trivial
  | state, input :: later =>
    have := decidableAdmits (step state input) later
    inferInstanceAs (Decidable (allows state input ∧ Admits step allows (step state input) later))

theorem Admits.append {state : σ} {first second : List ι} :
    Admits step allows state (first ++ second) ↔
      Admits step allows state first ∧ Admits step allows (first.foldl step state) second := by
  induction first generalizing state with
  | nil => simp [Admits]
  | cons input later ih => simp only [List.cons_append, List.foldl_cons, Admits, ih, and_assoc]

/-- What every allowed step keeps, a run keeps. -/
theorem Admits.foldl {keeps : σ → Prop}
    (hstep : ∀ state input, keeps state → allows state input → keeps (step state input))
    {inputs : List ι} {state : σ} (hadmits : Admits step allows state inputs)
    (hstate : keeps state) : keeps (inputs.foldl step state) := by
  induction inputs generalizing state with
  | nil => exact hstate
  | cons input later ih => exact ih hadmits.2 (hstep state input hstate hadmits.1)

/-- What every step that is allowed to both of two runs keeps between them, the runs keep. -/
theorem Admits.foldl_both (keeps : σ → σ → Prop)
    (hstep : ∀ first second input, keeps first second → allows first input →
      allows second input → keeps (step first input) (step second input))
    {inputs : List ι} {first second : σ} (hfirst : Admits step allows first inputs)
    (hsecond : Admits step allows second inputs) (hstate : keeps first second) :
    keeps (inputs.foldl step first) (inputs.foldl step second) := by
  induction inputs generalizing first second with
  | nil => exact hstate
  | cons input later ih =>
      exact ih hfirst.2 hsecond.2 (hstep first second input hstate hfirst.1 hsecond.1)

end

end Chiptune
