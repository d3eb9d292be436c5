import Chiptune.Proofs.Roundoff
import Chiptune.Proofs.TakenBack

/-!
Clock readings and their stamps where times are rounded: a reading is the rounded quotient of a counter
and a rate, and its stamp is the sample nearest to a rounded product.

Main statements: in every way of rounding, a reading is stamped with the counter that was read, for
less than `2 ^ 51` samples and no longer; a request stamps what it silences with the sample that comes
next; and a pause leaves exactly the notes that come before that sample.
-/
namespace Chiptune

variable {τ γ : Type} {rounding : Rounding}

/-- Two roundings move less than `2 ^ 51` samples by less than half a sample. -/
theorem two_roundings_lt_half {counter : Nat} (hcounter : counter < 2 ^ 51) :
    (counter : Rat) * ((1 + roundoff) ^ 2 - 1) < 1 / 2 := by
  have hle : (counter : Rat) ≤ 2 ^ 51 - 1 := by
    have hcast : ((counter + 1 : Nat) : Rat) ≤ ((2 ^ 51 : Nat) : Rat) := Nat.cast_le.mpr hcounter
    push_cast at hcast
    linarith
  calc (counter : Rat) * ((1 + roundoff) ^ 2 - 1)
      ≤ (2 ^ 51 - 1) * ((1 + roundoff) ^ 2 - 1) :=
        mul_le_mul_of_nonneg_right hle (by norm_num [roundoff])
    _ < 1 / 2 := by norm_num [roundoff]

theorem exactCount_two_roundings_up {counter : Nat} (hcounter : counter < 2 ^ 51) :
    exactCount (counter * (1 + roundoff) ^ 2) = counter := by
  refine exactCount_of_near (by omega) ?_
  rw [← mul_sub_one, abs_of_nonneg (mul_nonneg (Nat.cast_nonneg _) (by norm_num [roundoff]))]
  exact two_roundings_lt_half hcounter

theorem exactCount_two_roundings_down {counter : Nat} (hcounter : counter < 2 ^ 51) :
    exactCount (counter * (1 - roundoff) ^ 2) = counter := by
  refine exactCount_of_near (by omega) ?_
  rw [← mul_sub_one, abs_of_nonpos (mul_nonpos_of_nonneg_of_nonpos (Nat.cast_nonneg _)
    (by norm_num [roundoff])), ← mul_neg]
  exact (mul_le_mul_of_nonneg_left (by norm_num [roundoff]) (Nat.cast_nonneg _)).trans_lt
    (two_roundings_lt_half hcounter)

namespace Rounded

theorem value_counter {counter : Nat} (hcounter : counter < 2 ^ 51) :
    (counter : Rounded rounding).value = counter :=
  value_natCast (by rw [exactLimit]; omega)

theorem value_rate {rate : Nat} (hword : rate < 2 ^ 32) : (rate : Rounded rounding).value = rate :=
  value_natCast (by rw [exactLimit]; omega)

end Rounded

namespace Output

section

variable {output : Output (Rounded rounding) γ} {counter : Nat} {time : Rounded rounding}
  (hrate : 0 < output.rate) (hword : output.rate < 2 ^ 32) (hcounter : counter < 2 ^ 51)

include hrate hword hcounter

/-- What is not over when a clock is read comes with the sample that the clock has come to, or
later. -/
theorem counter_le_toSamples (htime : SampleClock.now ⟨output.rate, counter⟩ ≤ time) :
    counter ≤ output.toSamples time := by
  have hcount : (counter : Rounded rounding).value = counter := Rounded.value_counter hcounter
  have hspeed : (output.rate : Rounded rounding).value = output.rate := Rounded.value_rate hword
  have hvalue : counter * (1 - roundoff) ^ 2 ≤ (time * (output.rate : Rounded rounding)).value :=
    hcount ▸ Rounded.le_value_mul_of_div_le (hcount ▸ Nat.cast_nonneg counter)
      (hspeed ▸ Nat.cast_pos.mpr hrate) htime
  calc counter = exactCount (counter * (1 - roundoff) ^ 2) :=
        (exactCount_two_roundings_down hcounter).symm
    _ ≤ output.toSamples time := exactCount_mono hvalue

/-- What is no later than a reading of a clock comes with the sample that the clock has come to, or
before. -/
theorem toSamples_le_counter (htime : time ≤ SampleClock.now ⟨output.rate, counter⟩) :
    output.toSamples time ≤ counter := by
  have hcount : (counter : Rounded rounding).value = counter := Rounded.value_counter hcounter
  have hspeed : (output.rate : Rounded rounding).value = output.rate := Rounded.value_rate hword
  have hvalue : (time * (output.rate : Rounded rounding)).value ≤ counter * (1 + roundoff) ^ 2 :=
    hcount ▸ Rounded.value_mul_le_of_le_div (hcount ▸ Nat.cast_nonneg counter)
      (hspeed ▸ Nat.cast_pos.mpr hrate) htime
  calc output.toSamples time ≤ exactCount (counter * (1 + roundoff) ^ 2) := exactCount_mono hvalue
    _ = counter := exactCount_two_roundings_up hcounter

theorem toSamples_reading : output.toSamples (SampleClock.now ⟨output.rate, counter⟩) = counter :=
  le_antisymm (toSamples_le_counter hrate hword hcounter (le_refl (α := Rat) _))
    (counter_le_toSamples hrate hword hcounter (le_refl (α := Rat) _))

end

/-- A clock runs at the rate of an output and has counted less than `2 ^ 51` samples.  However times
are rounded, the output stamps the reading of the clock with the samples counted, and so it does a
silence from that time on. -/
theorem stamp_of_reading (output : Output (Rounded rounding) γ) (clock : SampleClock)
    (hclock : clock.rate = output.rate) (hrate : 0 < clock.rate) (hword : clock.rate < 2 ^ 32)
    (hcounter : clock.counter < 2 ^ 51) :
    output.toSamples clock.now = clock.counter ∧
      Sink.silence output clock.now = output.push (.stopAll clock.counter) := by
  obtain ⟨rate, counter⟩ := clock
  obtain rfl : rate = output.rate := hclock
  have hstamp := toSamples_reading hrate hword hcounter
  exact ⟨hstamp, congrArg (fun stamp => output.push (.stopAll stamp)) hstamp⟩

/-- With doubles, the reading of this counter times the rate is an eighth of a sample short. -/
theorem stamp_of_reading_off_by_eighth :
    let output : Output (Rounded .toNearest) Rat := .initial 44100 2 64 1125899906842614
    let clock := output.clock
    (clock.rate = output.rate ∧ 0 < clock.rate ∧ clock.rate < 2 ^ 32 ∧ clock.counter < 2 ^ 51) ∧
    (clock.now * output.rate : Rounded .toNearest).value = 1125899906842614 - 1 / 8 ∧
    output.toSamples clock.now = 1125899906842614 ∧
    Sink.silence output clock.now = output.push (.stopAll 1125899906842614) := by
  intro output clock
  exact ⟨⟨rfl, by decide, by decide, by decide⟩, by decide +kernel,
    stamp_of_reading output clock rfl (by decide) (by decide) (by decide)⟩

/-- From `2 ^ 51` samples on, readings may be stamped with a later sample. -/
theorem exists_lt_toSamples_reading {rate counter : Nat} (hrate : 0 < rate)
    (hlimit : 2 ^ 51 ≤ counter) (hcounter : counter < maxCount) :
    ∃ rounding : Rounding, ∀ output : Output (Rounded rounding) γ, output.rate = rate →
      counter < output.toSamples (SampleClock.now ⟨rate, counter⟩) := by
  refine ⟨.outward, ?_⟩
  rintro output rfl
  have hcount := Rounding.le_value_natCast_outward counter
  have hspeed : (0 : Rat) < (output.rate : Rounded .outward).value :=
    (Nat.cast_pos.mpr hrate).trans_le (Rounding.le_value_natCast_outward output.rate)
  have hlimit' : (2 : Rat) ^ 51 ≤ counter := by exact_mod_cast hlimit
  have hnext : exactCount (counter + 1 / 2) = counter + 1 := by
    have hround : round ((counter : Rat) + 1 / 2) = (counter + 1 : Nat) := by
      rw [round_eq, add_assoc, Int.floor_natCast_add]
      norm_num
    rw [exactCount_eq, nearest, hround, Int.toNat_natCast]
    omega
  have hfar : (counter : Rat) + 1 / 2 ≤
      ((counter : Rounded .outward) / output.rate * output.rate).value := by
    rw [Rounding.value_div_mul_outward _ hspeed.ne']
    calc (counter : Rat) + 1 / 2
        ≤ counter * (1 + roundoff) ^ 2 := by
          norm_num [roundoff]
          linarith
      _ ≤ (counter : Rounded .outward).value * (1 + roundoff) ^ 2 :=
          mul_le_mul_of_nonneg_right hcount (by norm_num [roundoff])
  calc counter < counter + 1 := Nat.lt_succ_self counter
    _ = exactCount (counter + 1 / 2) := hnext.symm
    _ ≤ _ := exactCount_mono hfar

end Output

/-- A sequencer silences from the time of the request on. -/
theorem Sequencer.silence_now [Scalar τ] [Scalar γ] [Tuning τ] (soundtrack : Soundtrack)
    (sequencer : Sequencer τ γ) (now : τ) (request : Request γ) {time : τ}
    (hsilence : .silence time ∈ (sequencer.perform soundtrack now request).effects) :
    time = now := by
  have hplaying (h : .silence time ∈ sequencer.silenceIfPlaying now) : time = now := by
    unfold silenceIfPlaying at h
    split at h <;> simp_all
  cases transition soundtrack sequencer now request with
  | ignores reply notices hignores hperform => simp [hperform] at hsilence
  | replaces id texts song hrequest hother hsong hcompiled hperform =>
      apply hplaying
      simpa [hperform] using hsilence
  | begins song position hrequest hrests hcurrent hposition hperform => simp [hperform] at hsilence
  | pauses position hrequest hplays hposition hperform => simpa [hperform] using hsilence
  | resets hrequest hperform =>
      apply hplaying
      simpa [hperform] using hsilence
  | adjusts gain hrequest hfinite hperform => simp [hperform] at hsilence
  | ticks song tick hrequest hplays hcurrent htick hperform =>
      rw [hperform] at hsilence
      exact absurd hsilence (silence_not_mem_tickEffects tick time)

namespace Rig

variable [Scalar γ] [Tuning (Rounded rounding)] {rig : Rig (Rounded rounding) γ}
  (hrate : 0 < rig.sink.rate) (hword : rig.sink.rate < 2 ^ 32)
  (hcounter : rig.sink.counter < 2 ^ 51)

include hrate hword hcounter

/-- Whatever a request silences, it stamps with the sample that comes next. -/
theorem stopAll_request (soundtrack : Soundtrack) (request : Request γ) :
    ∃ messages, (rig.request soundtrack request).player.sink = rig.sink.queued messages ∧
      ∀ stamp, .stopAll stamp ∈ messages → stamp = rig.sink.counter := by
  obtain ⟨messages, hmessages, hsink⟩ := Output.hearAll_sublist
    (rig.sequencer.perform soundtrack rig.now request).effects rig.sink
  refine ⟨messages, hsink, ?_⟩
  intro stamp hstamp
  obtain ⟨effect, heffect, hmessage⟩ := List.mem_filterMap.mp (hmessages.subset hstamp)
  cases effect with
  | notice notice => simp [Output.message?] at hmessage
  | dispatch note => simp [Output.message?] at hmessage
  | silence time =>
      obtain rfl : time = rig.now :=
        rig.sequencer.silence_now soundtrack rig.now request heffect
      obtain rfl : rig.sink.toSamples rig.now = stamp := by simpa [Output.message?] using hmessage
      exact Output.toSamples_reading hrate hword hcounter

/-- A pause that finds room in the queue leaves exactly the notes before the sample that comes next,
and with them no note whose time is not over. -/
theorem held_stop (hplaying : rig.sequencer.playing = true)
    (hslot : rig.sink.queue.length < rig.sink.slots) (soundtrack : Soundtrack) :
    let paused := (rig.request soundtrack .stop).player
    paused.sink.held = earlier rig.sink.counter rig.sink.held ∧
      ∀ note : Dispatch (Rounded rounding) γ, rig.now ≤ note.start →
        rig.sink.stamped note ∉ paused.sink.held := by
  intro paused
  have htransport : rig.sequencer.transport.playing = true := hplaying
  have heffects : ∃ notice, (rig.sequencer.perform soundtrack rig.now .stop).effects =
      [.notice notice, .silence rig.now] := by
    simp [Sequencer.perform, Performed.map, Sequencer.stop, Transport.stop, htransport,
      StopOutcome.ended]
  obtain ⟨notice, heffects⟩ := heffects
  have hsink : paused.sink = (rig.sink.push (.stopAll (rig.sink.toSamples rig.now))).2 := by
    change (Sink.hearAll rig.sink (rig.sequencer.perform soundtrack rig.now .stop).effects).2 = _
    rw [heffects]
    rfl
  have hstamp : rig.sink.toSamples rig.now = rig.sink.counter :=
    Output.toSamples_reading hrate hword hcounter
  have hheld : paused.sink.held = earlier rig.sink.counter rig.sink.held := by
    rw [hsink, Output.held_silence hslot, hstamp]
  refine ⟨hheld, ?_⟩
  intro note hnote hmem
  have hbefore : rig.sink.toSamples note.start < rig.sink.counter := by
    rw [hheld] at hmem
    exact of_decide_eq_true (List.mem_filter.mp hmem).2
  exact hbefore.not_ge (Output.counter_le_toSamples hrate hword hcounter hnote)

end Rig

end Chiptune
