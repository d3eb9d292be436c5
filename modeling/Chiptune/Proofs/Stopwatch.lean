import Mathlib

/-!
A stopwatch beside a sequencer: it runs while the sequencer plays and reads the musical time, the
seconds of playing so far.  It remembers every start and every pause.

Main statement: the clock time that belongs to a musical time lies in the past for the time already
played, and afterwards at the distance that is still to be played.
-/
namespace Chiptune

/-- A start of the stopwatch: the clock time, and the musical time that it stood at. -/
structure Resume where
  clock : Rat
  musical : Rat

/-- Clock time at which playing reaches a musical time.  Where playing was paused at that very time,
this is the moment at which it went on. -/
def clockAt : List Resume → Rat → Rat
  | [], _ => 0
  | resume :: earlier, time =>
    if resume.musical ≤ time then resume.clock + (time - resume.musical)
    else clockAt earlier time

structure Stopwatch where
  /-- Seconds played. -/
  played : Rat
  /-- The starts, the last one first. -/
  resumes : List Resume
  /-- Musical times of the pauses. -/
  pauses : List Rat
  /-- Seconds played since the last tick, if there was one after the last start. -/
  sinceTick : Option Rat

namespace Stopwatch

def initial : Stopwatch := ⟨0, [], [], none⟩

/-- Follows a change between standing still and playing. -/
def switch (watch : Stopwatch) (before after : Bool) (now : Rat) : Stopwatch :=
  match before, after with
  | false, true =>
    { watch with resumes := ⟨now, watch.played⟩ :: watch.resumes, sinceTick := none }
  | true, false => { watch with pauses := watch.played :: watch.pauses }
  | _, _ => watch

def ticked (watch : Stopwatch) : Stopwatch := { watch with sinceTick := some 0 }

def run (watch : Stopwatch) (playing : Bool) (seconds : Rat) : Stopwatch :=
  if playing then
    { watch with
      played := watch.played + seconds
      sinceTick := watch.sinceTick.map (· + seconds) }
  else watch

/-- The pace of ticks: while playing, time goes by only up to some limit after a tick. -/
def Allows (watch : Stopwatch) (playing : Bool) (limit seconds : Rat) : Prop :=
  playing = true → 0 < seconds → ∃ since ∈ watch.sinceTick, since + seconds ≤ limit

instance (watch : Stopwatch) (playing : Bool) (limit seconds : Rat) :
    Decidable (watch.Allows playing limit seconds) :=
  inferInstanceAs (Decidable (playing = true → 0 < seconds →
    ∃ since ∈ watch.sinceTick, since + seconds ≤ limit))

@[simp] theorem played_switch (watch : Stopwatch) (before after : Bool) (now : Rat) :
    (watch.switch before after now).played = watch.played := by
  cases before <;> cases after <;> rfl

@[simp] theorem resumes_run (watch : Stopwatch) (playing : Bool) (seconds : Rat) :
    (watch.run playing seconds).resumes = watch.resumes := by
  cases playing <;> rfl

@[simp] theorem pauses_run (watch : Stopwatch) (playing : Bool) (seconds : Rat) :
    (watch.run playing seconds).pauses = watch.pauses := by
  cases playing <;> rfl

theorem played_le_run (watch : Stopwatch) (playing : Bool) {seconds : Rat}
    (hseconds : 0 ≤ seconds) : watch.played ≤ (watch.run playing seconds).played := by
  cases playing with
  | false => exact le_rfl
  | true => exact le_add_of_nonneg_right hseconds

/-- What a stopwatch knows at a clock time. -/
structure Keeps (watch : Stopwatch) (playing : Bool) (now : Rat) : Prop where
  nonneg : 0 ≤ watch.played
  past : ∀ time, 0 ≤ time → time < watch.played → clockAt watch.resumes time < now
  onward : playing = true → ∀ time, watch.played ≤ time →
    clockAt watch.resumes time = now - watch.played + time
  paused : ∀ pause ∈ watch.pauses, pause ≤ watch.played
  halted : playing = false → watch.played = 0 ∨ watch.played ∈ watch.pauses

variable {watch : Stopwatch} {playing : Bool} {now seconds : Rat}

theorem keeps_initial (now : Rat) : Stopwatch.initial.Keeps false now where
  nonneg := le_rfl
  past _ hnonneg hlt := absurd hlt hnonneg.not_gt
  onward hplaying := by simp at hplaying
  paused pause hpause := by simp [initial] at hpause
  halted _ := .inl rfl

/-- A start leaves the clock times of what has been played as they were. -/
theorem clockAt_start {time : Rat} (htime : time < watch.played) :
    clockAt (watch.switch false true now).resumes time = clockAt watch.resumes time := by
  change (if watch.played ≤ time then _ else clockAt watch.resumes time) = _
  exact if_neg htime.not_ge

theorem Keeps.start (h : watch.Keeps false now) : (watch.switch false true now).Keeps true now where
  nonneg := h.nonneg
  past time hnonneg hlt := by
    rw [played_switch] at hlt
    rw [clockAt_start hlt]
    exact h.past time hnonneg hlt
  onward _ time hle := by
    rw [played_switch] at hle ⊢
    change (if watch.played ≤ time then now + (time - watch.played) else _) = _
    rw [if_pos hle]
    ring
  paused := h.paused
  halted hplaying := by simp at hplaying

theorem Keeps.pause (h : watch.Keeps true now) : (watch.switch true false now).Keeps false now where
  nonneg := h.nonneg
  past := h.past
  onward hplaying := by simp at hplaying
  paused pause hpause := by
    rcases List.mem_cons.mp hpause with rfl | hpause
    · exact le_rfl
    · exact h.paused pause hpause
  halted _ := .inr List.mem_cons_self

/-- While playing, what has been played is what lies before now. -/
theorem Keeps.clockAt_lt_iff (h : watch.Keeps true now) {time : Rat} (hnonneg : 0 ≤ time) :
    clockAt watch.resumes time < now ↔ time < watch.played := by
  constructor
  · intro hlt
    by_contra hle
    have honward := h.onward rfl time (not_lt.mp hle)
    linarith
  · exact h.past time hnonneg

theorem Keeps.ticked (h : watch.Keeps playing now) : watch.ticked.Keeps playing now :=
  ⟨h.nonneg, h.past, h.onward, h.paused, h.halted⟩

theorem Keeps.run (h : watch.Keeps playing now) (hseconds : 0 ≤ seconds) :
    (watch.run playing seconds).Keeps playing (now + seconds) := by
  cases playing with
  | false =>
      refine ⟨h.nonneg, ?_, fun hplaying => by simp at hplaying, h.paused, h.halted⟩
      intro time hnonneg hlt
      exact (h.past time hnonneg hlt).trans_le (by linarith)
  | true =>
      change Keeps { watch with played := watch.played + seconds, sinceTick := _ } true _
      refine ⟨?_, ?_, ?_, ?_, fun hplaying => by simp at hplaying⟩
      · exact add_nonneg h.nonneg hseconds
      · intro time hnonneg hlt
        dsimp only at hlt ⊢
        rcases lt_or_ge time watch.played with hold | hnew
        · exact (h.past time hnonneg hold).trans_le (by linarith)
        · rw [h.onward rfl time hnew]
          linarith
      · intro _ time hle
        dsimp only at hle ⊢
        rw [h.onward rfl time (by linarith)]
        ring
      · intro pause hpause
        exact (h.paused pause hpause).trans (by dsimp only; linarith)

end Stopwatch

end Chiptune
