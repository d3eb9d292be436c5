import Chiptune.Proofs.Timeline

/-!
Playheads stay inside their tracks, whatever the clock shows and however its numbers are rounded.

Main statement: a tick and a seek leave every cursor and every count of early events within the track,
and early events only where the cycle is finished.
-/
namespace Chiptune

variable {τ γ : Type} [Scalar τ]

/-- The turn of the loop: what was handed out early is where the new cycle goes on. -/
theorem Playhead.Valid.turned {head : Playhead} {events : Nat} (h : head.Valid events) :
    Playhead.Valid ⟨head.carried, 0⟩ events :=
  ⟨h.carried_le, Nat.zero_le _, .inl rfl⟩

namespace Scheduler

theorem add_length_within_le {events : List (NoteEvent τ γ)} {index : Nat}
    (hindex : index ≤ events.length) (anchor horizon : τ) :
    index + (within events index anchor horizon).length ≤ events.length := by
  have hprefix : (within events index anchor horizon).length ≤ (events.drop index).length :=
    (List.takeWhile_prefix _).length_le
  rw [List.length_drop] at hprefix
  omega

theorem valid_pass (role : Role) {events : List (NoteEvent τ γ)} {head : Playhead}
    (hvalid : head.Valid events.length) (now anchor loopLength horizon : τ) :
    (pass role events head now anchor loopLength horizon).head.Valid events.length := by
  have hcursor := add_length_within_le hvalid.cursor_le anchor horizon
  have hcarried := add_length_within_le hvalid.carried_le (anchor + loopLength) horizon
  unfold pass
  dsimp only
  split
  · next hboth => exact ⟨hcursor, hcarried, .inr hboth.1⟩
  · refine ⟨hcursor, hvalid.carried_le, hvalid.finished.imp id fun hend => ?_⟩
    dsimp only
    have hfirst := hvalid.cursor_le
    omega

section

variable {composition : Composition τ γ} {heads : PerRole Playhead}

theorem valid_nextCycle (hvalid : ∀ role, (heads.get role).Valid (composition.tracks.get role).length)
    (cycles : τ) (role : Role) :
    ((nextCycle cycles heads).get role).Valid (composition.tracks.get role).length := by
  unfold nextCycle
  split
  · rw [PerRole.get_map]
    exact (hvalid role).turned
  · rw [PerRole.get_replicate]
    exact Playhead.valid_top _

theorem valid_tick {scheduler : Scheduler τ}
    (hvalid : ∀ role, (scheduler.heads.get role).Valid (composition.tracks.get role).length)
    (now anchor : τ) (role : Role) :
    ((scheduler.tick composition now anchor).scheduler.heads.get role).Valid
      (composition.tracks.get role).length := by
  unfold tick
  split
  · exact hvalid role
  · dsimp only
    rw [PerRole.get_map, passAll, PerRole.get_ofRole]
    apply valid_pass
    cases cyclesPassed composition.loopLength now anchor with
    | none => exact hvalid role
    | some cycles => exact valid_nextCycle hvalid cycles role

theorem valid_seek (scheduler : Scheduler τ) (composition : Composition τ γ) (position : τ)
    (role : Role) :
    ((scheduler.seek composition position).heads.get role).Valid
      (composition.tracks.get role).length := by
  rw [seek, PerRole.get_map]
  exact ⟨(List.takeWhile_prefix _).length_le, Nat.zero_le _, .inl rfl⟩

omit [Scalar τ] in
theorem valid_rewind (scheduler : Scheduler τ) (composition : Composition τ γ) (role : Role) :
    (scheduler.rewind.heads.get role).Valid (composition.tracks.get role).length := by
  rw [rewind, PerRole.get_replicate]
  exact Playhead.valid_top _

end

end Scheduler

end Chiptune
