import Chiptune.Proofs.Coherence
import Chiptune.Proofs.Requests

/-!
Requests that a sequencer ignores leave no trace.

Main statement: of the requests in a run, any that are ignored when their turn comes may be left out.
The others do what they did, the sink is called as it was, and the sequencer ends up the same.
-/
namespace Chiptune

variable {τ γ : Type}

def Effect.isCall : Effect τ γ → Bool
  | .notice _ => false
  | .dispatch _ | .silence _ => true

@[simp] theorem Effect.filter_isCall_notices (notices : List (Notice τ γ)) :
    (notices.map Effect.notice).filter Effect.isCall = [] := by
  simp [List.filter_map, Function.comp_def, isCall]

/-- A request at its clock time, and whether it is left out of another run. -/
structure Asked (τ γ : Type) where
  now : τ
  request : Request γ
  omitted : Bool

namespace Sequencer

variable [Scalar τ] [Scalar γ]

instance decidableIgnores (sequencer : Sequencer τ γ) (soundtrack : Soundtrack) :
    (request : Request γ) → Decidable (sequencer.Ignores soundtrack request)
  | .load id =>
    inferInstanceAs
      (Decidable ((∃ song ∈ sequencer.current, song.id = id) ∨ soundtrack.song id = none))
  | .start => inferInstanceAs (Decidable (sequencer.playing = true ∨ sequencer.current = none))
  | .stop => inferInstanceAs (Decidable (sequencer.playing = false))
  | .reset => inferInstanceAs (Decidable False)
  | .setVolume gain => inferInstanceAs (Decidable (Scalar.isFinite gain = false))
  | .tick => inferInstanceAs (Decidable (sequencer.playing = false ∨ sequencer.current = none))

variable [Tuning τ]

/-- What is ignored says something for the log at most. -/
theorem Ignores.perform {sequencer : Sequencer τ γ} {soundtrack : Soundtrack} {request : Request γ}
    (h : sequencer.Ignores soundtrack request) (now : τ) :
    let performed := sequencer.perform soundtrack now request
    performed.sequencer = sequencer ∧ performed.effects.filter Effect.isCall = [] := by
  cases transition soundtrack sequencer now request with
  | ignores reply notices hignores hperform =>
      rw [hperform]
      exact ⟨rfl, Effect.filter_isCall_notices notices⟩
  | replaces id texts song hrequest hother hsong hcompiled hperform =>
      subst hrequest
      obtain ⟨current, hcurrent, hid⟩ | hmissing := h
      · exact absurd hid (hother current hcurrent)
      · rw [hmissing] at hsong
        cases hsong
  | begins song position hrequest hrests hcurrent hposition hperform =>
      subst hrequest
      obtain hplays | hnone := h
      · exact absurd (hrests.symm.trans hplays) Bool.false_ne_true
      · rw [hnone] at hcurrent
        cases hcurrent
  | pauses position hrequest hplays hposition hperform =>
      subst hrequest
      exact absurd (h.symm.trans hplays) Bool.false_ne_true
  | resets hrequest hperform =>
      subst hrequest
      exact h.elim
  | adjusts gain hrequest hfinite hperform =>
      subst hrequest
      exact absurd (h.symm.trans hfinite) Bool.false_ne_true
  | ticks song tick hrequest hplays hcurrent htick hperform =>
      subst hrequest
      obtain hrests | hnone := h
      · exact absurd (hrests.symm.trans hplays) Bool.false_ne_true
      · rw [hnone] at hcurrent
        cases hcurrent

/-- Performs requests one after another and puts down what each of them did: its answer, its
effects, and the sequencer that it left. -/
def transcript (sequencer : Sequencer τ γ) (soundtrack : Soundtrack) :
    List (Asked τ γ) → List (Asked τ γ × Performed τ γ (Reply τ))
  | [] => []
  | asked :: later =>
    let performed := sequencer.perform soundtrack asked.now asked.request
    (asked, performed) :: performed.sequencer.transcript soundtrack later

def calls (sequencer : Sequencer τ γ) (soundtrack : Soundtrack) (requests : List (Asked τ γ)) :
    List (Effect τ γ) :=
  (sequencer.transcript soundtrack requests).flatMap fun entry =>
    entry.2.effects.filter Effect.isCall

def final (sequencer : Sequencer τ γ) (soundtrack : Soundtrack) (requests : List (Asked τ γ)) :
    Sequencer τ γ :=
  sequencer.performAll soundtrack (requests.map fun asked => (asked.now, asked.request))

/-- Whatever is left out is ignored when its turn comes. -/
def OmitsIgnored (sequencer : Sequencer τ γ) (soundtrack : Soundtrack)
    (requests : List (Asked τ γ)) : Prop :=
  Admits (fun sequencer asked => (sequencer.perform soundtrack asked.now asked.request).sequencer)
    (fun sequencer asked => asked.omitted = true → sequencer.Ignores soundtrack asked.request)
    sequencer requests

instance (sequencer : Sequencer τ γ) (soundtrack : Soundtrack) (requests : List (Asked τ γ)) :
    Decidable (sequencer.OmitsIgnored soundtrack requests) :=
  decidableAdmits sequencer requests

/-- Ignored requests leave no trace.  Out of any requests that a sequencer performs, at any clock
times, some are left out, each of them one that is ignored when its turn comes: a load of the song
that is current or of one that does not exist, a start while something plays or without a song, a
stop or a tick while nothing plays, or a volume that is not finite.  Then each of the others does
what it does in the full run, down to its answer, its effects, and all that the sequencer keeps after
it; the sink gets the same notes and silences in the same order; and the sequencer ends up the
same. -/
theorem transcript_without_ignored (soundtrack : Soundtrack) (sequencer : Sequencer τ γ)
    (requests : List (Asked τ γ)) (homits : sequencer.OmitsIgnored soundtrack requests) :
    let kept := requests.filter fun asked => !asked.omitted
    sequencer.transcript soundtrack kept =
        (sequencer.transcript soundtrack requests).filter (fun entry => !entry.1.omitted) ∧
      sequencer.calls soundtrack kept = sequencer.calls soundtrack requests ∧
      sequencer.final soundtrack kept = sequencer.final soundtrack requests := by
  induction requests generalizing sequencer with
  | nil => exact ⟨rfl, rfl, rfl⟩
  | cons asked later ih =>
      obtain ⟨hasked, hlater⟩ := homits
      obtain ⟨htranscript, hcalls, hfinal⟩ := ih _ hlater
      obtain ⟨now, request, omitted⟩ := asked
      cases omitted with
      | false =>
          exact ⟨congrArg (List.cons _) htranscript, congrArg (_ ++ ·) hcalls, hfinal⟩
      | true =>
          obtain ⟨hsequencer, hnothing⟩ := (hasked rfl).perform now
          dsimp only at hsequencer hnothing htranscript hcalls hfinal
          rw [hsequencer] at htranscript hcalls hfinal
          refine ⟨?_, ?_, ?_⟩
          · simpa [transcript, hsequencer] using htranscript
          · simpa [calls, transcript, hsequencer, hnothing] using hcalls
          · simpa [final, performAll, hsequencer] using hfinal

open Octaves Extended in
/-- Every kind of request that is ignored, around a song that is paused. -/
theorem transcript_without_ignored_around_pause :
    let soundtrack : Soundtrack := ⟨fun id => if id = 0 then some ⟨"a", "", "", ""⟩ else none,
      fun _ => none, id⟩
    let fresh : Sequencer Extended Extended := initial (finite (1 / 2)) 1 (.replicate 1)
    let requests : List (Asked Extended Extended) :=
      [⟨finite 0, .start, true⟩, ⟨finite 0, .load 0, false⟩, ⟨finite 0, .stop, true⟩,
        ⟨finite 0, .tick, true⟩, ⟨finite 1, .start, false⟩, ⟨finite 1, .tick, false⟩,
        ⟨finite 1, .load 0, true⟩, ⟨finite 1, .load 1, true⟩, ⟨finite 1, .setVolume nan, true⟩,
        ⟨finite 1, .start, true⟩, ⟨finite (5 / 4), .tick, false⟩, ⟨finite (5 / 4), .stop, false⟩]
    let kept : List (Asked Extended Extended) :=
      [⟨finite 0, .load 0, false⟩, ⟨finite 1, .start, false⟩, ⟨finite 1, .tick, false⟩,
        ⟨finite (5 / 4), .tick, false⟩, ⟨finite (5 / 4), .stop, false⟩]
    fresh.OmitsIgnored soundtrack requests ∧
      fresh.calls soundtrack kept = fresh.calls soundtrack requests ∧
      fresh.final soundtrack kept = fresh.final soundtrack requests ∧
      (fresh.calls soundtrack requests).length = 3 := by
  intro soundtrack fresh requests kept
  have homits : fresh.OmitsIgnored soundtrack requests := by decide +kernel
  obtain ⟨_, hcalls, hfinal⟩ := transcript_without_ignored soundtrack fresh requests homits
  exact ⟨homits, hcalls, hfinal, by decide +kernel⟩

end Sequencer

end Chiptune
