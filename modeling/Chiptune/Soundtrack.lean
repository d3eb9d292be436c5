import Chiptune.Composition

/-!
A soundtrack names its songs by number and assigns one to every stage of a game.  Of its songs at
most one is current, in compiled form.
-/
namespace Chiptune

structure Soundtrack where
  /-- The notation of a song, if there is one of that number. -/
  song : Nat → Option (PerRole String)
  title : Nat → Option String
  /-- The number of the song for a stage. -/
  songOfStage : Nat → Nat

/-- What came of asking for a song. -/
inductive LoadOutcome (τ γ : Type) where
  /-- The song was already current. -/
  | unchanged (composition : Composition τ γ)
  /-- The song was compiled and takes the place of the current one. -/
  | replaced (composition : Composition τ γ)
  /-- There is no such song; the current one stays. -/
  | missing

namespace LoadOutcome

variable {τ γ : Type}

def composition? : LoadOutcome τ γ → Option (Composition τ γ)
  | .unchanged composition | .replaced composition => some composition
  | .missing => none

def current (outcome : LoadOutcome τ γ) (before : Option (Composition τ γ)) :
    Option (Composition τ γ) :=
  match outcome with
  | .replaced composition => some composition
  | .unchanged _ | .missing => before

end LoadOutcome

/-- Asks for a song.  Only a song that is not current is compiled. -/
def Soundtrack.load {τ γ : Type} [Scalar τ] [Scalar γ] [Tuning τ] (soundtrack : Soundtrack)
    (current : Option (Composition τ γ)) (id : Nat) : LoadOutcome τ γ :=
  match current.filter fun composition => composition.id == id with
  | some composition => .unchanged composition
  | none =>
    match soundtrack.song id with
    | some texts => .replaced (Composition.compile id texts)
    | none => .missing

end Chiptune
