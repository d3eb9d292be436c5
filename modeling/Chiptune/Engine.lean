import Chiptune.Sequencer

/-!
The engine keeps a sequencer running: it waits for commands, and while the music plays it also wakes
up by itself at a fixed interval.  Whatever woke it, it then lets the sequencer play on.
-/
namespace Chiptune

/-- Why a command could not be carried out. -/
inductive Refusal where
  | unknownSong (id : Nat)
deriving DecidableEq, Repr

def Refusal.message : Refusal → String
  | .unknownSong id => s!"No composition with id {id}"

/-- What an engine tells those who command it. -/
inductive Update (τ : Type) where
  | loaded (id : Nat) (title : Option String) (loopLength : τ)
  | playback (playing : Bool)
  | refused (refusal : Refusal)
deriving Repr

namespace Engine

variable {τ γ : Type} [Scalar τ] [Scalar γ] [Tuning τ]

/-- An engine's work so far: its sequencer, the effects of the work and the updates sent. -/
structure Work (τ γ : Type) where
  sequencer : Sequencer τ γ
  effects : List (Effect τ γ)
  updates : List (Update τ)

/-- Adds the effects of an operation of the sequencer. -/
def Work.perform {α : Type} (work : Work τ γ)
    (operation : Sequencer τ γ → Performed τ γ α) : Work τ γ :=
  let performed := operation work.sequencer
  { work with
    sequencer := performed.sequencer, effects := work.effects ++ performed.effects }

def Work.note (work : Work τ γ) (notice : Notice τ γ) : Work τ γ :=
  { work with effects := work.effects ++ [.notice notice] }

def Work.tell (work : Work τ γ) (updates : List (Update τ)) : Work τ γ :=
  { work with updates := work.updates ++ updates }

/-- What there is to tell about a song asked for: nothing if it was current before. -/
def loadUpdates (soundtrack : Soundtrack) (before : Sequencer τ γ)
    (id : Nat) (performed : Performed τ γ Bool) : List (Update τ) :=
  if performed.answer then
    if before.current.map Composition.id = some id then []
    else performed.sequencer.current.toList.map fun song =>
      .loaded id (soundtrack.title id) song.loopLength
  else [.refused (.unknownSong id)]

def load (soundtrack : Soundtrack) (work : Work τ γ) (id : Nat) (now : τ) : Work τ γ :=
  let performed := work.sequencer.load soundtrack id now
  (work.perform fun _ => performed).tell (loadUpdates soundtrack work.sequencer id performed)

/-- Carries a command out, apart from what it does to playback. -/
def obey (soundtrack : Soundtrack) (work : Work τ γ) (command : Command γ) (now : τ) : Work τ γ :=
  match command with
  | .load id => load soundtrack work id now
  | .loadStage stage =>
    let id := soundtrack.songOfStage stage
    load soundtrack (work.note (.stageChosen stage id)) id now
  | .start => work.perform (·.start now)
  | .stop => work.perform (·.stop now)
  | .toggle =>
    if work.sequencer.playing then work.perform (·.stop now) else work.perform (·.start now)
  | .reset => work.perform (·.reset now)
  | .setVolume gain => work.perform (·.setVolume gain)
  | .shutdown => work

/-- Carries a command out and tells whether playback began or ended by it. -/
def handle (soundtrack : Soundtrack) (work : Work τ γ) (command : Command γ) (now : τ) :
    Work τ γ :=
  let after := obey soundtrack (work.note (.commandReceived command)) command now
  if after.sequencer.playing = work.sequencer.playing then after
  else after.tell [.playback after.sequencer.playing]

/-- One waking of the engine: by a command, or because the interval is over.  The clock moves on while
the engine works. -/
structure Turn (τ γ : Type) where
  command : Option (Command γ)
  /-- Clock time at which the command is carried out. -/
  handledAt : τ
  /-- Clock time of the tick after it. -/
  polledAt : τ

def Turn.ends (turn : Turn τ γ) : Bool :=
  match turn.command with
  | some .shutdown => true
  | _ => false

/-- Carries out the command of a turn, if any, and lets the sequencer play on. -/
def turn (soundtrack : Soundtrack) (work : Work τ γ) (turn : Turn τ γ) : Work τ γ :=
  let handled :=
    match turn.command with
    | some command => handle soundtrack work command turn.handledAt
    | none => work
  handled.perform (·.tick turn.polledAt)

/-- Turn after turn, until one ends the engine. -/
def serve (soundtrack : Soundtrack) (work : Work τ γ) (turns : List (Turn τ γ)) : Work τ γ :=
  (turns.takeWhile fun turn => !turn.ends).foldl (turn soundtrack) work

def opening (sequencer : Sequencer τ γ) : Work τ γ := Work.note ⟨sequencer, [], []⟩ .engineStarted

/-- The end of an engine's work: it resets the sequencer. -/
def close (work : Work τ γ) (endedAt : τ) : Work τ γ :=
  (work.perform (·.reset endedAt)).note .engineStopped

/-- The life of an engine.  It ends by a command, or when no more commands can come. -/
def run (soundtrack : Soundtrack) (sequencer : Sequencer τ γ) (turns : List (Turn τ γ))
    (endedAt : τ) : Work τ γ :=
  close (serve soundtrack (opening sequencer) turns) endedAt

end Engine

end Chiptune
