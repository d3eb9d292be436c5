import Chiptune.Config.Basic
import Chiptune.Scheduler
import Chiptune.Sink
import Chiptune.Soundtrack

/-!
The sequencer plays one song of a soundtrack in a loop: it owns the current song, the transport and
the scheduler, and hands notes to a sink.

An operation takes the clock time at which it happens and answers with the sequencer after it and
with its effects, in order.  Playing goes on by ticks, at any spacing below the lookahead.
-/
namespace Chiptune

/-- What the log says about a search for a song. -/
def LoadOutcome.notices {τ γ : Type} (id : Nat) : LoadOutcome τ γ → List (Notice τ γ)
  | .unchanged _ => []
  | .replaced song => [.songCompiled id song.loopLength song.eventCount]
  | .missing => [.songUnknown id]

/-- What the log says about the turn of the loop in a tick. -/
def Tick.turnNotices {τ γ : Type} (tick : Tick τ γ) : List (Notice τ γ) :=
  tick.cycles.toList.map fun cycles => .loopWrapped cycles tick.report.anchor

/-- What the log says about the events that a tick came too late for. -/
def Tick.missNotices {τ γ : Type} (tick : Tick τ γ) : List (Notice τ γ) :=
  if tick.report.missed = 0 then [] else [.eventsMissed tick.report.missed]

structure Sequencer (τ γ : Type) where
  current : Option (Composition τ γ)
  transport : Transport τ γ
  scheduler : Scheduler τ
  /-- Gain of every part, on top of the volumes of its events. -/
  mix : PerRole γ

/-- What an operation answers, the sequencer after it, and its effects. -/
structure Performed (τ γ α : Type) where
  answer : α
  sequencer : Sequencer τ γ
  effects : List (Effect τ γ)

namespace Sequencer

variable {τ γ : Type} [Scalar τ] [Scalar γ]

def initial (lookahead : τ) (volume : γ) (mix : PerRole γ) : Sequencer τ γ :=
  ⟨none, .initial volume, .initial lookahead, mix⟩

def ofConfig (config : Config γ) : Sequencer τ γ :=
  .initial config.lookahead config.masterVolume config.mix

def playing (sequencer : Sequencer τ γ) : Bool := sequencer.transport.playing

/-- A silence from now on, if anything may be sounding. -/
def silenceIfPlaying (sequencer : Sequencer τ γ) (now : τ) : List (Effect τ γ) :=
  if sequencer.playing then [.silence now] else []

/-- Makes a song current and answers whether there is such a song.  The song that is current already
is left undisturbed; another one begins at the top of its tracks, and whether it plays is left to
the transport. -/
def load [Tuning τ] (sequencer : Sequencer τ γ) (soundtrack : Soundtrack) (id : Nat) (now : τ) :
    Performed τ γ Bool :=
  let outcome := soundtrack.load sequencer.current id
  let searched := (outcome.notices id).map Effect.notice
  match outcome with
  | .unchanged _ => ⟨true, sequencer, searched ++ [.notice (.songAlreadyLoaded id)]⟩
  | .missing => ⟨false, sequencer, searched⟩
  | .replaced song =>
    { answer := true
      sequencer :=
        { sequencer with current := some song, scheduler := sequencer.scheduler.rewind }
      effects :=
        searched ++ sequencer.silenceIfPlaying now ++ [.notice (.songLoaded id song.loopLength)] }

/-- Plays the current song from the saved position. -/
def start (sequencer : Sequencer τ γ) (now : τ) : Performed τ γ Unit :=
  let (outcome, transport) :=
    sequencer.transport.start (sequencer.current.map Composition.loopLength) now
  let scheduler :=
    match outcome, sequencer.current with
    | .playingFrom position, some song => sequencer.scheduler.seek song position
    | _, _ => sequencer.scheduler
  ⟨(), { sequencer with transport, scheduler }, [.notice (.startAsked outcome)]⟩

/-- Pauses, and takes back what the sink has not begun to play.  One reading of the clock is enough:
nothing but the time of the silence depends on the second one, which a running clock makes later. -/
def stop (sequencer : Sequencer τ γ) (now : τ) : Performed τ γ Unit :=
  let loopLength := (sequencer.current.map Composition.loopLength).getD 0
  let (outcome, transport) := sequencer.transport.stop loopLength now
  ⟨(), { sequencer with transport },
    .notice (.stopAsked outcome) :: if outcome.ended then [.silence now] else []⟩

def reset (sequencer : Sequencer τ γ) (now : τ) : Performed τ γ Unit :=
  { answer := ()
    sequencer :=
      { sequencer with
        current := none
        transport := sequencer.transport.reset
        scheduler := sequencer.scheduler.rewind }
    effects := sequencer.silenceIfPlaying now ++ [.notice .transportReset] }

def setVolume (sequencer : Sequencer τ γ) (gain : γ) : Performed τ γ Unit :=
  ⟨(), { sequencer with transport := sequencer.transport.setVolume gain }, []⟩

def dispatchOf (sequencer : Sequencer τ γ) (scheduled : Scheduled τ γ) : Dispatch τ γ where
  role := scheduled.role
  voice := scheduled.event.voice
  volume := scheduled.event.volume * sequencer.mix.get scheduled.role * sequencer.transport.volume
  start := scheduled.time
  duration := scheduled.event.duration

/-- The effects of a tick: the turn of the loop, the notes, and the notes that came too late. -/
def tickEffects (sequencer : Sequencer τ γ) (tick : Tick τ γ) : List (Effect τ γ) :=
  tick.turnNotices.map .notice ++
    tick.scheduled.map (fun scheduled => .dispatch (sequencer.dispatchOf scheduled)) ++
    tick.missNotices.map .notice

/-- Plays on to a clock time.  A sequencer that is stopped has nothing to report. -/
def tick (sequencer : Sequencer τ γ) (now : τ) : Performed τ γ (Option (Report τ)) :=
  match sequencer.playing, sequencer.current with
  | true, some song =>
    let tick := sequencer.scheduler.tick song now sequencer.transport.anchor
    { answer := some tick.report
      sequencer :=
        { sequencer with
          scheduler := tick.scheduler
          transport := sequencer.transport.rebase tick.report.anchor }
      effects := sequencer.tickEffects tick }
  | _, _ => ⟨none, sequencer, []⟩

end Sequencer

inductive Request (γ : Type) where
  | load (id : Nat)
  | start
  | stop
  | reset
  | setVolume (gain : γ)
  | tick
deriving Repr

inductive Reply (τ : Type) where
  | done
  | found (found : Bool)
  | report (report : Option (Report τ))
deriving Repr

namespace Performed

variable {τ γ α β : Type}

def map (f : α → β) (performed : Performed τ γ α) : Performed τ γ β :=
  ⟨f performed.answer, performed.sequencer, performed.effects⟩

end Performed

def Sequencer.perform {τ γ : Type} [Scalar τ] [Scalar γ] [Tuning τ] (soundtrack : Soundtrack)
    (sequencer : Sequencer τ γ) (now : τ) : Request γ → Performed τ γ (Reply τ)
  | .load id => (sequencer.load soundtrack id now).map .found
  | .start => (sequencer.start now).map fun _ => .done
  | .stop => (sequencer.stop now).map fun _ => .done
  | .reset => (sequencer.reset now).map fun _ => .done
  | .setVolume gain => (sequencer.setVolume gain).map fun _ => .done
  | .tick => (sequencer.tick now).map .report

end Chiptune
