import Chiptune.Decimal.Text
import Chiptune.Notice
import Chiptune.Scalar.Float

/-!
The lines of the log.  Times have three places, loop lengths two.
-/
namespace Chiptune

def Level.name : Level → String
  | .debug => "DEBUG"
  | .info => "INFO"
  | .warn => "WARN"

def Role.name : Role → String
  | .lead => "Lead"
  | .harmony => "Harmony"
  | .bass => "Bass"
  | .percussion => "Percussion"

variable {τ γ : Type} [BinaryFloat τ] [BinaryFloat γ]

def Voice.describe : Voice τ → String
  | .tone frequency => s!"Tone({Decimal.text .scaled frequency})"
  | .kick => "Percussion(Kick)"
  | .snare => "Percussion(Snare)"

def Command.describe : Command γ → String
  | .load id => s!"Load({id})"
  | .loadStage stage => s!"LoadStage({stage})"
  | .start => "Start"
  | .stop => "Stop"
  | .toggle => "Toggle"
  | .reset => "Reset"
  | .setVolume gain => s!"SetVolume({Decimal.text .scaled gain})"
  | .shutdown => "Shutdown"

namespace Notice

/-- A time in seconds, as the log shows it. -/
def seconds {α : Type} [BinaryFloat α] (time : α) : String := Decimal.fixed 3 time

def message : Notice τ γ → String
  | .loopWrapped cycles anchor =>
    s!"Loop wrapped after {Decimal.text .plain cycles} cycle(s), anchor {seconds anchor}"
  | .eventsMissed count => s!"{count} event(s) reached after their start time"
  | .startAsked .alreadyPlaying => "start ignored: already playing"
  | .startAsked .nothingLoaded => "start ignored: no composition loaded"
  | .startAsked (.playingFrom position) => s!"Playing from {seconds position}s"
  | .stopAsked .alreadyStopped => "stop ignored: already stopped"
  | .stopAsked (.pausedAt position) => s!"Paused at {seconds position}s"
  | .transportReset => "Transport reset"
  | .songUnknown id => s!"No composition with id {id}"
  | .songCompiled id loopLength events =>
    s!"Compiled composition {id}: {Decimal.fixed 2 loopLength}s loop, {events} events"
  | .songAlreadyLoaded id => s!"Composition {id} already loaded"
  | .songLoaded id loopLength =>
    s!"Loaded composition {id} ({Decimal.fixed 2 loopLength}s loop)"
  | .noteHeard note =>
    let what := s!"{note.role.name} {note.voice.describe}"
    let times := s!"at {seconds note.start}s for {seconds note.duration}s"
    s!"{what} {times}, gain {seconds note.volume}"
  | .silenceHeard time => s!"silence from {seconds time}s"
  | .queueFull => "Audio event queue is full, dropping event"
  | .engineStarted => "Engine thread started"
  | .engineStopped => "Engine thread stopped"
  | .commandReceived command => s!"Engine command {command.describe}"
  | .stageChosen stage id => s!"Stage {stage} plays composition {id}"

def line (notice : Notice τ γ) : String := s!"{notice.level.name} {notice.message}"

end Notice

end Chiptune
