import Chiptune.Catalog
import Chiptune.Clock
import Chiptune.Config.Document
import Chiptune.Controls
import Chiptune.Notice.Text

/-!
A player for the command line.  It plays the built-in songs without sound and shows what it would
play.  The first argument names a file of settings.  Keys are read from standard input, each with the
next line break.
-/
namespace Chiptune

def Update.describe : Update Float → String
  | .loaded id title loopLength =>
    let name := title.getD "untitled"
    s!"♪ {name} (#{id}, {Decimal.fixed 1 loopLength}s loop)"
  | .playback playing => if playing then "playing" else "paused"
  | .refused refusal => s!"error: {refusal.message}"

def readSettings (path : String) : IO FileContent := do
  try
    return .bytes (← IO.FS.readBinFile path)
  catch error =>
    match error with
    | .noFileOrDirectory .. => return .missing
    | _ => return .directory

/-- Shows the work of an engine and begins a new piece of work. -/
def showWork (work : Engine.Work Float Float32) : IO (Sequencer Float Float32) := do
  let (notices, _) := Sink.hearAll (LogOnly.mk : LogOnly Float Float32) work.effects
  for notice in notices do
    if notice.level ≠ .debug then IO.eprintln notice.line
  for update in work.updates do IO.println update.describe
  return work.sequencer

/-- Collects keys until the input ends. -/
partial def collectKeys (input : IO.FS.Stream) (keys : IO.Ref (List Char)) : IO Unit := do
  let line ← input.getLine
  if line.isEmpty then keys.modify (· ++ ['q'])
  else
    keys.modify (· ++ (line.toList.filter (· != '\n')))
    collectKeys input keys

/-- Lets an engine run until it is told to end. -/
partial def runEngine (config : Config Float32) (keys : IO.Ref (List Char)) (origin : Nat)
    (controls : Controls Float32) (sequencer : Sequencer Float Float32) : IO Unit := do
  let now : Float := secondsBetween origin (← IO.monoNanosNow)
  let pressed ← keys.modifyGet fun pressed => (pressed, [])
  let (commands, controls) := pressed.foldl (fun (commands, controls) key =>
    let (more, controls) := controls.press key
    (commands ++ more, controls)) ([], controls)
  let wakings : List (Option (Command Float32)) :=
    if commands.isEmpty then [none] else commands.map some
  let turns := wakings.map fun command => ⟨command, now, now⟩
  let sequencer ← showWork (Engine.serve catalog ⟨sequencer, [], []⟩ turns)
  if turns.any Engine.Turn.ends then
    let _ ← showWork (Engine.close ⟨sequencer, [], []⟩ now)
  else
    IO.sleep config.pollInterval.toUInt32
    runEngine config keys origin controls sequencer

end Chiptune

open Chiptune in
def main (arguments : List String) : IO UInt32 := do
  let file ← arguments.head?.mapM readSettings
  match (Config.load file : Except Failure (Config Config.Gain)) with
  | .error failure =>
    IO.eprintln failure.message
    return 1
  | .ok settings =>
    let config := settings.map Config.Gain.level
    let origin ← IO.monoNanosNow
    let keys ← IO.mkRef []
    let input ← IO.getStdin
    let _ ← IO.asTask (collectKeys input keys)
    IO.println "space: pause/resume  n: next stage  r: restart  +/-: volume  q: quit"
    let stage := max config.startStage.toNat 1
    let begun := Engine.opening (.ofConfig config)
    let opening : List (Engine.Turn Float Float32) :=
      [⟨some (.loadStage stage), 0, 0⟩, ⟨some .start, 0, 0⟩]
    let sequencer ← showWork (Engine.serve catalog begun opening)
    runEngine config keys origin ⟨stage, config.masterVolume⟩ sequencer
    return 0
