import Chiptune.Config.Basic
import Chiptune.Config.Gain
import Chiptune.Failure

/-!
Settings in files.

A file may set some of the fields and of its mix some of the gains; the others keep their initial
values.  How a text holds values is up to a codec.
-/
namespace Chiptune

namespace Config

variable {γ : Type}

inductive Setting where
  | pollIntervalMs
  | lookaheadMs
  | masterVolume
  | startStage
  | mix
  | ringCapacity
deriving DecidableEq, Repr

namespace Setting

def name : Setting → String
  | .pollIntervalMs => "poll_interval_ms"
  | .lookaheadMs => "lookahead_ms"
  | .masterVolume => "master_volume"
  | .startStage => "start_stage"
  | .mix => "mix"
  | .ringCapacity => "ring_capacity"

def all : List Setting :=
  [.pollIntervalMs, .lookaheadMs, .masterVolume, .startStage, .mix, .ringCapacity]

def Value (γ : Type) : Setting → Type
  | .pollIntervalMs | .lookaheadMs | .ringCapacity => UInt64
  | .masterVolume => γ
  | .startStage => UInt32
  | .mix => PerRole γ

end Setting

def gainName : Role → String
  | .lead => "lead"
  | .harmony => "harmony"
  | .bass => "bass"
  | .percussion => "percussion"

def get (config : Config γ) : ∀ setting : Setting, setting.Value γ
  | .pollIntervalMs => config.pollIntervalMs
  | .lookaheadMs => config.lookaheadMs
  | .masterVolume => config.masterVolume
  | .startStage => config.startStage
  | .mix => config.mix
  | .ringCapacity => config.ringCapacity

/-- The settings with given values of the fields. -/
def build (values : ∀ setting : Setting, setting.Value γ) : Config γ where
  pollIntervalMs := values .pollIntervalMs
  lookaheadMs := values .lookaheadMs
  masterVolume := values .masterVolume
  startStage := values .startStage
  mix := values .mix
  ringCapacity := values .ringCapacity

variable [OfScientific γ]

def mixDeclaration : Declaration Role (fun _ => γ) (PerRole γ) where
  name := "Mix"
  fields := [.lead, .harmony, .bass, .percussion]
  label := gainName
  get := PerRole.get
  build := PerRole.ofRole
  default := defaultMix
  mem_fields role := by cases role <;> decide
  nodup_label := by decide
  get_build values := funext (PerRole.get_ofRole values)
  build_get _ := rfl

def declaration : Declaration Setting (Setting.Value γ) (Config γ) where
  name := "SequencerConfig"
  fields := Setting.all
  label := Setting.name
  get := get
  build := build
  default := initial
  mem_fields setting := by cases setting <;> decide
  nodup_label := by decide
  get_build values := by
    funext setting
    cases setting <;> rfl
  build_get _ := rfl

def Setting.schema : ∀ setting : Setting, Schema γ (setting.Value γ)
  | .pollIntervalMs | .lookaheadMs | .ringCapacity => .word64
  | .masterVolume => .level
  | .startStage => .word32
  | .mix => .record mixDeclaration fun _ => .level

/-- The settings as a file holds them. -/
def schema : Schema γ (Config γ) := .record declaration Setting.schema

def text [Codec γ] (config : Config γ) : String := Codec.write schema config

end Config

/-- What is found where settings are looked for. -/
inductive FileContent where
  | missing
  | directory
  | bytes (content : ByteArray)

def FileContent.text : FileContent → Except Failure String
  | .missing => .error (.file .notFound)
  | .directory => .error (.file .isDirectory)
  | .bytes content =>
    match String.fromUTF8? content with
    | some text => .ok text
    | none => .error (.file .notText)

/-- The settings in a file; without a file, the initial ones. -/
def Config.load {γ : Type} [OfScientific γ] [Codec γ] (file : Option FileContent) :
    Except Failure (Config γ) :=
  match file with
  | none => .ok .initial
  | some file => do
    match Codec.read Config.schema (← file.text) with
    | some config => .ok config
    | none => .error .config

/-- The file in which settings are saved. -/
def Config.save {γ : Type} [OfScientific γ] [Codec γ] (config : Config γ) : FileContent :=
  .bytes config.text.toUTF8

end Chiptune
