/-!
What can go wrong around the player.  Playing itself never fails.
-/
namespace Chiptune

/-- Formats in which a sound device may want its samples. -/
inductive SampleFormat where
  | i8
  | i16
  | i24
  | i32
  | i64
  | u8
  | u16
  | u24
  | u32
  | u64
  | f32
  | f64
deriving DecidableEq, Repr

def SampleFormat.name : SampleFormat → String
  | .i8 => "i8"
  | .i16 => "i16"
  | .i24 => "i24"
  | .i32 => "i32"
  | .i64 => "i64"
  | .u8 => "u8"
  | .u16 => "u16"
  | .u24 => "u24"
  | .u32 => "u32"
  | .u64 => "u64"
  | .f32 => "f32"
  | .f64 => "f64"

inductive FileFault where
  | notFound
  | isDirectory
  /-- The bytes of the file are no text. -/
  | notText
deriving DecidableEq, Repr

def FileFault.message : FileFault → String
  | .notFound => "No such file or directory (os error 2)"
  | .isDirectory => "Is a directory (os error 21)"
  | .notText => "stream did not contain valid UTF-8"

/-- A failure of what surrounds the player. -/
inductive Failure where
  | file (fault : FileFault)
  /-- A text that holds no settings. -/
  | config
  | noOutputDevice
  | unsupportedFormat (format : SampleFormat)
deriving DecidableEq, Repr

def Failure.message : Failure → String
  | .file fault => s!"I/O error: {fault.message}"
  | .config => "invalid config"
  | .noOutputDevice => "no audio output device"
  | .unsupportedFormat format => s!"unsupported sample format {format.name}"

end Chiptune
