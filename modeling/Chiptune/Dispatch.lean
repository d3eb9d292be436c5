import Chiptune.Notation.Note
import Chiptune.Role

/-!
Notes as they are handed to a sink, with their final volume and their clock time.
-/
namespace Chiptune

/-- A note handed to a sink.  Its volume takes the mix and the master volume in; its start is a clock
time. -/
structure Dispatch (τ γ : Type) where
  role : Role
  voice : Voice τ
  volume : γ
  start : τ
  duration : τ
deriving Repr

end Chiptune
