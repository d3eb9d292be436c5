import Chiptune.Notation.Note
import Chiptune.Role
import Chiptune.Synth.Envelope

/-!
The fixed voicing of the four parts and the two drums.
-/
namespace Chiptune

inductive Wave (γ : Type) where
  /-- High for a part of each turn, low for the rest. -/
  | pulse (duty : γ)
  | triangle
  /-- A sine whose pitch falls from one frequency towards another. -/
  | sweep (first last rate : γ)
  | noise
deriving Repr

structure Instrument (γ : Type) where
  wave : Wave γ
  adsr : Adsr γ
deriving Repr

namespace Instrument

variable {τ γ : Type} [Scalar γ]

def kick : Instrument γ := ⟨.sweep 150.0 40.0 30.0, ⟨0.001, 0.15, 0, 0.01⟩⟩

def snare : Instrument γ := ⟨.noise, ⟨0.001, 0.08, 0, 0.01⟩⟩

def tones : Role → Instrument γ
  | .lead => ⟨.pulse 0.5, ⟨0.005, 0.08, 0.6, 0.05⟩⟩
  | .harmony => ⟨.pulse 0.25, ⟨0.005, 0.1, 0.5, 0.05⟩⟩
  | .bass | .percussion => ⟨.triangle, ⟨0.002, 0.05, 0.8, 0.03⟩⟩

/-- What a part plays a voice on.  Drums sound alike in every part. -/
def forVoice (role : Role) : Voice τ → Instrument γ
  | .kick => kick
  | .snare => snare
  | .tone _ => tones role

end Instrument

end Chiptune
