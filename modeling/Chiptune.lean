import Chiptune.Main
import Chiptune.Player
import Chiptune.Proofs.ExactlyOnce
import Chiptune.Proofs.Gapless
import Chiptune.Proofs.Interrupted
import Chiptune.Proofs.SampleAccurate
import Chiptune.Scalar.Exact
import Chiptune.Scalar.Extended
import Chiptune.Scalar.Rounded
import Chiptune.Proofs.Extended
import Chiptune.Proofs.ExtendedTime
import Chiptune.Proofs.AtMostOnce
import Chiptune.Proofs.Requests
import Chiptune.Proofs.InFlight
import Chiptune.Proofs.Silence
import Chiptune.Proofs.Interleaving
import Chiptune.Proofs.Splitting
import Chiptune.Proofs.Meaning
import Chiptune.Proofs.LatestEnd
import Chiptune.Proofs.LateTicks
import Chiptune.Proofs.Coherence
import Chiptune.Proofs.SavedPosition
import Chiptune.Proofs.TakenBack
import Chiptune.Proofs.Updates
import Chiptune.Proofs.Origin
import Chiptune.Proofs.Service
import Chiptune.Proofs.Arrivals
import Chiptune.Proofs.Isolation
import Chiptune.Proofs.Draining
import Chiptune.Proofs.TurnByTurn
import Chiptune.Proofs.Headroom
import Chiptune.Proofs.Ignored
import Chiptune.Proofs.StaleTicks
import Chiptune.Proofs.MusicalTime
import Chiptune.Proofs.Concatenation
import Chiptune.Proofs.Rhythm
import Chiptune.Proofs.NoteLength
import Chiptune.Proofs.Replacement
import Chiptune.Proofs.Contour
import Chiptune.Proofs.SavedSettings
import Chiptune.Proofs.Roundoff
import Chiptune.Proofs.Readings
