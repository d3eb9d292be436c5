import Chiptune.Catalog.Songs
import Chiptune.Soundtrack

/-!
The built-in soundtrack: five looping songs, one for each stage, beginning again after the fifth.
-/
namespace Chiptune

namespace Catalog

/-- Stages count from one; a stage zero plays like the first. -/
def songOfStage (stage : Nat) : Nat := (stage - 1) % songs.length

end Catalog

def catalog : Soundtrack where
  song id := Catalog.songs[id]?.map Catalog.Song.tracks
  title id := Catalog.songs[id]?.map Catalog.Song.title
  songOfStage := Catalog.songOfStage

/-- Every stage has a song. -/
theorem Catalog.songOfStage_lt (stage : Nat) : songOfStage stage < songs.length :=
  Nat.mod_lt _ (by decide)

end Chiptune
