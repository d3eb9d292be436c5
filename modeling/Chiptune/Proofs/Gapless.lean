import Chiptune.Proofs.Playback

/-!
Pause and resume on a recording sink, on a clock that is moved by hand.

Main statement: whatever the order of starts, stops, ticks and movements of the clock, as long as
ticks keep pace with the clock while the song plays, the log holds every note that has been played
once, at the clock time at which playing reached it.
-/
namespace Chiptune

variable {γ : Type}

namespace Recording

variable {τ : Type} [Scalar τ]

theorem notes_hearAll {effects : List (Effect τ γ)} (recording : Recording τ γ)
    (hsilence : ∀ time, Effect.silence time ∉ effects) :
    (Sink.hearAll recording effects).2.notes =
      recording.notes ++ effects.filterMap Effect.note? := by
  induction effects generalizing recording with
  | nil => simp [Sink.hearAll]
  | cons effect rest ih =>
      have hrest : ∀ time, Effect.silence time ∉ rest :=
        fun time hmem => hsilence time (List.mem_cons_of_mem effect hmem)
      cases effect with
      | notice notice => exact ih recording hrest
      | dispatch note =>
          change (Sink.hearAll (σ := Recording τ γ) ⟨recording.notes ++ [note]⟩ rest).2.notes = _
          rw [ih _ hrest]
          simp [Effect.note?]
      | silence time => exact absurd List.mem_cons_self (hsilence time)

end Recording

/-- What happens to a player on a clock that is moved by hand. -/
inductive Move where
  | cue (cue : Cue)
  | advance (seconds : Rat)

/-- A player that records, its clock, and a stopwatch beside it. -/
structure Session (γ : Type) where
  player : Player (Recording Rat γ) Rat γ
  now : Rat
  watch : Stopwatch

namespace Session

variable [Scalar γ]

def playing (session : Session γ) : Bool := session.player.sequencer.playing

/-- A new player with an empty log that has loaded a song. -/
def opened [Tuning Rat] (soundtrack : Soundtrack) (id : Nat) (lookahead : Rat) (volume : γ)
    (mix : PerRole γ) (now : Rat) : Session γ where
  player := (Player.perform ⟨.initial lookahead volume mix, ⟨[]⟩⟩ soundtrack now (.load id)).player
  now := now
  watch := .initial

def step [Tuning Rat] (soundtrack : Soundtrack) (session : Session γ) : Move → Session γ
  | .cue cue =>
    let player := (session.player.perform soundtrack session.now cue.request).player
    { session with
      player
      watch := session.watch.heard cue session.playing player.sequencer.playing session.now }
  | .advance seconds =>
    { session with
      now := session.now + seconds
      watch := session.watch.run session.playing seconds }

def run [Tuning Rat] (soundtrack : Soundtrack) (session : Session γ) (moves : List Move) :
    Session γ :=
  moves.foldl (step soundtrack) session

/-- The clock does not go back, and ticks keep pace with it. -/
def Allows (limit : Rat) (session : Session γ) : Move → Prop
  | .cue _ => True
  | .advance seconds => 0 ≤ seconds ∧ session.watch.Allows session.playing limit seconds

instance (limit : Rat) (session : Session γ) (move : Move) :
    Decidable (session.Allows limit move) :=
  match move with
  | .cue _ => .isTrue trivial
  | .advance seconds => inferInstanceAs
      (Decidable (0 ≤ seconds ∧ session.watch.Allows session.playing limit seconds))

def Admits [Tuning Rat] (soundtrack : Soundtrack) (limit : Rat) : Session γ → List Move → Prop
  | _, [] => True
  | session, move :: later =>
    session.Allows limit move ∧ (session.step soundtrack move).Admits soundtrack limit later

instance decidableAdmits [Tuning Rat] (soundtrack : Soundtrack) (limit : Rat) :
    (session : Session γ) → (moves : List Move) →
      Decidable (session.Admits soundtrack limit moves)
  | _, [] => .isTrue trivial
  | session, move :: later =>
    have := decidableAdmits soundtrack limit (session.step soundtrack move) later
    inferInstanceAs (Decidable (session.Allows limit move ∧
      (session.step soundtrack move).Admits soundtrack limit later))

/-- The log of a session holds what has been handed out and not taken back. -/
structure Logs (session : Session γ) (fresh : Sequencer Rat γ) (song : Composition Rat γ)
    (handed : Role → List (Occurrence γ)) : Prop where
  follows : session.player.sequencer.Follows fresh song session.watch session.now handed
  notes : ∀ role, session.player.sink.notes.filter (fun note => decide (note.role = role)) =
    (handed role).map (fresh.noteOf song session.watch.resumes role)

variable {session : Session γ} {fresh : Sequencer Rat γ} {song : Composition Rat γ}
  {handed : Role → List (Occurrence γ)}

theorem Logs.cue [Tuning Rat] (soundtrack : Soundtrack) (cue : Cue)
    (h : session.Logs fresh song handed) (htimed : song.WellTimed) (hloop : 0 < song.loopLength)
    (hstarts : ∀ role, ∀ event ∈ song.tracks.get role, event.start < song.loopLength) :
    ∃ later, (session.step soundtrack (.cue cue)).Logs fresh song later := by
  have hresume : ∀ role, ∀ o ∈ song.timeline role ⌊session.watch.played / song.loopLength⌋₊,
      song.timeOf o < session.watch.played :=
    fun role o ho => Composition.timeOf_lt_of_mem hloop hstarts h.follows.keeps.nonneg ho
  obtain ⟨later, hresponse, hfollows⟩ :=
    h.follows.perform soundtrack cue htimed hloop fun _ _ => hresume
  refine ⟨later, hfollows, ?_⟩
  intro role
  cases hresponse with
  | plays reached hlater hnotes hsilence _ hresumes _ =>
      have hsame : ∀ o ∈ later role,
          fresh.noteOf song (session.step soundtrack (.cue cue)).watch.resumes role o =
            fresh.noteOf song session.watch.resumes role o := by
        intro o ho
        exact congrArg (fun time => fresh.dispatchOf ⟨role, o.event, time⟩) (hresumes role o ho)
      rw [List.map_congr_left hsame, hlater role, List.map_append, ← h.notes role, ← hnotes role,
        ← List.filter_append]
      exact congrArg _ (Recording.notes_hearAll _ hsilence)
  | silences notice heffects hlater hkeeps hresumes _ =>
      have hturn : ∀ o ∈ handed role,
          decide ((fresh.noteOf song session.watch.resumes role o).start < session.now) =
            decide (song.timeOf o < session.watch.played) := by
        intro o ho
        exact decide_eq_decide.mpr
          (hkeeps.clockAt_lt_iff (h.follows.timeOf_nonneg htimed hloop ho))
      have hlog : (session.step soundtrack (.cue cue)).player.sink.notes =
          session.player.sink.notes.filter fun note => decide (note.start < session.now) := by
        change (Sink.hearAll session.player.sink _).2.notes = _
        rw [heffects]
        rfl
      have hsame : (session.step soundtrack (.cue cue)).watch.resumes = session.watch.resumes :=
        hresumes
      rw [hlog, List.filter_comm, h.notes role, List.filter_map, hlater role, hsame]
      exact congrArg _ (List.filter_congr hturn)

theorem Logs.advance {limit seconds : Rat} [Tuning Rat] (soundtrack : Soundtrack)
    (h : session.Logs fresh song handed)
    (hlimit : limit = min fresh.scheduler.lookahead song.loopLength)
    (hallows : session.Allows limit (.advance seconds)) :
    (session.step soundtrack (.advance seconds)).Logs fresh song handed := by
  refine ⟨h.follows.wait hallows.1 (hlimit ▸ hallows.2), ?_⟩
  intro role
  change _ = (handed role).map (fresh.noteOf song
    (session.watch.run session.playing seconds).resumes role)
  rw [Stopwatch.resumes_run]
  exact h.notes role

theorem Logs.run {limit : Rat} [Tuning Rat] (soundtrack : Soundtrack) (moves : List Move)
    (h : session.Logs fresh song handed) (htimed : song.WellTimed) (hloop : 0 < song.loopLength)
    (hstarts : ∀ role, ∀ event ∈ song.tracks.get role, event.start < song.loopLength)
    (hlimit : limit = min fresh.scheduler.lookahead song.loopLength)
    (hadmits : session.Admits soundtrack limit moves) :
    ∃ later, (session.run soundtrack moves).Logs fresh song later := by
  induction moves generalizing session handed with
  | nil => exact ⟨handed, h⟩
  | cons move rest ih =>
      obtain ⟨hallows, hrest⟩ := hadmits
      cases move with
      | cue cue =>
          obtain ⟨later, hlater⟩ := h.cue soundtrack cue htimed hloop hstarts
          exact ih hlater hrest
      | advance seconds => exact ih (h.advance soundtrack hlimit hallows) hrest

/-- What a log without gaps holds of a track: some occurrences, none twice, and among them all that
come before the musical time reached, each as the note at the clock time at which playing reached
it. -/
structure Gapless (session : Session γ) (fresh : Sequencer Rat γ) (song : Composition Rat γ)
    (role : Role) (retained : List (Occurrence γ)) : Prop where
  notes : session.player.sink.notes.filter (fun note => decide (note.role = role)) =
    retained.map (fresh.noteOf song session.watch.resumes role)
  nodup : retained.Nodup
  sublist : ∃ cycles, retained.Sublist (song.timeline role cycles)
  complete : ∀ cycles, ∀ o ∈ song.timeline role cycles,
    song.timeOf o < session.watch.played → o ∈ retained

/-- Gapless pause and resume.  A new player loads a song whose events begin before the end of its
loop, and then starts, stops, ticks and lets time go by in any order, with ticks at the pace of the
lookahead and the loop while it plays.  Of every track the log then holds the notes played, without
a gap and without a repetition. -/
theorem log_gapless [Tuning Rat] (soundtrack : Soundtrack) (id : Nat) (texts : PerRole String)
    (lookahead : Rat) (volume : γ) (mix : PerRole γ) (now : Rat) (moves : List Move)
    (hsong : soundtrack.song id = some texts)
    (hloop : 0 < (Composition.compile id texts : Composition Rat γ).loopLength)
    (hstarts : ∀ role, ∀ event ∈
      (Composition.compile id texts : Composition Rat γ).tracks.get role,
      event.start < (Composition.compile id texts : Composition Rat γ).loopLength)
    (hadmits : (opened soundtrack id lookahead volume mix now).Admits soundtrack
      (min lookahead (Composition.compile id texts : Composition Rat γ).loopLength) moves) :
    let song : Composition Rat γ := Composition.compile id texts
    let fresh : Sequencer Rat γ := .initial lookahead volume mix
    let session := (opened soundtrack id lookahead volume mix now).run soundtrack moves
    ∀ role, ∃ retained, session.Gapless fresh song role retained := by
  intro song fresh session role
  have htimed : song.WellTimed := Composition.wellTimed_compile id texts
  have hopened : (opened soundtrack id lookahead volume mix now).Logs fresh song fun _ => [] := by
    rw [opened, Player.perform_load _ hsong]
    exact ⟨Sequencer.follows_initial htimed hloop lookahead volume mix, fun role => rfl⟩
  obtain ⟨retained, hlogs⟩ := hopened.run soundtrack moves htimed hloop hstarts rfl hadmits
  obtain ⟨cycles, hsublist⟩ := hlogs.follows.handed_sublist role
  refine ⟨retained role, hlogs.notes role,
    hsublist.nodup (Composition.nodup_timeline cycles), ⟨cycles, hsublist⟩, ?_⟩
  intro more o ho hplayed
  have hpast := (htimed.mem_past hloop).mpr ⟨(Composition.mem_timeline.mp ho).2, hplayed⟩
  rw [← hlogs.follows.filter_handed htimed hloop role] at hpast
  exact List.mem_of_mem_filter hpast

open Octaves in
/-- A loop of five quarters of a second, paused in the second cycle before any tick has seen it
begin, and again after the resumption. -/
theorem log_gapless_over_turn :
    let texts : PerRole String := ⟨"a8 r a", "", "", "k r r8"⟩
    let soundtrack : Soundtrack := ⟨fun _ => some texts, fun _ => none, id⟩
    let song : Composition Rat Rat := .compile 0 texts
    let fresh : Sequencer Rat Rat := .initial (3 / 2) 1 (.replicate 1)
    let moves : List Move := [.cue .start, .cue .tick, .advance 1, .cue .tick, .advance 1, .cue .stop,
      .advance 3, .cue .start, .cue .tick, .advance (1 / 4), .cue .stop]
    let before : Session Rat := opened soundtrack 0 (3 / 2) 1 (.replicate 1) 10
    let session := before.run soundtrack moves
    (0 < song.loopLength ∧
      (∀ role, ∀ event ∈ song.tracks.get role, event.start < song.loopLength) ∧
      before.Admits soundtrack (min (3 / 2) song.loopLength) moves) ∧
    (∀ role, ∃ retained, session.Gapless fresh song role retained) ∧
    (session.player.sink.notes.filter (fun note => decide (note.role = .lead))).map Dispatch.start =
      [10, 43 / 4, 45 / 4, 15] := by
  intro texts soundtrack song fresh moves before session
  have hloop : 0 < song.loopLength := by decide +kernel
  have hstarts : ∀ role, ∀ event ∈ song.tracks.get role, event.start < song.loopLength := by
    intro role
    cases role <;> decide +kernel
  have hadmits : before.Admits soundtrack (min (3 / 2) song.loopLength) moves := by
    decide +kernel
  have hrun := log_gapless soundtrack 0 texts (3 / 2) 1 (.replicate 1) 10 moves rfl hloop hstarts
    hadmits
  exact ⟨⟨hloop, hstarts, hadmits⟩, hrun, by decide +kernel⟩

end Session

end Chiptune
