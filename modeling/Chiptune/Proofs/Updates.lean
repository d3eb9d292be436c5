import Chiptune.Engine
import Chiptune.Proofs.Operations

/-!
What an engine tells those who command it.

Main statement: what the updates say of playback alternates and ends with how the engine stands; a song
is announced by the command that makes it current, and only a song that is neither current nor part of
the soundtrack is refused.
-/
namespace Chiptune

variable {τ γ : Type}

def Command.song? (soundtrack : Soundtrack) : Command γ → Option Nat
  | .load id => some id
  | .loadStage stage => some (soundtrack.songOfStage stage)
  | .start | .stop | .toggle | .reset | .setVolume _ | .shutdown => none

def Update.playback? : Update τ → Option Bool
  | .playback playing => some playing
  | .loaded .. | .refused _ => none

/-- Lines for the log do not reach a sink. -/
theorem Sink.hearAll_notices {σ : Type} [Sink σ τ γ] (sink : σ) (notices : List (Notice τ γ)) :
    (Sink.hearAll sink (notices.map .notice)).2 = sink := by
  induction notices with
  | nil => rfl
  | cons notice rest ih => exact ih

namespace Engine

variable [Scalar τ] [Scalar γ] [Tuning τ]

def Work.noted (work : Work τ γ) (notices : List (Notice τ γ)) : Work τ γ :=
  { work with effects := work.effects ++ notices.map .notice }

section

variable {soundtrack : Soundtrack} {song : Composition τ γ} {id : Nat} (work : Work τ γ)

theorem load_current (soundtrack : Soundtrack) (hcurrent : work.sequencer.current = some song)
    (now : τ) :
    load soundtrack work song.id now =
      { work with effects := work.effects ++ [.notice (.songAlreadyLoaded song.id)] } := by
  simp [load, Work.perform, Work.tell, loadUpdates, Sequencer.load_current hcurrent, hcurrent]

theorem load_unknown (hother : ∀ song ∈ work.sequencer.current, song.id ≠ id)
    (hsong : soundtrack.song id = none) (now : τ) :
    load soundtrack work id now =
      { work with
        effects := work.effects ++ [.notice (.songUnknown id)]
        updates := work.updates ++ [.refused (.unknownSong id)] } := by
  simp [load, Work.perform, Work.tell, loadUpdates, Sequencer.load_unknown hother hsong]

theorem load_other (hother : ∀ song ∈ work.sequencer.current, song.id ≠ id)
    {texts : PerRole String} (hsong : soundtrack.song id = some texts) (now : τ) :
    let song : Composition τ γ := Composition.compile id texts
    load soundtrack work id now =
      { sequencer :=
          { work.sequencer with
            current := some song, scheduler := work.sequencer.scheduler.rewind }
        effects := work.effects ++ (work.sequencer.load soundtrack id now).effects
        updates := work.updates ++ [.loaded id (soundtrack.title id) song.loopLength] } := by
  have hnew : work.sequencer.current.map Composition.id ≠ some id := by
    simpa using hother
  simp [load, Work.perform, Work.tell, loadUpdates, Sequencer.load_other hother hsong, hnew]

end

/-- What a command does to the work of an engine: a song that does not exist is refused, a song that is
new is announced, and otherwise there is something to tell if playback began or ended. -/
inductive Handles (soundtrack : Soundtrack) (work : Work τ γ) (command : Command γ)
    (after : Work τ γ) : Prop where
  | refuses (id : Nat) (notices : List (Notice τ γ))
    (hasked : command.song? soundtrack = some id)
    (hother : ∀ song ∈ work.sequencer.current, song.id ≠ id)
    (hunknown : soundtrack.song id = none)
    (hafter : after =
      { work with
        effects := work.effects ++ notices.map .notice
        updates := work.updates ++ [.refused (.unknownSong id)] })
  | announces (song : Composition τ γ) (texts : PerRole String) (heard : List (Effect τ γ))
    (hasked : command.song? soundtrack = some song.id)
    (hother : ∀ other ∈ work.sequencer.current, other.id ≠ song.id)
    (hknown : soundtrack.song song.id = some texts)
    (hcompiled : song = Composition.compile song.id texts)
    (hcurrent : after.sequencer.current = some song)
    (hplaying : after.sequencer.playing = work.sequencer.playing)
    (heffects : after.effects = work.effects ++ heard)
    (hupdates : after.updates =
      work.updates ++ [.loaded song.id (soundtrack.title song.id) song.loopLength])
  | goesOn (heard : List (Effect τ γ))
    (hasked : ∀ id, command.song? soundtrack = some id → ∃ song ∈ work.sequencer.current, song.id = id)
    (hcurrent : ∀ song ∈ after.sequencer.current, song ∈ work.sequencer.current)
    (hplaying : after.sequencer.playing = work.sequencer.playing)
    (heffects : after.effects = work.effects ++ heard)
    (hupdates : after.updates = work.updates)
  | switches (heard : List (Effect τ γ))
    (hasked : command.song? soundtrack = none)
    (hcurrent : ∀ song ∈ after.sequencer.current, song ∈ work.sequencer.current)
    (hplaying : after.sequencer.playing ≠ work.sequencer.playing)
    (heffects : after.effects = work.effects ++ heard)
    (hupdates : after.updates = work.updates ++ [.playback after.sequencer.playing])

section

variable {soundtrack : Soundtrack} {command : Command γ}

theorem obey_of_song {id : Nat} (hasked : command.song? soundtrack = some id) (work : Work τ γ)
    (now : τ) :
    ∃ notices, obey soundtrack (work.note (.commandReceived command)) command now =
      load soundtrack (work.noted notices) id now := by
  cases command with
  | load _ =>
      obtain rfl := Option.some.inj hasked
      exact ⟨[.commandReceived (.load _)], rfl⟩
  | loadStage stage =>
      obtain rfl := Option.some.inj hasked
      let chosen : Notice τ γ := .stageChosen stage (soundtrack.songOfStage stage)
      refine ⟨[.commandReceived (.loadStage stage), chosen], ?_⟩
      simp [obey, Work.note, Work.noted, chosen]
  | start | stop | toggle | reset | setVolume | shutdown => simp [Command.song?] at hasked

theorem obey_of_no_song (hasked : command.song? soundtrack = none) (work : Work τ γ) (now : τ) :
    ∃ sequencer heard, obey soundtrack work command now =
        { work with sequencer := sequencer, effects := work.effects ++ heard } ∧
      ∀ song ∈ sequencer.current, song ∈ work.sequencer.current := by
  cases command with
  | load _ | loadStage _ => simp [Command.song?] at hasked
  | start => exact ⟨_, _, rfl, fun _ hmem => hmem⟩
  | stop => exact ⟨_, _, rfl, fun _ hmem => hmem⟩
  | toggle =>
      unfold obey
      dsimp only
      split
      · exact ⟨_, _, rfl, fun _ hmem => hmem⟩
      · exact ⟨_, _, rfl, fun _ hmem => hmem⟩
  | reset => exact ⟨_, _, rfl, fun _ hmem => absurd hmem (by simp [Sequencer.reset])⟩
  | setVolume gain => exact ⟨_, _, rfl, fun _ hmem => hmem⟩
  | shutdown => exact ⟨_, [], by simp [obey], fun _ hmem => hmem⟩

theorem handle_of_steady {work after : Work τ γ} {now : τ}
    (hobey : obey soundtrack (work.note (.commandReceived command)) command now = after)
    (hplaying : after.sequencer.playing = work.sequencer.playing) :
    handle soundtrack work command now = after := by
  subst hobey
  exact if_pos hplaying

/-- A command that asks for a song: there may be no such song, it may be new, or be the current one. -/
theorem handles_of_song {id : Nat} (hasked : command.song? soundtrack = some id) (work : Work τ γ)
    (now : τ) : Handles soundtrack work command (handle soundtrack work command now) := by
  obtain ⟨notices, hobey⟩ := obey_of_song hasked work now
  by_cases hother : ∀ song ∈ work.sequencer.current, song.id ≠ id
  · cases hsong : soundtrack.song id with
    | none =>
        have hload := load_unknown (work.noted notices) hother hsong now
        rw [handle_of_steady (hobey.trans hload) rfl]
        refine .refuses id (notices ++ [.songUnknown id]) hasked hother hsong ?_
        simp [Work.noted]
    | some texts =>
        have hload := load_other (work.noted notices) hother hsong now
        rw [handle_of_steady (hobey.trans hload) rfl]
        exact .announces (Composition.compile id texts) texts _ hasked hother hsong rfl rfl rfl
          (List.append_assoc ..) rfl
  · -- The song is current already, and the command passes without a word.
    push Not at hother
    obtain ⟨song, hcurrent, rfl⟩ := hother
    have hload := load_current (work.noted notices) soundtrack hcurrent now
    rw [handle_of_steady (hobey.trans hload) rfl]
    have hasks (id : Nat) (hid : command.song? soundtrack = some id) :
        ∃ song ∈ work.sequencer.current, song.id = id :=
      ⟨song, hcurrent, Option.some.inj (hasked.symm.trans hid)⟩
    exact .goesOn _ hasks (fun _ hmem => hmem) rfl (List.append_assoc ..) rfl

/-- Any other command: playback begins or ends, or goes on as it was. -/
theorem handles_of_no_song (hasked : command.song? soundtrack = none) (work : Work τ γ) (now : τ) :
    Handles soundtrack work command (handle soundtrack work command now) := by
  obtain ⟨sequencer, heard, hobey, hcurrent⟩ :=
    obey_of_no_song hasked (work.note (.commandReceived command)) now
  by_cases hplaying : sequencer.playing = work.sequencer.playing
  · rw [handle_of_steady hobey hplaying]
    exact .goesOn _ (by simp [hasked]) hcurrent hplaying (List.append_assoc ..) rfl
  · unfold handle
    rw [hobey]
    dsimp only
    rw [if_neg hplaying]
    exact .switches _ hasked hcurrent hplaying (List.append_assoc ..) rfl

/-- Every command is handled in one of the four ways. -/
theorem handles_handle (soundtrack : Soundtrack) (work : Work τ γ) (command : Command γ) (now : τ) :
    Handles soundtrack work command (handle soundtrack work command now) := by
  cases hasked : command.song? soundtrack with
  | some id => exact handles_of_song hasked work now
  | none => exact handles_of_no_song hasked work now

end

/-- That the engine stood still at first, and what the updates have said of playback since. -/
def Work.told (work : Work τ γ) : List Bool :=
  false :: work.updates.filterMap Update.playback?

/-- The updates tell of playback what is the case: each tells a change, and the last how the engine
stands. -/
structure Mirrors (work : Work τ γ) : Prop where
  alternates : work.told.IsChain (· ≠ ·)
  last : work.told.getLast? = some work.sequencer.playing

section

variable {soundtrack : Soundtrack} {work after : Work τ γ}

omit [Scalar τ] [Scalar γ] [Tuning τ] in
theorem told_of_updates {sent : List (Update τ)} (h : after.updates = work.updates ++ sent) :
    after.told = work.told ++ sent.filterMap Update.playback? := by
  rw [Work.told, Work.told, h, List.filterMap_append, List.cons_append]

omit [Tuning τ] in
theorem mirrors_initial (lookahead : τ) (volume : γ) (mix : PerRole γ) :
    Mirrors ⟨.initial lookahead volume mix, [], []⟩ where
  alternates := .singleton false
  last := rfl

omit [Scalar τ] [Scalar γ] [Tuning τ] in
theorem Mirrors.of_told (h : Mirrors work) (htold : after.told = work.told)
    (hplaying : after.sequencer.playing = work.sequencer.playing) : Mirrors after where
  alternates := htold ▸ h.alternates
  last := by rw [htold, h.last, hplaying]

omit [Scalar τ] [Scalar γ] [Tuning τ] in
theorem Mirrors.of_switch (h : Mirrors work)
    (htold : after.told = work.told ++ [after.sequencer.playing])
    (hplaying : after.sequencer.playing ≠ work.sequencer.playing) : Mirrors after where
  alternates := by
    rw [htold, List.isChain_append]
    refine ⟨h.alternates, .singleton _, ?_⟩
    intro before hbefore next hnext
    rw [h.last] at hbefore
    obtain rfl := Option.some.inj hbefore
    obtain rfl := Option.some.inj hnext
    exact hplaying.symm
  last := by rw [htold, List.getLast?_append, List.getLast?_singleton, Option.some_or]

theorem Mirrors.handle (h : Mirrors work) (command : Command γ) (now : τ) :
    Mirrors (handle soundtrack work command now) := by
  cases handles_handle soundtrack work command now with
  | refuses id notices hasked hother hunknown hafter =>
      rw [hafter]
      exact h.of_told ((told_of_updates rfl).trans (List.append_nil _)) rfl
  | announces song texts heard hasked hother hknown hcompiled hcurrent hplaying heffects hupdates =>
      exact h.of_told ((told_of_updates hupdates).trans (List.append_nil _)) hplaying
  | goesOn heard hasked hcurrent hplaying heffects hupdates =>
      exact h.of_told (by rw [Work.told, hupdates, Work.told]) hplaying
  | switches heard hasked hcurrent hplaying heffects hupdates =>
      exact h.of_switch (told_of_updates hupdates) hplaying

omit [Tuning τ] in
theorem Mirrors.tick (h : Mirrors work) (now : τ) :
    Mirrors (work.perform fun sequencer => sequencer.tick now) := by
  refine h.of_told rfl ?_
  change (work.sequencer.tick now).sequencer.playing = work.sequencer.playing
  unfold Sequencer.tick
  split <;> rfl

end

/-- What reaches an engine, at a clock time. -/
inductive Signal (τ γ : Type) where
  | command (command : Command γ) (now : τ)
  | tick (now : τ)

def heed (soundtrack : Soundtrack) (work : Work τ γ) : Signal τ γ → Work τ γ
  | .command command now => handle soundtrack work command now
  | .tick now => work.perform fun sequencer => sequencer.tick now

/-- Commands and ticks, one after another. -/
def attend (soundtrack : Soundtrack) (work : Work τ γ) (signals : List (Signal τ γ)) : Work τ γ :=
  signals.foldl (heed soundtrack) work

theorem Mirrors.attend {soundtrack : Soundtrack} {work : Work τ γ} (h : Mirrors work)
    (signals : List (Signal τ γ)) : Mirrors (attend soundtrack work signals) := by
  induction signals generalizing work with
  | nil => exact h
  | cons signal later ih =>
      cases signal with
      | command command now => exact ih (h.handle command now)
      | tick now => exact ih (h.tick now)

/-- What a command tells and what it lets the sink hear.  A song that is asked for and that is new
becomes the current one.  A song is announced if it has become the current one, and refused if it is
asked for and there is no such song; whoever is refused finds everything as it was. -/
structure Tells (soundtrack : Soundtrack) (work : Work τ γ) (command : Command γ)
    (after : Work τ γ) (sent : List (Update τ)) (heard : List (Effect τ γ)) : Prop where
  updates : after.updates = work.updates ++ sent
  effects : after.effects = work.effects ++ heard
  once : sent.length ≤ 1
  obeyed : ∀ id texts, command.song? soundtrack = some id →
    (∀ song ∈ work.sequencer.current, song.id ≠ id) → soundtrack.song id = some texts →
      after.sequencer.current = some (Composition.compile id texts)
  announced : ∀ id title loopLength, .loaded id title loopLength ∈ sent ↔
    ∃ song, after.sequencer.current = some song ∧ work.sequencer.current ≠ some song ∧
      id = song.id ∧ title = soundtrack.title song.id ∧ loopLength = song.loopLength
  refused : ∀ id, .refused (.unknownSong id) ∈ sent ↔
    command.song? soundtrack = some id ∧ (∀ song ∈ work.sequencer.current, song.id ≠ id) ∧
      soundtrack.song id = none
  undisturbed : ∀ refusal, .refused refusal ∈ sent → after.sequencer = work.sequencer ∧
    ∀ (σ : Type) [Sink σ τ γ] (sink : σ), (Sink.hearAll sink heard).2 = sink

omit [Scalar τ] [Scalar γ] [Tuning τ] in
/-- What was current before is no news. -/
theorem not_new {before after : Sequencer τ γ} (hcurrent : ∀ song ∈ after.current, song ∈ before.current)
    {news : Composition τ γ → Prop} :
    ¬ ∃ song, after.current = some song ∧ before.current ≠ some song ∧ news song :=
  fun ⟨song, hafter, hbefore, _⟩ => hbefore (hcurrent song hafter)

theorem Handles.tells {soundtrack : Soundtrack} {work after : Work τ γ} {command : Command γ}
    (h : Handles soundtrack work command after) :
    ∃ sent heard, Tells soundtrack work command after sent heard := by
  cases h with
  | refuses id notices hasked hother hunknown hafter =>
      subst hafter
      refine ⟨[.refused (.unknownSong id)], notices.map .notice, rfl, rfl, le_rfl, ?_, ?_, ?_, ?_⟩
      · intro other texts hasks _ hknown
        obtain rfl : id = other := Option.some.inj (hasked.symm.trans hasks)
        simp [hunknown] at hknown
      · exact fun _ _ _ => iff_of_false (by simp) (not_new fun _ hmem => hmem)
      · intro other
        constructor
        · intro hmem
          obtain rfl : other = id := by simpa using hmem
          exact ⟨hasked, hother, hunknown⟩
        · rintro ⟨hasks, -, -⟩
          obtain rfl : id = other := Option.some.inj (hasked.symm.trans hasks)
          exact List.mem_singleton_self _
      · exact fun _ _ => ⟨rfl, fun σ _ sink => Sink.hearAll_notices sink notices⟩
  | announces song texts heard hasked hother hknown hcompiled hcurrent hplaying heffects hupdates =>
      refine ⟨_, heard, hupdates, heffects, le_rfl, ?_, ?_, ?_, by simp⟩
      · intro id others hasks _ hothers
        obtain rfl : song.id = id := Option.some.inj (hasked.symm.trans hasks)
        obtain rfl : texts = others := Option.some.inj (hknown.symm.trans hothers)
        exact hcurrent.trans (congrArg some hcompiled)
      · intro id title loopLength
        constructor
        · intro hmem
          obtain ⟨hid, htitle, hlength⟩ : id = song.id ∧ title = soundtrack.title song.id ∧
            loopLength = song.loopLength := by simpa using hmem
          exact ⟨song, hcurrent, fun hbefore => hother song hbefore rfl, hid, htitle, hlength⟩
        · rintro ⟨other, hafter, -, rfl, rfl, rfl⟩
          obtain rfl : song = other := Option.some.inj (hcurrent.symm.trans hafter)
          exact List.mem_singleton_self _
      · intro id
        refine iff_of_false (by simp) ?_
        rintro ⟨hasks, -, hunknown⟩
        obtain rfl : song.id = id := Option.some.inj (hasked.symm.trans hasks)
        simp [hknown] at hunknown
  | goesOn heard hasked hcurrent hplaying heffects hupdates =>
      have hfound (id : Nat) (hasks : command.song? soundtrack = some id)
          (hother : ∀ song ∈ work.sequencer.current, song.id ≠ id) : False := by
        obtain ⟨song, hmem, hid⟩ := hasked id hasks
        exact hother song hmem hid
      refine ⟨[], heard, hupdates.trans (List.append_nil _).symm, heffects, Nat.zero_le _, ?_, ?_, ?_,
        by simp⟩
      · exact fun id _ hasks hother _ => (hfound id hasks hother).elim
      · exact fun _ _ _ => iff_of_false List.not_mem_nil (not_new hcurrent)
      · exact fun id => iff_of_false List.not_mem_nil fun h => hfound id h.1 h.2.1
  | switches heard hasked hcurrent hplaying heffects hupdates =>
      refine ⟨_, heard, hupdates, heffects, le_rfl, by simp [hasked], ?_, by simp [hasked], by simp⟩
      exact fun _ _ _ => iff_of_false (by simp) (not_new hcurrent)

/-- The updates of an engine.  A new engine heeds any commands and ticks at any clock times.  What its
updates tell of playback changes from each to the next, beginning with a start, and the last of them is
how the engine stands.  At every further command it announces the song that the command makes current,
and refuses what is neither current nor part of the soundtrack, without disturbing anything. -/
theorem updates_mirror (soundtrack : Soundtrack) (lookahead : τ) (volume : γ) (mix : PerRole γ)
    (signals : List (Signal τ γ)) :
    let work := attend soundtrack ⟨.initial lookahead volume mix, [], []⟩ signals
    Mirrors work ∧ ∀ command now, ∃ sent heard,
      Tells soundtrack work command (handle soundtrack work command now) sent heard := by
  intro work
  have hmirrors : Mirrors work := (mirrors_initial lookahead volume mix).attend signals
  exact ⟨hmirrors, fun command now => (handles_handle soundtrack work command now).tells⟩

end Engine

end Chiptune
