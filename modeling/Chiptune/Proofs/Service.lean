import Chiptune.Proofs.Extended
import Chiptune.Proofs.Requests
import Chiptune.Proofs.Updates

/-!
An engine and the queue through which it is commanded.

Commands are sent at any time and wait in the order in which they were sent.  An engine that is
stopped waits for the next of them; while it plays it also wakes up by itself.  It leaves its loop
when it is told to shut down, or when no command waits and nobody is left who could send one.

Main statement: however this comes together, the engine carries out the commands before a shutdown
one by one, each with a tick behind it, and then resets the sequencer; and whenever the sequencer is
stopped, all notes that a recording has kept began before the time that the clock shows.
-/
namespace Chiptune

variable {τ γ : Type}

/-- A number type in which what comes before a time comes before every later time. -/
class Scalar.Chronological (τ : Type) [Scalar τ] : Prop where
  lt_of_lt_of_le {first second third : τ} (hfirst : first < second) (hsecond : second ≤ third) :
    first < third

instance : Scalar.Chronological Extended where
  lt_of_lt_of_le hfirst hsecond := by
    rcases Extended.le_iff.mp hsecond with hlt | ⟨rfl, _⟩
    · exact Extended.lt_trans hfirst hlt
    · exact hfirst

namespace Player

variable [Scalar τ]

/-- If a player that records is stopped, all notes that it has kept begin before a time. -/
def Quiet (player : Player (Recording τ γ) τ γ) (now : τ) : Prop :=
  player.sequencer.playing = false → ∀ note ∈ player.sink.notes, note.start < now

variable {player : Player (Recording τ γ) τ γ} {now : τ}

theorem Quiet.later [Scalar.Chronological τ] (h : player.Quiet now) {later : τ}
    (hle : now ≤ later) : player.Quiet later :=
  fun hrests note hnote => Scalar.Chronological.lt_of_lt_of_le (h hrests note hnote) hle

/-- A silence leaves only what begins before it, and lines for the log leave everything. -/
theorem mem_notes_of_silence (before after : List (Notice τ γ)) {recording : Recording τ γ}
    {note : Dispatch τ γ}
    (hnote : note ∈ (Sink.hearAll recording
      (before.map .notice ++ .silence now :: after.map .notice)).2.notes) : note.start < now := by
  rw [Sink.hearAll_append, Sink.hearAll_notices, Sink.hearAll, Sink.hearAll_notices] at hnote
  exact of_decide_eq_true (List.mem_filter.mp hnote).2

/-- What one request keeps.  Playback ends with a silence, and only what plays hands out notes. -/
theorem Quiet.perform [Scalar γ] [Tuning τ] (h : player.Quiet now) (soundtrack : Soundtrack)
    (request : Request γ) : (player.perform soundtrack now request).player.Quiet now := by
  obtain ⟨sequencer, recording⟩ := player
  change (sequencer.perform soundtrack now request).sequencer.playing = false →
    ∀ note ∈ (Sink.hearAll recording (sequencer.perform soundtrack now request).effects).2.notes,
      note.start < now
  cases Sequencer.transition soundtrack sequencer now request with
  | ignores reply notices hignores hperform =>
      rw [hperform, Sink.hearAll_notices]
      exact h
  | replaces id texts song hrequest hother hsong hcompiled hperform =>
      rw [hperform]
      intro hrests
      have hplaying : sequencer.playing = false := hrests
      simp only [Sequencer.silenceIfPlaying, hplaying]
      exact h hrests
  | begins song position hrequest hrests hcurrent hposition hperform =>
      rw [hperform]
      intro hstays
      simp [Sequencer.playing] at hstays
  | pauses position hrequest hplays hposition hperform =>
      rw [hperform]
      intro _ note hnote
      exact mem_notes_of_silence [.stopAsked (.pausedAt position)] [] hnote
  | resets hrequest hperform =>
      rw [hperform]
      intro _ note hnote
      cases hplaying : sequencer.playing with
      | false =>
          simp only [Sequencer.silenceIfPlaying, hplaying] at hnote
          exact h hplaying note hnote
      | true =>
          simp only [Sequencer.silenceIfPlaying, hplaying] at hnote
          exact mem_notes_of_silence [] [.transportReset] hnote
  | adjusts gain hrequest hfinite hperform =>
      rw [hperform]
      exact h
  | ticks song tick hrequest hplays hcurrent htick hperform =>
      rw [hperform]
      intro hrests
      exact absurd (hplays.symm.trans hrests) (by simp)

end Player

def Command.isShutdown : Command γ → Bool
  | .shutdown => true
  | .load _ | .loadStage _ | .start | .stop | .toggle | .reset | .setVolume _ => false

namespace Engine

section

variable [Scalar τ] [Scalar γ] [Tuning τ]

omit [Scalar γ] [Tuning τ] in
/-- A sequencer together with a recording that has heard all effects of an engine's work. -/
def Work.player (work : Work τ γ) : Player (Recording τ γ) τ γ :=
  ⟨work.sequencer, (Sink.hearAll ⟨[]⟩ work.effects).2⟩

variable {soundtrack : Soundtrack} {work : Work τ γ}

omit [Scalar γ] [Tuning τ] in
theorem player_perform {α : Type} (operation : Sequencer τ γ → Performed τ γ α) :
    (work.perform operation).player = (work.player.settle (operation work.sequencer)).player := by
  simp only [Work.player, Work.perform, Player.settle, Sink.hearAll_append]

omit [Scalar γ] [Tuning τ] in
theorem player_noted (notices : List (Notice τ γ)) : (work.noted notices).player = work.player := by
  simp only [Work.player, Work.noted, Sink.hearAll_append, Sink.hearAll_notices]

omit [Scalar γ] [Tuning τ] in
theorem player_note (notice : Notice τ γ) : (work.note notice).player = work.player :=
  player_noted [notice]

theorem player_load (soundtrack : Soundtrack) (work : Work τ γ) (id : Nat) (now : τ) :
    (load soundtrack work id now).player =
      (work.player.perform soundtrack now (.load id)).player :=
  player_perform fun _ => work.sequencer.load soundtrack id now

/-- A command comes down to at most one request. -/
theorem player_obey (soundtrack : Soundtrack) (work : Work τ γ) (command : Command γ) (now : τ) :
    (obey soundtrack work command now).player = work.player ∨
      ∃ request, (obey soundtrack work command now).player =
        (work.player.perform soundtrack now request).player := by
  cases command with
  | load id => exact .inr ⟨.load id, player_load soundtrack work id now⟩
  | loadStage stage =>
      let id := soundtrack.songOfStage stage
      refine .inr ⟨.load id, (player_load soundtrack _ id now).trans ?_⟩
      rw [player_note]
  | start => exact .inr ⟨.start, player_perform _⟩
  | stop => exact .inr ⟨.stop, player_perform _⟩
  | toggle =>
      unfold obey
      dsimp only
      split
      · exact .inr ⟨.stop, player_perform _⟩
      · exact .inr ⟨.start, player_perform _⟩
  | reset => exact .inr ⟨.reset, player_perform _⟩
  | setVolume gain => exact .inr ⟨.setVolume gain, player_perform _⟩
  | shutdown => exact .inl rfl

theorem player_handle (soundtrack : Soundtrack) (work : Work τ γ) (command : Command γ) (now : τ) :
    (handle soundtrack work command now).player =
      (obey soundtrack (work.note (.commandReceived command)) command now).player := by
  unfold handle
  dsimp only
  split <;> rfl

theorem quiet_handle {now : τ} (h : work.player.Quiet now) (command : Command γ) :
    (handle soundtrack work command now).player.Quiet now := by
  have hnoted : (work.note (.commandReceived command)).player.Quiet now := by
    rw [player_note]
    exact h
  rw [player_handle]
  rcases player_obey soundtrack (work.note (.commandReceived command)) command now with
    hsame | ⟨request, hrequest⟩
  · exact hsame ▸ hnoted
  · exact hrequest ▸ hnoted.perform soundtrack request

theorem quiet_tick (soundtrack : Soundtrack) {now : τ} (h : work.player.Quiet now) :
    (work.perform (·.tick now)).player.Quiet now := by
  rw [player_perform]
  exact h.perform soundtrack .tick

theorem quiet_close (soundtrack : Soundtrack) {now : τ} (h : work.player.Quiet now) :
    (close work now).player.Quiet now := by
  rw [close, player_note, player_perform]
  exact h.perform soundtrack .reset

end

/-- Where an engine stands in its loop. -/
inductive Place (τ γ : Type) where
  /-- At the head of the loop, waiting to be woken. -/
  | head
  /-- With a command that has been received and not carried out. -/
  | received (command : Command γ)
  /-- Before the tick, woken by the interval or by a command that has been carried out at a clock
  time. -/
  | woken (command : Option (Command γ)) (handledAt : τ)
  /-- Behind the loop, which a command has ended or an empty queue. -/
  | leaving (last : Option (Command γ))
  | ended (last : Option (Command γ))

/-- An engine, and the queue through which it is commanded. -/
structure Service (τ γ : Type) where
  work : Work τ γ
  place : Place τ γ
  /-- What the clock shows. -/
  clock : τ
  /-- Commands that have been sent and not received.  The channel is assumed to hand them over once
  each and in the order in which they were sent. -/
  queue : List (Command γ)
  /-- Whether there is still somebody who could send commands. -/
  connected : Bool
  /-- All commands that have been sent. -/
  sent : List (Command γ)
  /-- The turns that the engine has completed. -/
  turns : List (Turn τ γ)

/-- What happens to an engine and around it. -/
inductive Happening (τ γ : Type) where
  | send (command : Command γ)
  /-- The last of those leaves who could send commands. -/
  | disconnect
  /-- The clock moves on. -/
  | wait (now : τ)
  /-- The engine receives the command that was sent first, or hears that none will come. -/
  | receive
  /-- The interval is over, and the engine wakes up by itself. -/
  | timeOut
  /-- An engine that has been woken comes to its next place. -/
  | proceed

namespace Place

def isHead : Place τ γ → Bool
  | .head => true
  | .received _ | .woken _ _ | .leaving _ | .ended _ => false

def isEnded : Place τ γ → Bool
  | .ended _ => true
  | .head | .received _ | .woken _ _ | .leaving _ => false

def command? : Place τ γ → Option (Command γ)
  | .head => none
  | .received command => some command
  | .woken command _ => command
  | .leaving last | .ended last => last

end Place

namespace Service

def obeyed (service : Service τ γ) : List (Command γ) := service.turns.filterMap Turn.command

variable [Scalar τ] [Scalar γ]

def opened (sequencer : Sequencer τ γ) (clock : τ) : Service τ γ where
  work := opening sequencer
  place := .head
  clock
  queue := []
  connected := true
  sent := []
  turns := []

def log (service : Service τ γ) : List (Dispatch τ γ) := service.work.player.sink.notes

/-- What may happen.  Only an engine that plays wakes up by itself, and only an empty queue tells
that nobody is left. -/
def Allows (service : Service τ γ) : Happening τ γ → Prop
  | .send _ => service.connected = true
  | .disconnect => True
  | .wait now => service.clock ≤ now
  | .receive => service.place.isHead = true ∧
      (service.queue.isEmpty = false ∨ service.connected = false)
  | .timeOut => service.place.isHead = true ∧ service.work.sequencer.playing = true
  | .proceed => service.place.isHead = false ∧ service.place.isEnded = false

instance (service : Service τ γ) :
    (happening : Happening τ γ) → Decidable (service.Allows happening)
  | .send _ => inferInstanceAs (Decidable (service.connected = true))
  | .disconnect => .isTrue trivial
  | .wait now => inferInstanceAs (Decidable (service.clock ≤ now))
  | .receive => inferInstanceAs (Decidable (service.place.isHead = true ∧
      (service.queue.isEmpty = false ∨ service.connected = false)))
  | .timeOut => inferInstanceAs (Decidable (service.place.isHead = true ∧
      service.work.sequencer.playing = true))
  | .proceed => inferInstanceAs (Decidable (service.place.isHead = false ∧
      service.place.isEnded = false))

variable [Tuning τ]

/-- The next place of an engine that has been woken. -/
def proceed (soundtrack : Soundtrack) (service : Service τ γ) : Service τ γ :=
  match service.place with
  | .head | .ended _ => service
  | .received command =>
    if command.isShutdown then { service with place := .leaving (some command) }
    else
      { service with
        work := handle soundtrack service.work command service.clock
        place := .woken (some command) service.clock }
  | .woken command handledAt =>
    { service with
      work := service.work.perform (·.tick service.clock)
      place := .head
      turns := service.turns ++ [⟨command, handledAt, service.clock⟩] }
  | .leaving last =>
    { service with work := close service.work service.clock, place := .ended last }

def step (soundtrack : Soundtrack) (service : Service τ γ) : Happening τ γ → Service τ γ
  | .send command =>
    { service with
      queue := service.queue ++ [command], sent := service.sent ++ [command] }
  | .disconnect => { service with connected := false }
  | .wait now => { service with clock := now }
  | .receive =>
    match service.queue with
    | [] => { service with place := .leaving none }
    | command :: later => { service with place := .received command, queue := later }
  | .timeOut => { service with place := .woken none service.clock }
  | .proceed => service.proceed soundtrack

def run (soundtrack : Soundtrack) (service : Service τ γ) (happenings : List (Happening τ γ)) :
    Service τ γ :=
  happenings.foldl (step soundtrack) service

/-- Why an engine has left its loop: it has received a shutdown, or all that was sent and nobody is
left. -/
def Leaves (service : Service τ γ) : Option (Command γ) → Prop
  | some last => last.isShutdown = true
  | none => service.queue = [] ∧ service.connected = false

/-- The work of an engine at a place, from its work in all turns that it has completed. -/
def Works (soundtrack : Soundtrack) (served work : Work τ γ) : Place τ γ → Prop
  | .head | .received _ | .woken none _ | .leaving _ => work = served
  | .woken (some command) handledAt =>
    command.isShutdown = false ∧ work = handle soundtrack served command handledAt
  | .ended _ => ∃ endedAt, work = close served endedAt

/-- An engine does its turns one after another, in the order in which commands were sent, and leaves
nothing behind that was to begin later. -/
structure Keeps (soundtrack : Soundtrack) (sequencer : Sequencer τ γ) (service : Service τ γ) :
    Prop where
  goesOn : ∀ turn ∈ service.turns, turn.ends = false
  order : service.sent = service.obeyed ++ service.place.command?.toList ++ service.queue
  leaves : ∀ last, service.place = .leaving last ∨ service.place = .ended last →
    service.Leaves last
  works : Works soundtrack (serve soundtrack (opening sequencer) service.turns) service.work
    service.place
  quiet : service.work.player.Quiet service.clock

variable {soundtrack : Soundtrack} {sequencer : Sequencer τ γ} {service : Service τ γ}

theorem keeps_opened (lookahead : τ) (volume : γ) (mix : PerRole γ) (clock : τ) :
    (opened (.initial lookahead volume mix) clock).Keeps soundtrack
      (.initial lookahead volume mix) where
  goesOn := by simp [opened]
  order := rfl
  leaves := by simp [opened]
  works := rfl
  quiet := by simp [Player.Quiet, opened, opening, Work.note, Work.player, Sink.hearAll, Sink.hear]

theorem Keeps.send (h : service.Keeps soundtrack sequencer) (command : Command γ)
    (hconnected : service.connected = true) :
    (service.step soundtrack (.send command)).Keeps soundtrack sequencer where
  goesOn := h.goesOn
  order := by
    change service.sent ++ [command] = _ ++ _ ++ (service.queue ++ [command])
    rw [h.order, List.append_assoc (_ ++ _)]
    rfl
  leaves last hplace := by
    cases last with
    | some last => exact h.leaves (some last) hplace
    | none => exact absurd (hconnected.symm.trans (h.leaves none hplace).2) (by simp)
  works := h.works
  quiet := h.quiet

theorem Keeps.disconnect (h : service.Keeps soundtrack sequencer) :
    (service.step soundtrack .disconnect).Keeps soundtrack sequencer :=
  { h with
    leaves := by
      intro last hplace
      cases last with
      | some last => exact h.leaves (some last) hplace
      | none => exact ⟨(h.leaves none hplace).1, rfl⟩ }

theorem Keeps.wait [Scalar.Chronological τ] (h : service.Keeps soundtrack sequencer) {now : τ}
    (hle : service.clock ≤ now) :
    (service.step soundtrack (.wait now)).Keeps soundtrack sequencer :=
  { h with quiet := h.quiet.later hle }

theorem Keeps.receive (h : service.Keeps soundtrack sequencer)
    (hallows : service.Allows .receive) :
    (service.step soundtrack .receive).Keeps soundtrack sequencer := by
  obtain ⟨work, place, clock, queue, connected, sent, turns⟩ := service
  obtain ⟨hgoesOn, horder, hleaves, hworks, hquiet⟩ := h
  cases place with
  | received | woken | leaving | ended => exact absurd hallows.1 (by simp [Place.isHead])
  | head =>
      cases queue with
      | nil =>
          have hconnected : connected = false := hallows.2.resolve_left (by simp)
          refine ⟨hgoesOn, horder, ?_, hworks, hquiet⟩
          intro last hplace
          obtain rfl : none = last := by simpa [step] using hplace
          exact ⟨rfl, hconnected⟩
      | cons command later =>
          refine ⟨hgoesOn, ?_, by simp [step], hworks, hquiet⟩
          change sent = turns.filterMap Turn.command ++ [command] ++ later
          exact horder.trans (by simp [obeyed, Place.command?])

theorem Keeps.timeOut (h : service.Keeps soundtrack sequencer) (hallows : service.Allows .timeOut) :
    (service.step soundtrack .timeOut).Keeps soundtrack sequencer := by
  obtain ⟨work, place, clock, queue, connected, sent, turns⟩ := service
  obtain ⟨hgoesOn, horder, hleaves, hworks, hquiet⟩ := h
  cases place with
  | received | woken | leaving | ended => exact absurd hallows.1 (by simp [Place.isHead])
  | head => exact ⟨hgoesOn, horder, by simp [step], hworks, hquiet⟩

/-- One more turn that does not end the engine. -/
theorem serve_concat {turns : List (Turn τ γ)} (hgoesOn : ∀ turn ∈ turns, turn.ends = false)
    {last : Turn τ γ} (hlast : last.ends = false) (work : Work τ γ) :
    serve soundtrack work (turns ++ [last]) =
      turn soundtrack (serve soundtrack work turns) last := by
  have hall : ∀ turn ∈ turns ++ [last], (!turn.ends) = true := by
    intro turn hturn
    rcases List.mem_append.mp hturn with hold | hnew
    · simp [hgoesOn turn hold]
    · rw [List.mem_singleton.mp hnew, hlast]
      rfl
  have hturns : ∀ turn ∈ turns, (!turn.ends) = true :=
    fun turn hturn => hall turn (List.mem_append_left _ hturn)
  rw [serve, serve, List.takeWhile_eq_self_iff.mpr hall, List.takeWhile_eq_self_iff.mpr hturns,
    List.foldl_append, List.foldl_cons, List.foldl_nil]

/-- The tick completes the turn. -/
theorem Works.turn {served work : Work τ γ} {command : Option (Command γ)} {handledAt : τ}
    (h : Works soundtrack served work (.woken command handledAt)) (polledAt : τ) :
    (Turn.mk command handledAt polledAt).ends = false ∧
      work.perform (·.tick polledAt) =
        Engine.turn soundtrack served ⟨command, handledAt, polledAt⟩ := by
  cases command with
  | none =>
      obtain rfl : work = served := h
      exact ⟨rfl, rfl⟩
  | some command =>
      obtain ⟨hgoesOn, rfl⟩ := h
      refine ⟨?_, rfl⟩
      cases command with
      | shutdown => simp [Command.isShutdown] at hgoesOn
      | load | loadStage | start | stop | toggle | reset | setVolume => rfl

theorem Keeps.proceed (h : service.Keeps soundtrack sequencer) (hallows : service.Allows .proceed) :
    (service.step soundtrack .proceed).Keeps soundtrack sequencer := by
  obtain ⟨work, place, clock, queue, connected, sent, turns⟩ := service
  obtain ⟨hgoesOn, horder, hleaves, hworks, hquiet⟩ := h
  cases place with
  | head => exact absurd hallows.1 (by simp [Place.isHead])
  | ended => exact absurd hallows.2 (by simp [Place.isEnded])
  | received command =>
      change Keeps soundtrack sequencer (if command.isShutdown then _ else _)
      cases hshutdown : command.isShutdown with
      | true =>
          refine ⟨hgoesOn, horder, ?_, hworks, hquiet⟩
          intro last hplace
          obtain rfl : some command = last := by simpa using hplace
          exact hshutdown
      | false =>
          obtain rfl : work = serve soundtrack (opening sequencer) turns := hworks
          exact ⟨hgoesOn, horder, by simp, ⟨hshutdown, rfl⟩, quiet_handle hquiet command⟩
  | woken command handledAt =>
      let last : Turn τ γ := ⟨command, handledAt, clock⟩
      obtain ⟨hends, hturn⟩ := Works.turn hworks clock
      refine ⟨?_, ?_, by simp [step, Service.proceed], ?_, quiet_tick soundtrack hquiet⟩
      · intro turn hmem
        rcases List.mem_append.mp hmem with hold | hnew
        · exact hgoesOn turn hold
        · exact List.mem_singleton.mp hnew ▸ hends
      · have hobeyed : (turns ++ [last]).filterMap Turn.command =
            turns.filterMap Turn.command ++ command.toList := by
          cases command with
          | none => rw [List.filterMap_append]; rfl
          | some command => rw [List.filterMap_append]; rfl
        change sent = (turns ++ [last]).filterMap Turn.command ++ [] ++ queue
        rw [hobeyed, List.append_nil]
        exact horder
      · exact hturn.trans (serve_concat hgoesOn hends _).symm
  | leaving last =>
      obtain rfl : work = serve soundtrack (opening sequencer) turns := hworks
      refine ⟨hgoesOn, horder, ?_, ⟨clock, rfl⟩, quiet_close soundtrack hquiet⟩
      intro other hplace
      obtain rfl : last = other := by simpa [step, Service.proceed] using hplace
      exact hleaves last (.inl rfl)

/-- What everything that may happen keeps. -/
theorem Keeps.step [Scalar.Chronological τ] (h : service.Keeps soundtrack sequencer)
    {happening : Happening τ γ} (hallows : service.Allows happening) :
    (service.step soundtrack happening).Keeps soundtrack sequencer := by
  cases happening with
  | send command => exact h.send command hallows
  | disconnect => exact h.disconnect
  | wait now => exact h.wait hallows
  | receive => exact h.receive hallows
  | timeOut => exact h.timeOut hallows
  | proceed => exact h.proceed hallows

/-- The commands that have been carried out are those sent, up to a shutdown. -/
theorem Keeps.obeyed_eq (h : service.Keeps soundtrack sequencer) {last : Option (Command γ)}
    (hplace : service.place = .ended last) :
    service.obeyed = service.sent.takeWhile (fun command => !command.isShutdown) := by
  have hgoesOn : ∀ command ∈ service.obeyed, (!command.isShutdown) = true := by
    intro command hmem
    obtain ⟨turn, hturn, hcommand⟩ := List.mem_filterMap.mp hmem
    have hends := h.goesOn turn hturn
    cases command with
    | shutdown => simp [Turn.ends, hcommand] at hends
    | load | loadStage | start | stop | toggle | reset | setVolume => rfl
  have hleaves := h.leaves last (.inr hplace)
  rw [h.order, hplace, List.append_assoc, List.takeWhile_append_of_pos hgoesOn]
  cases last with
  | none => simp [Place.command?, hleaves.1]
  | some last =>
      have hlast : last.isShutdown = true := hleaves
      simp [Place.command?, hlast]

/-- An engine that obeys, from a sequencer that it was given. -/
structure Obeys (soundtrack : Soundtrack) (sequencer : Sequencer τ γ) (service : Service τ γ) :
    Prop where
  /-- No shutdown has been carried out like another command. -/
  goesOn : ∀ turn ∈ service.turns, turn.ends = false
  /-- At the head of the loop all that was sent has been carried out, turn after turn, or waits. -/
  atHead : service.place = .head →
    service.work = serve soundtrack (opening sequencer) service.turns ∧
      service.sent = service.obeyed ++ service.queue
  /-- In the end all that was sent before a shutdown has been carried out, and the sequencer is as
  new. -/
  atEnd : ∀ last, service.place = .ended last →
    ((∃ command ∈ service.sent, command.isShutdown = true) ∨ service.connected = false) ∧
    service.obeyed = service.sent.takeWhile (fun command => !command.isShutdown) ∧
    (∃ endedAt, service.work = Engine.run soundtrack sequencer service.turns endedAt) ∧
    service.work.sequencer.playing = false ∧ service.work.sequencer.current = none ∧
    ∀ now, service.work.sequencer.transport.position now = 0
  /-- A stopped sequencer has nothing left that begins now or later. -/
  quiet : service.work.sequencer.playing = false → ∀ note ∈ service.log, note.start < service.clock
  /-- The engine goes on to its end, unless it is stopped and a command may still come. -/
  awake : service.place.isEnded = true ∨ service.Allows .receive ∨ service.Allows .timeOut ∨
    service.Allows .proceed ∨
      (service.work.sequencer.playing = false ∧ service.queue = [] ∧ service.connected = true)

theorem Keeps.obeys (h : service.Keeps soundtrack sequencer) :
    service.Obeys soundtrack sequencer where
  goesOn := h.goesOn
  atHead hplace := by
    have horder := h.order
    have hworks := h.works
    rw [hplace] at horder hworks
    exact ⟨hworks, by simpa [Place.command?] using horder⟩
  atEnd last hplace := by
    have hleaves := h.leaves last (.inr hplace)
    have horder := h.order
    have hworks := h.works
    rw [hplace] at horder hworks
    obtain ⟨endedAt, hwork⟩ := hworks
    refine ⟨?_, h.obeyed_eq hplace, ⟨endedAt, hwork⟩, ?_⟩
    · cases last with
      | none => exact .inr hleaves.2
      | some last => exact .inl ⟨last, by simp [horder, Place.command?], hleaves⟩
    · rw [hwork]
      exact ⟨rfl, rfl, fun _ => rfl⟩
  quiet := h.quiet
  awake := by
    cases hended : service.place.isEnded with
    | true => exact .inl rfl
    | false =>
        cases hhead : service.place.isHead with
        | false => exact .inr (.inr (.inr (.inl ⟨hhead, hended⟩)))
        | true =>
            by_cases hnext : service.queue.isEmpty = false ∨ service.connected = false
            · exact .inr (.inl ⟨hhead, hnext⟩)
            · simp only [not_or, Bool.not_eq_false] at hnext
              cases hplaying : service.work.sequencer.playing with
              | true => exact .inr (.inr (.inl ⟨hhead, hplaying⟩))
              | false =>
                  have hqueue : service.queue = [] := List.isEmpty_iff.mp hnext.1
                  exact .inr (.inr (.inr (.inr ⟨rfl, hqueue, hnext.2⟩)))

/-- An engine with a new sequencer, whose queue is filled, emptied and left at any time, while the
clock does not go back.  At every moment it has carried out what was sent to it, each command once,
in order and with a tick behind it, and it ends with the sequencer reset; whenever the sequencer is
stopped, nothing is recorded that begins from now on. -/
theorem obeys_run [Scalar.Chronological τ] (soundtrack : Soundtrack) (lookahead : τ) (volume : γ)
    (mix : PerRole γ) (clock : τ) (happenings : List (Happening τ γ))
    (hadmits : Admits (Service.step soundtrack) Allows
      (opened (.initial lookahead volume mix) clock) happenings) :
    ((opened (.initial lookahead volume mix) clock).run soundtrack happenings).Obeys soundtrack
      (.initial lookahead volume mix) := by
  have hkeeps : ((opened (.initial lookahead volume mix) clock).run soundtrack happenings).Keeps
      soundtrack (.initial lookahead volume mix) :=
    hadmits.foldl (fun _ _ h hallows => h.step hallows)
      (keeps_opened lookahead volume mix clock)
  exact hkeeps.obeys

open Octaves Extended in
/-- The second note is taken back by the stop, which is carried out behind a tick of the engine's
own; the start behind the shutdown is never received. -/
theorem obeys_run_to_shutdown :
    let texts : PerRole String := ⟨"a a", "", "", ""⟩
    let soundtrack : Soundtrack := ⟨fun _ => some texts, fun _ => none, id⟩
    let fresh : Sequencer Extended Rat := .initial (finite (3 / 5)) 1 (.replicate 1)
    let opened : Service Extended Rat := opened fresh (finite 0)
    let happenings : List (Happening Extended Rat) := [.send (.load 0), .receive, .send .start,
      .proceed, .proceed, .receive, .proceed, .proceed, .wait (finite (1 / 4)), .timeOut, .proceed,
      .send .stop, .send .shutdown, .receive, .proceed, .wait (finite (1 / 2)), .send .start,
      .proceed, .receive, .proceed, .disconnect, .proceed]
    let service := opened.run soundtrack happenings
    Admits (Service.step soundtrack) Allows opened happenings ∧
      service.place.isEnded = true ∧ service.sent.length = 5 ∧ service.obeyed.length = 3 ∧
      (opened.run soundtrack (happenings.take 11)).log.map Dispatch.start =
        [finite 0, finite (1 / 2)] ∧
      service.log.map Dispatch.start = [finite 0] ∧ service.Obeys soundtrack fresh := by
  intro texts soundtrack fresh opened happenings service
  have hadmits : Admits (Service.step soundtrack) Allows opened happenings := by decide +kernel
  exact ⟨hadmits, by decide +kernel, by decide +kernel, by decide +kernel, by decide +kernel,
    by decide +kernel, obeys_run soundtrack (finite (3 / 5)) 1 (.replicate 1) (finite 0) happenings
      hadmits⟩

end Service

end Engine

end Chiptune
