import Chiptune.Proofs.Recital
import Chiptune.Proofs.Spared

/-!
What a rig has begun and what waits in it, told from what its sequencer has handed out.

Main statement: of every track the rig has begun what has sounded, each note at its sample, and what
is late waits in the output.  Every cue and every buffer keeps it so.
-/
namespace Chiptune

variable {γ : Type}

def Dispatch.stampedAt (rate : Nat) (note : Dispatch Rat γ) : StampedNote Rat γ where
  stamp := exactCount (note.start * rate)
  role := note.role
  voice := note.voice
  volume := note.volume
  samples := exactCount (note.duration * rate)

/-- A note that begins at the sample nearest to its time. -/
def Dispatch.onset (rate : Nat) (note : Dispatch Rat γ) : Onset Rat γ :=
  ⟨nearest (note.start * rate), note.stampedAt rate⟩

namespace Recital

variable [Scalar γ]

/-- What has begun has begun at its sample; what is late waits, and its clock times lie ahead as its
musical times do. -/
structure Sounds (recital : Recital γ) (fresh : Sequencer Rat γ) (song : Composition Rat γ)
    (rate : Nat) (handed : Role → List (Occurrence γ)) : Prop where
  follows : recital.rig.sequencer.Follows fresh song recital.watch recital.rig.now handed
  rate_eq : recital.rig.sink.rate = rate
  counter_lt : recital.rig.sink.counter < 2 ^ 64
  order : InOrder recital.rig.sink.renderer.pending
  onsets : ∀ role, onsetsOf role recital.onsets =
    (song.begun rate recital.watch (handed role)).map fun o =>
      (fresh.noteOf song recital.watch.resumes role o).onset rate
  waiting : ∀ role, recital.rig.sink.waiting.filter (fun note => decide (note.role = role)) =
    (song.late rate recital.watch (handed role)).map fun o =>
      (fresh.noteOf song recital.watch.resumes role o).stampedAt rate
  due : ∀ role, ∀ o ∈ song.late rate recital.watch (handed role),
    clockAt recital.watch.resumes (song.timeOf o) =
      recital.rig.now - recital.watch.played + song.timeOf o

variable {recital next : Recital γ} {fresh : Sequencer Rat γ} {song : Composition Rat γ}
  {rate : Nat} {handed later reached : Role → List (Occurrence γ)} {role : Role}
  {o : Occurrence γ} {effects : List (Effect Rat γ)}

theorem opened_eq [Tuning Rat] {soundtrack : Soundtrack} {id : Nat} {texts : PerRole String}
    (hsong : soundtrack.song id = some texts) (lookahead : Rat) (volume : γ) (mix : PerRole γ)
    (rate speakers slots counter : Nat) :
    opened soundtrack id lookahead volume mix rate speakers slots counter =
      { rig :=
          { sequencer :=
              { Sequencer.initial lookahead volume mix with
                current := some (Composition.compile id texts) }
            sink := .initial rate speakers slots counter }
        onsets := []
        cuts := []
        watch := .initial } := by
  rw [opened, Rig.request, Player.perform_load _ hsong]

theorem sink_opened [Tuning Rat] {soundtrack : Soundtrack} {id : Nat} {texts : PerRole String}
    (hsong : soundtrack.song id = some texts) (lookahead : Rat) (volume : γ) (mix : PerRole γ)
    (rate speakers slots counter : Nat) :
    (opened soundtrack id lookahead volume mix rate speakers slots counter).rig.sink =
      .initial rate speakers slots counter := by
  rw [opened_eq hsong]

/-- A song that has been loaded has not begun. -/
theorem sounds_opened [Tuning Rat] {soundtrack : Soundtrack} {id : Nat} {texts : PerRole String}
    (hsong : soundtrack.song id = some texts)
    (hloop : 0 < (Composition.compile id texts : Composition Rat γ).loopLength) (lookahead : Rat)
    (volume : γ) (mix : PerRole γ) (speakers slots : Nat) {counter : Nat}
    (hcounter : counter < 2 ^ 64) :
    (opened soundtrack id lookahead volume mix rate speakers slots counter).Sounds
      (.initial lookahead volume mix) (Composition.compile id texts) rate fun _ => [] := by
  have htimed : (Composition.compile id texts : Composition Rat γ).WellTimed :=
    Composition.wellTimed_compile id texts
  rw [opened_eq hsong]
  exact
    { follows := Sequencer.follows_initial htimed hloop lookahead volume mix
      rate_eq := rfl
      counter_lt := hcounter
      order := List.Pairwise.nil
      onsets := fun role => rfl
      waiting := fun role => rfl
      due := fun role o ho => absurd ho List.not_mem_nil }

omit [Scalar γ] in
/-- A queue does not move the clock. -/
theorem now_queued {messages : List (Message Rat γ)}
    (hsink : next.rig.sink = recital.rig.sink.queued messages) :
    next.rig.now = recital.rig.now := by
  unfold Rig.now
  rw [hsink]
  rfl

theorem Sounds.plays (h : recital.Sounds fresh song rate handed) (hrate : 0 < rate)
    (hfollows : next.rig.sequencer.Follows fresh song next.watch recital.rig.now later)
    (hsink : next.rig.sink =
      recital.rig.sink.queued (effects.filterMap recital.rig.sink.message?))
    (honsets : next.onsets = recital.onsets)
    (hplayed : next.watch.played = recital.watch.played)
    (hlater : ∀ role, later role = handed role ++ reached role)
    (hnotes : ∀ role, (effects.filterMap Effect.note?).filter
        (fun note => decide (note.role = role)) =
      (reached role).map (fresh.noteOf song recital.watch.resumes role))
    (hsilence : ∀ time, Effect.silence time ∉ effects)
    (hreached : ∀ role, ∀ o ∈ reached role, recital.watch.played ≤ song.timeOf o ∧
      clockAt recital.watch.resumes (song.timeOf o) =
        recital.rig.now - recital.watch.played + song.timeOf o)
    (hresumes : ∀ role, ∀ o ∈ later role, clockAt next.watch.resumes (song.timeOf o) =
      clockAt recital.watch.resumes (song.timeOf o))
    (hpauses : next.watch.pauses = recital.watch.pauses) :
    next.Sounds fresh song rate later := by
  have hahead (role : Role) : ∀ o ∈ reached role, recital.watch.played ≤ song.timeOf o :=
    fun o ho => (hreached role o ho).1
  have hbegun (role : Role) : song.begun rate next.watch (later role) =
      song.begun rate recital.watch (handed role) :=
    hlater role ▸ Composition.begun_append hrate hplayed hpauses h.follows.keeps.paused (hahead role)
  have hlate (role : Role) : song.late rate next.watch (later role) =
      song.late rate recital.watch (handed role) ++ reached role :=
    hlater role ▸ Composition.late_append hrate hplayed hpauses h.follows.keeps.paused (hahead role)
  have hnote (role : Role) : ∀ o ∈ later role, fresh.noteOf song next.watch.resumes role o =
      fresh.noteOf song recital.watch.resumes role o :=
    fun o ho => congrArg (fun time => fresh.dispatchOf ⟨role, o.event, time⟩) (hresumes role o ho)
  have hnow : next.rig.now = recital.rig.now := now_queued hsink
  refine ⟨hnow ▸ hfollows, ?_, ?_, ?_, ?_, ?_, ?_⟩
  · exact hsink ▸ h.rate_eq
  · exact hsink ▸ h.counter_lt
  · exact hsink ▸ h.order
  · intro role
    rw [honsets, h.onsets role, ← hbegun role]
    apply List.map_congr_left
    intro o ho
    rw [hnote role o (Composition.mem_begun.mp ho).1]
  · intro role
    have hstamped : ((effects.filterMap Effect.note?).map recital.rig.sink.stamped).filter
        (fun note => decide (note.role = role)) =
          (reached role).map fun o =>
            (fresh.noteOf song recital.watch.resumes role o).stampedAt rate := by
      rw [List.filter_map]
      refine (congrArg _ (hnotes role)).trans ?_
      rw [List.map_map, ← h.rate_eq]
      rfl
    rw [hsink, Output.waiting_queued_notes effects _ hsilence, List.filter_append, h.waiting role,
      hstamped, ← List.map_append, ← hlate role]
    apply List.map_congr_left
    intro o ho
    rw [hnote role o (Composition.mem_late.mp ho).1]
  · intro role o ho
    rw [hresumes role o (Composition.mem_late.mp ho).1, hnow, hplayed]
    rw [hlate role] at ho
    rcases List.mem_append.mp ho with hold | hnew
    · exact h.due role o hold
    · exact (hreached role o hnew).2

/-- What waits begins with the next sample or later. -/
theorem Sounds.now_le (h : recital.Sounds fresh song rate handed)
    (ho : o ∈ song.late rate recital.watch (handed role)) :
    recital.rig.now ≤ clockAt recital.watch.resumes (song.timeOf o) + halfSample rate := by
  have hlate := (Composition.mem_late.mp ho).2.1
  rw [h.due role o ho]
  linarith

theorem Sounds.counter_le_stamp (h : recital.Sounds fresh song rate handed) (hrate : 0 < rate)
    (ho : o ∈ song.late rate recital.watch (handed role)) :
    recital.rig.sink.counter ≤
      ((fresh.noteOf song recital.watch.resumes role o).stampedAt rate).stamp := by
  have hnow := h.now_le ho
  apply le_exactCount hrate h.counter_lt
  rw [← h.rate_eq] at hnow ⊢
  exact hnow

/-- A pause drops all that waits, and what it leaves has sounded. -/
theorem Sounds.silences (h : recital.Sounds fresh song rate handed) (hrate : 0 < rate)
    (hfollows : next.rig.sequencer.Follows fresh song next.watch recital.rig.now later)
    {notice : Notice Rat γ} (heffects : effects = [.notice notice, .silence recital.rig.now])
    (hsink : next.rig.sink =
      recital.rig.sink.queued (effects.filterMap recital.rig.sink.message?))
    (honsets : next.onsets = recital.onsets)
    (hplayed : next.watch.played = recital.watch.played)
    (hlater : ∀ role, later role =
      (handed role).filter fun o => decide (song.timeOf o < recital.watch.played))
    (hresumes : next.watch.resumes = recital.watch.resumes)
    (hpauses : next.watch.pauses = recital.watch.played :: recital.watch.pauses) :
    next.Sounds fresh song rate later := by
  have hnothing (role : Role) : song.late rate next.watch (later role) = [] :=
    hlater role ▸ Composition.late_pause hrate hplayed hpauses
  refine ⟨now_queued hsink ▸ hfollows, ?_, ?_, ?_, ?_, ?_, ?_⟩
  · exact hsink ▸ h.rate_eq
  · exact hsink ▸ h.counter_lt
  · exact hsink ▸ h.order
  · intro role
    rw [honsets, h.onsets role, hresumes, hlater role, Composition.begun_pause hrate hplayed hpauses]
  · intro role
    have hdropped : next.rig.sink.waiting = recital.rig.sink.waiting.filter fun note =>
        decide (note.stamp < recital.rig.sink.counter) := by
      rw [hsink, heffects, ← Output.toSamples_now (h.rate_eq ▸ hrate) h.counter_lt,
        Output.waiting_queued]
      rfl
    rw [hnothing role, List.map_nil, hdropped, List.filter_comm, h.waiting role,
      List.filter_eq_nil_iff]
    intro note hnote
    obtain ⟨o, ho, rfl⟩ := List.mem_map.mp hnote
    simpa using h.counter_le_stamp hrate ho
  · intro role o ho
    rw [hnothing role] at ho
    exact absurd ho List.not_mem_nil

/-- In a pause nothing waits. -/
theorem Sounds.playing_of_late (h : recital.Sounds fresh song rate handed)
    (htimed : song.WellTimed) (hloop : 0 < song.loopLength)
    (ho : o ∈ song.late rate recital.watch (handed role)) : recital.playing = true := by
  by_contra hplaying
  rw [Bool.not_eq_true] at hplaying
  obtain ⟨hhanded, hlate, hspared⟩ := Composition.mem_late.mp ho
  have hnonneg := h.follows.timeOf_nonneg htimed hloop hhanded
  rw [(h.follows.rests hplaying).2 role] at hhanded
  have hlt := Composition.lt_of_mem_past hhanded
  rcases h.follows.keeps.halted hplaying with hzero | hpause
  · linarith
  · exact hspared ⟨_, hpause, hlt, hlate⟩

theorem noteOf_start (resumes : List Resume) (role : Role) (o : Occurrence γ) :
    (fresh.noteOf song resumes role o).start = clockAt resumes (song.timeOf o) := rfl

/-- What waits of a track is in order. -/
theorem Sounds.inOrder (h : recital.Sounds fresh song rate handed) (htimed : song.WellTimed)
    (hloop : 0 < song.loopLength) (role : Role) :
    InOrder (recital.rig.sink.waiting.filter fun note => decide (note.role = role)) := by
  rw [h.waiting role, InOrder, List.pairwise_map]
  apply (((h.follows.sorted_handed htimed hloop role).filter _).filter _).imp_of_mem
  intro a b ha hb hab
  have hrate : (0 : Rat) ≤ rate := Nat.cast_nonneg rate
  rw [Dispatch.stampedAt, Dispatch.stampedAt, noteOf_start, noteOf_start, h.due role a ha,
    h.due role b hb]
  exact exactCount_mono (mul_le_mul_of_nonneg_right (by linarith) hrate)

/-- Seconds up to the end of a buffer. -/
theorem Sounds.end_eq (h : recital.Sounds fresh song rate handed) (size : Nat) :
    ((recital.rig.sink.counter + recital.frames size : Nat) : Rat) / rate =
      recital.rig.now + recital.seconds size := by
  rw [← h.rate_eq]
  push_cast
  exact add_div _ _ _

/-- Of what waits, a buffer begins what it plays. -/
theorem Sounds.begins_eq (h : recital.Sounds fresh song rate handed) (hrate : 0 < rate)
    (htimed : song.WellTimed) (hloop : 0 < song.loopLength)
    (ho : o ∈ song.late rate recital.watch (handed role)) {size : Nat}
    (hcounter : recital.rig.sink.counter + recital.frames size < 2 ^ 64) :
    ((fresh.noteOf song recital.watch.resumes role o).stampedAt rate).begins
        recital.rig.sink.counter (recital.rig.sink.counter + recital.frames size) =
      song.sounded rate (recital.watch.run recital.playing (recital.seconds size)).played o := by
  have hstamp := h.counter_le_stamp hrate ho
  have hnow := h.now_le ho
  have hnonneg : 0 ≤ recital.rig.now := by
    change (0 : Rat) ≤ (recital.rig.sink.counter : Rat) / (recital.rig.sink.rate : Rat)
    positivity
  have hplayed : (recital.watch.run recital.playing (recital.seconds size)).played =
      recital.watch.played + recital.seconds size := by
    rw [h.playing_of_late htimed hloop ho]
    rfl
  rw [StampedNote.begins, max_eq_right hstamp, Composition.sounded, hplayed]
  refine decide_eq_decide.mpr ((exactCount_lt_iff hcounter).trans ?_)
  refine (nearest_lt_iff hrate (hnonneg.trans hnow) _).trans ?_
  rw [h.end_eq size, h.due role o ho]
  constructor
  · intro hlt
    linarith
  · intro hlt
    linarith

theorem Sounds.onset_eq (h : recital.Sounds fresh song rate handed) (hrate : 0 < rate)
    (ho : o ∈ song.late rate recital.watch (handed role)) {frames : Nat}
    (hcounter : recital.rig.sink.counter + frames < 2 ^ 64)
    (hbegins : ((fresh.noteOf song recital.watch.resumes role o).stampedAt rate).begins
      recital.rig.sink.counter (recital.rig.sink.counter + frames) = true) :
    ((fresh.noteOf song recital.watch.resumes role o).stampedAt rate).onset
        recital.rig.sink.counter =
      (fresh.noteOf song recital.watch.resumes role o).onset rate := by
  have hstamp := h.counter_le_stamp hrate ho
  have hlt := of_decide_eq_true hbegins
  rw [max_eq_right hstamp] at hlt
  rw [StampedNote.onset, max_eq_right hstamp]
  exact congrArg (Onset.mk · _) (exactCount_of_lt hcounter ((exactCount_lt_iff hcounter).mp hlt))

variable [Narrowing Rat γ] [Waveform γ]

theorem sink_cue [Tuning Rat] (soundtrack : Soundtrack) (cue : Cue)
    (hroom : .queueFull ∉ (recital.rig.request soundtrack cue.request).notices) :
    (recital.step soundtrack (.cue cue)).rig.sink = recital.rig.sink.queued
      ((recital.rig.sequencer.perform soundtrack recital.rig.now cue.request).effects.filterMap
        recital.rig.sink.message?) :=
  Output.hearAll_eq_queued _ _ hroom

theorem Sounds.cue [Tuning Rat] (soundtrack : Soundtrack) (cue : Cue)
    (h : recital.Sounds fresh song rate handed) (hrate : 0 < rate) (htimed : song.WellTimed)
    (hloop : 0 < song.loopLength)
    (hresume : cue = .start → recital.playing = false →
      ∀ role, ∀ o ∈ song.timeline role ⌊recital.watch.played / song.loopLength⌋₊,
        song.timeOf o < recital.watch.played)
    (hroom : .queueFull ∉ (recital.rig.request soundtrack cue.request).notices) :
    ∃ later, (recital.step soundtrack (.cue cue)).Sounds fresh song rate later := by
  obtain ⟨later, hresponse, hfollows⟩ := h.follows.perform soundtrack cue htimed hloop hresume
  have hsink := sink_cue soundtrack cue hroom
  have hplayed := recital.watch.played_heard cue recital.playing
    (recital.step soundtrack (.cue cue)).rig.sequencer.playing recital.rig.now
  refine ⟨later, ?_⟩
  cases hresponse with
  | plays reached hlater hnotes hsilence hreached hresumes hpauses =>
      exact h.plays hrate hfollows hsink rfl hplayed hlater hnotes hsilence hreached hresumes hpauses
  | silences notice heffects hlater hkeeps hresumes hpauses =>
      exact h.silences hrate hfollows heffects hsink rfl hplayed hlater hresumes hpauses

theorem Sounds.now_buffer [Tuning Rat] (soundtrack : Soundtrack)
    (h : recital.Sounds fresh song rate handed) {size : Nat}
    (hcounter : recital.rig.sink.counter + recital.frames size < 2 ^ 64) :
    (recital.step soundtrack (.buffer size)).rig.now =
      recital.rig.now + recital.seconds size := by
  rw [← h.end_eq size, ← SampleClock.after_of_lt hcounter, ← h.rate_eq]
  rfl

/-- A buffer begins the notes whose samples it plays. -/
theorem Sounds.buffer [Tuning Rat] (soundtrack : Soundtrack) {limit : Rat} {size : Nat}
    (h : recital.Sounds fresh song rate handed) (hrate : 0 < rate) (htimed : song.WellTimed)
    (hloop : 0 < song.loopLength) (hlimit : limit = min fresh.scheduler.lookahead song.loopLength)
    (hcounter : recital.rig.sink.counter + recital.frames size < 2 ^ 64)
    (hallows : recital.Allows soundtrack limit (.buffer size)) :
    (recital.step soundtrack (.buffer size)).Sounds fresh song rate handed := by
  obtain ⟨hroom, hpace⟩ := hallows
  have hbuffer := Output.playFrames_buffered recital.rig.sink (recital.frames size) h.order hroom
    hcounter
  have hseconds : 0 ≤ recital.seconds size := by
    unfold seconds
    positivity
  have hnow := h.now_buffer soundtrack hcounter
  let after := recital.watch.run recital.playing (recital.seconds size)
  have hbegins (role : Role) : ∀ o ∈ song.late rate recital.watch (handed role),
      ((fresh.noteOf song recital.watch.resumes role o).stampedAt rate).begins
          recital.rig.sink.counter (recital.rig.sink.counter + recital.frames size) =
        song.sounded rate after.played o :=
    fun o ho => h.begins_eq hrate htimed hloop ho hcounter
  have hbegun (role : Role) : song.begun rate after (handed role) =
      song.begun rate recital.watch (handed role) ++
        (song.late rate recital.watch (handed role)).filter (song.sounded rate after.played) :=
    Composition.begun_run recital.playing hseconds (h.follows.sorted_handed htimed hloop role)
  have hlate (role : Role) : song.late rate after (handed role) =
      (song.late rate recital.watch (handed role)).filter fun o =>
        !song.sounded rate after.played o :=
    Composition.late_run recital.playing hseconds
  have hresumes : after.resumes = recital.watch.resumes := Stopwatch.resumes_run ..
  refine ⟨hnow ▸ h.follows.wait hseconds (hlimit ▸ hpace), ?_, ?_, ?_, ?_, ?_, ?_⟩
  · exact hbuffer.rate.trans h.rate_eq
  · exact hbuffer.counter ▸ hcounter
  · exact hbuffer.order
  · intro role
    have hnew : onsetsOf role
        (recital.rig.sink.playFrames (recital.frames size)).1.onsets.toList =
          ((song.late rate recital.watch (handed role)).filter
            (song.sounded rate after.played)).map fun o =>
              (fresh.noteOf song recital.watch.resumes role o).onset rate := by
      rw [hbuffer.onsets role (h.inOrder htimed hloop role), h.waiting role, List.filter_map,
        List.map_map, ← List.filter_congr (hbegins role)]
      apply List.map_congr_left
      intro o ho
      obtain ⟨hmem, hstarts⟩ := List.mem_filter.mp ho
      exact h.onset_eq hrate hmem hcounter hstarts
    change onsetsOf role (recital.onsets ++ _) = (song.begun rate after _).map fun o =>
      (fresh.noteOf song after.resumes role o).onset rate
    rw [onsetsOf_append, h.onsets role, hnew, hresumes, hbegun role, List.map_append]
  · intro role
    change (recital.rig.sink.playFrames (recital.frames size)).2.waiting.filter _ =
      (song.late rate after _).map fun o =>
        (fresh.noteOf song after.resumes role o).stampedAt rate
    rw [hbuffer.waiting role (h.inOrder htimed hloop role), h.waiting role, List.filter_map,
      hresumes, hlate role]
    refine congrArg _ (List.filter_congr ?_)
    intro o ho
    exact congrArg not (hbegins role o ho)
  · intro role o ho
    change o ∈ song.late rate after _ at ho
    rw [hlate role] at ho
    have hmem := List.mem_of_mem_filter ho
    have hplayed : after.played = recital.watch.played + recital.seconds size := by
      simp only [after, h.playing_of_late htimed hloop hmem]
      rfl
    change clockAt after.resumes _ = _ - after.played + _
    rw [hresumes, h.due role o hmem, hplayed, hnow]
    ring

theorem Sounds.step [Tuning Rat] (soundtrack : Soundtrack) {limit : Rat} {beat : Beat}
    (h : recital.Sounds fresh song rate handed) (hrate : 0 < rate) (htimed : song.WellTimed)
    (hloop : 0 < song.loopLength) (hlimit : limit = min fresh.scheduler.lookahead song.loopLength)
    (hresume : beat = .cue .start → recital.playing = false →
      ∀ role, ∀ o ∈ song.timeline role ⌊recital.watch.played / song.loopLength⌋₊,
        song.timeOf o < recital.watch.played)
    (hcounter : recital.rig.sink.counter + beat.frames recital.rig.sink.speakers < 2 ^ 64)
    (hallows : recital.Allows soundtrack limit beat) :
    ∃ later, (recital.step soundtrack beat).Sounds fresh song rate later := by
  cases beat with
  | cue cue =>
      exact h.cue soundtrack cue hrate htimed hloop
        (fun hstart => hresume (congrArg Beat.cue hstart)) hallows
  | buffer size =>
      exact ⟨handed, h.buffer soundtrack hrate htimed hloop hlimit hcounter hallows⟩

/-- What a rig has begun of a track: some occurrences, none twice, each at the sample nearest to the
clock time at which playing reached it; and they are those whose sample has been played and that no
pause has cut off.  The channel of the track is what it becomes from silence if it begins each of them
at its sample, begins nothing else, and is cut as the record says. -/
structure Begun (recital : Recital γ) (fresh : Sequencer Rat γ) (song : Composition Rat γ)
    (rate first : Nat) (role : Role) (begun : List (Occurrence γ)) : Prop where
  onsets : onsetsOf role recital.onsets =
    begun.map fun o => (fresh.noteOf song recital.watch.resumes role o).onset rate
  nodup : begun.Nodup
  sublist : ∃ cycles, begun.Sublist (song.timeline role cycles)
  mem_iff : ∀ cycles, ∀ o ∈ song.timeline role cycles,
    o ∈ begun ↔ song.timeOf o + halfSample rate < recital.watch.played ∧
      ¬ CutAt recital.watch.pauses rate (song.timeOf o)
  channel : recital.rig.sink.renderer.channels.get role =
    ((Channel.silent role).replay (rate : γ) recital.cuts
      (begun.map fun o => (fresh.noteOf song recital.watch.resumes role o).onset rate) first
      (recital.rig.sink.counter - first)).cutAt recital.cuts recital.rig.sink.counter

theorem Sounds.begun (h : recital.Sounds fresh song rate handed) {first : Nat}
    (hhears : recital.rig.sink.Hears (.ofRole Channel.silent) first recital.cuts recital.onsets)
    (hrate : 0 < rate) (htimed : song.WellTimed) (hloop : 0 < song.loopLength) (role : Role) :
    recital.Begun fresh song rate first role (song.begun rate recital.watch (handed role)) := by
  obtain ⟨cycles, hsublist⟩ := h.follows.handed_sublist role
  have hbegun : (song.begun rate recital.watch (handed role)).Sublist (song.timeline role cycles) :=
    (List.filter_sublist.trans List.filter_sublist).trans hsublist
  refine ⟨h.onsets role, hbegun.nodup (Composition.nodup_timeline cycles), ⟨cycles, hbegun⟩, ?_, ?_⟩
  · intro more o ho
    have hhalf := halfSample_pos hrate
    rw [Composition.mem_begun]
    constructor
    · exact fun hmem => hmem.2
    · intro hsounded
      have hpast : o ∈ song.past role recital.watch.played :=
        (htimed.mem_past hloop).mpr ⟨(Composition.mem_timeline.mp ho).2, by linarith⟩
      rw [← h.follows.filter_handed htimed hloop role] at hpast
      exact ⟨List.mem_of_mem_filter hpast, hsounded⟩
  · rw [hhears.channels role, PerRole.get_ofRole, h.onsets role, h.rate_eq]

/-- No channel has heard anything yet. -/
theorem hears_opened [Tuning Rat] {soundtrack : Soundtrack} {id : Nat} {texts : PerRole String}
    (hsong : soundtrack.song id = some texts) (lookahead : Rat) (volume : γ) (mix : PerRole γ)
    (rate speakers slots first : Nat) :
    (opened soundtrack id lookahead volume mix rate speakers slots first).rig.sink.Hears
      (.ofRole Channel.silent) first [] [] := by
  rw [sink_opened hsong]
  exact Output.hears_self _

end Recital

end Chiptune
