import Chiptune.Proofs.Concatenation
import Chiptune.Proofs.ExtendedTime
import Chiptune.Proofs.Meaning

/-!
Rhythm without pitch.

Two texts may differ in which note, which accidental, which move of the octave and which drum stands
at a place.  They are then read in step: their tokens are cut at the same places and give the same
numbers, and their settings agree in all but the octave.

Main statement: the events of two such texts begin at the same times, last as long and are as loud,
one by one.
-/
namespace Chiptune

/-- Events at the same time, for as long and as loud, whatever they sound. -/
structure NoteEvent.Together {τ γ : Type} (event other : NoteEvent τ γ) : Prop where
  start : event.start = other.start
  duration : event.duration = other.duration
  volume : event.volume = other.volume

namespace Notation

def noteLetters : List Char := ['a', 'b', 'c', 'd', 'e', 'f', 'g']

def accidentals : List Char := ['#', '+', '-']

/-- Characters that stand for one another: note letters, accidentals, moves of the octave, drums. -/
def exchanges : List (List Char) := [noteLetters, accidentals, ['>', '<'], ['k', 's']]

/-- A character, and itself or another one that stands for it. -/
def Exchanged (c d : Char) : Prop :=
  c = d ∨ ∃ group ∈ exchanges, c ∈ group ∧ d ∈ group

instance (c d : Char) : Decidable (Exchanged c d) :=
  inferInstanceAs (Decidable (_ ∨ _))

/-- Texts of one length that differ by capitals and exchanged characters at most. -/
def SameRhythm (text other : String) : Prop :=
  List.Forall₂ (fun c d => Exchanged c.toLower d.toLower) text.toList other.toList

instance (text other : String) : Decidable (SameRhythm text other) :=
  inferInstanceAs (Decidable (List.Forall₂ _ _ _))

namespace Exchanged

variable {c d : Char}

/-- Where no group is divided, exchanged characters are on one side. -/
theorem congr (h : Exchanged c d) {side : Char → Bool}
    (hgroups : exchanges.all fun group => group.all fun c => group.all fun d => side c = side d) :
    side c = side d := by
  rcases h with rfl | ⟨group, hgroup, hc, hd⟩
  · rfl
  · simp only [List.all_eq_true, decide_eq_true_eq] at hgroups
    exact hgroups group hgroup c hc d hd

theorem isBlank_eq (h : Exchanged c d) : isBlank c = isBlank d :=
  h.congr (by decide)

theorem isDigit_eq (h : Exchanged c d) : c.isDigit = d.isDigit :=
  h.congr (by decide)

/-- No digit stands for another one. -/
theorem eq_of_isDigit (h : Exchanged c d) (hdigit : c.isDigit = true) : c = d := by
  have hgroups : exchanges.all fun group => group.all fun c => !c.isDigit := by decide
  rcases h with rfl | ⟨group, hgroup, hc, -⟩
  · rfl
  · have hnone := List.all_eq_true.mp (List.all_eq_true.mp hgroups group hgroup) c hc
    rw [hdigit] at hnone
    exact absurd hnone Bool.false_ne_true

end Exchanged

theorem isBlank_toLower (c : Char) : isBlank c.toLower = isBlank c := by
  rcases toLower_eq_or_mem_capitals c with hlower | hcapital
  · rw [hlower]
  · have hcapitals : capitals.all fun c => isBlank c.toLower = isBlank c := by decide
    exact of_decide_eq_true (List.all_eq_true.mp hcapitals c hcapital)

/-- Blanks stand at the same places, and the other characters are exchanged in lower case. -/
theorem SameRhythm.significant {text other : String} (h : SameRhythm text other) :
    List.Forall₂ Exchanged (significant text.toList) (significant other.toList) := by
  have hblank (c d : Char) (hexchanged : Exchanged c.toLower d.toLower) :
      (!isBlank c) = true ↔ (!isBlank d) = true := by
    rw [← isBlank_toLower c, hexchanged.isBlank_eq, isBlank_toLower]
  unfold Notation.significant
  rw [List.forall₂_map_left_iff, List.forall₂_map_right_iff]
  exact List.rel_filter hblank h

/-- Tokens that differ in what they sound at most. -/
inductive Token.InStep : Token → Token → Prop
  | same (token : Token) : InStep token token
  | note {letter other : Char} (hletter : isNoteLetter letter = true)
      (hother : isNoteLetter other = true) (shift shift' : Int) (length : Option Nat) :
      InStep (.note letter shift length) (.note other shift' length)
  | drum (drum other : Drum) (length : Option Nat) : InStep (.drum drum length) (.drum other length)
  | upDown : InStep .octaveUp .octaveDown
  | downUp : InStep .octaveDown .octaveUp
  | other (c d : Char) : InStep (.other c) (.other d)

theorem isNoteLetter_of_mem {c : Char} (h : c ∈ noteLetters) : isNoteLetter c = true := by
  have hletters : noteLetters.all isNoteLetter := by decide
  exact List.all_eq_true.mp hletters c h

theorem nextToken_of_mem_accidentals {c : Char} (h : c ∈ accidentals) (rest : List Char) :
    nextToken c rest = (.other c, rest) := by
  simp only [accidentals, List.mem_cons, List.not_mem_nil, or_false] at h
  rcases h with rfl | rfl | rfl <;> rfl

theorem takeAccidental_cons_snd (c : Char) (rest : List Char) :
    (takeAccidental (c :: rest)).2 = if accidentals.contains c then rest else c :: rest := by
  unfold takeAccidental
  split <;> simp_all [accidentals]

section

variable {text other : List Char} (h : List.Forall₂ Exchanged text other)
include h

theorem takeNumber_inStep : (takeNumber text).1 = (takeNumber other).1 ∧
    List.Forall₂ Exchanged (takeNumber text).2 (takeNumber other).2 := by
  have hdigits : text.takeWhile Char.isDigit = other.takeWhile Char.isDigit ∧
      List.Forall₂ Exchanged (text.dropWhile Char.isDigit) (other.dropWhile Char.isDigit) := by
    induction h with
    | nil => exact ⟨rfl, .nil⟩
    | @cons c d _ _ hexchanged hrest ih =>
        cases hdigit : c.isDigit with
        | true =>
            obtain rfl := hexchanged.eq_of_isDigit hdigit
            simpa [hdigit] using ih
        | false =>
            have hother : d.isDigit = false := hexchanged.isDigit_eq.symm.trans hdigit
            simpa [hdigit, hother] using ⟨hexchanged, hrest⟩
  rw [takeNumber_eq, takeNumber_eq]
  exact ⟨congrArg number? hdigits.1, hdigits.2⟩

theorem takeAccidental_inStep :
    List.Forall₂ Exchanged (takeAccidental text).2 (takeAccidental other).2 := by
  cases h with
  | nil => exact .nil
  | @cons c d _ _ hexchanged hrest =>
      have haccidental : accidentals.contains c = accidentals.contains d :=
        hexchanged.congr (by decide)
      rw [takeAccidental_cons_snd, takeAccidental_cons_snd, haccidental]
      split
      · exact hrest
      · exact .cons hexchanged hrest

theorem numbered_inStep {make make' : Option Nat → Token}
    (hmake : ∀ number, (make number).InStep (make' number)) :
    (numbered make text).1.InStep (numbered make' other).1 ∧
      List.Forall₂ Exchanged (numbered make text).2 (numbered make' other).2 := by
  obtain ⟨hnumber, hrest⟩ := takeNumber_inStep h
  refine ⟨?_, hrest⟩
  have hsame := hmake (takeNumber text).1
  nth_rewrite 2 [hnumber] at hsame
  exact hsame

theorem nextToken_note_inStep {c d : Char} (hc : isNoteLetter c = true)
    (hd : isNoteLetter d = true) :
    (nextToken c text).1.InStep (nextToken d other).1 ∧
      List.Forall₂ Exchanged (nextToken c text).2 (nextToken d other).2 := by
  rw [nextToken_of_letter hc, nextToken_of_letter hd]
  exact numbered_inStep (takeAccidental_inStep h) fun length => .note hc hd _ _ length

theorem nextToken_inStep {c d : Char} (hexchanged : Exchanged c d) :
    (nextToken c text).1.InStep (nextToken d other).1 ∧
      List.Forall₂ Exchanged (nextToken c text).2 (nextToken d other).2 := by
  rcases hexchanged with rfl | ⟨group, hgroup, hc, hd⟩
  · rcases nextToken_cases c with ⟨hletter, -⟩ | ⟨make, -, hnext⟩ | ⟨token, -, hnext⟩
    · exact nextToken_note_inStep h hletter hletter
    · rw [hnext, hnext]
      exact numbered_inStep h fun number => .same (make number)
    · rw [hnext, hnext]
      exact ⟨.same token, h⟩
  · simp only [exchanges, List.mem_cons, List.not_mem_nil, or_false] at hgroup
    rcases hgroup with rfl | rfl | rfl | rfl
    · exact nextToken_note_inStep h (isNoteLetter_of_mem hc) (isNoteLetter_of_mem hd)
    · -- Accidentals that no note took are tokens of their own.
      rw [nextToken_of_mem_accidentals hc, nextToken_of_mem_accidentals hd]
      exact ⟨.other c d, h⟩
    · simp only [List.mem_cons, List.not_mem_nil, or_false] at hc hd
      rcases hc with rfl | rfl <;> rcases hd with rfl | rfl
      · exact ⟨.same .octaveUp, h⟩
      · exact ⟨.upDown, h⟩
      · exact ⟨.downUp, h⟩
      · exact ⟨.same .octaveDown, h⟩
    · simp only [List.mem_cons, List.not_mem_nil, or_false] at hc hd
      rcases hc with rfl | rfl <;> rcases hd with rfl | rfl
      · exact numbered_inStep h (.drum .kick .kick)
      · exact numbered_inStep h (.drum .kick .snare)
      · exact numbered_inStep h (.drum .snare .kick)
      · exact numbered_inStep h (.drum .snare .snare)

theorem tokensOf_inStep : List.Forall₂ Token.InStep (tokensOf text) (tokensOf other) := by
  induction text using tokensOf.induct generalizing other with
  | case1 =>
      cases h
      simp [tokensOf]
  | case2 c rest ih =>
      cases h with
      | cons hexchanged hrest =>
          obtain ⟨hfirst, hlater⟩ := nextToken_inStep hrest hexchanged
          rw [tokensOf, tokensOf]
          exact .cons hfirst (ih hlater)

end

namespace Settings

/-- Settings that differ in the octave at most. -/
structure InStep {τ : Type} (settings other : Settings τ) : Prop where
  tempo : settings.tempo = other.tempo
  length : settings.length = other.length
  time : settings.time = other.time

/-- Tokens in step both sound or are both silent, each in any octave. -/
theorem isSome_voiceOf {τ : Type} [Tuning τ] {token token' : Token} (h : token.InStep token')
    (octave octave' : Int) :
    (voiceOf? octave token : Option (Voice τ)).isSome =
      (voiceOf? octave' token' : Option (Voice τ)).isSome := by
  cases h with
  | same token =>
      cases token with
      | note letter shift length => simp [voiceOf?, noteFrequency?]
      | drum drum length => cases drum <;> rfl
      | _ => rfl
  | note hletter hother shift shift' length =>
      obtain ⟨step, hstep, -, -⟩ := semitone_of_isNoteLetter hletter
      obtain ⟨step', hstep', -, -⟩ := semitone_of_isNoteLetter hother
      simp [voiceOf?, noteFrequency?, hstep, hstep']
  | drum drum other length => cases drum <;> cases other <;> rfl
  | upDown => rfl
  | downUp => rfl
  | other c d => rfl

variable {τ γ : Type} [Scalar τ] [Scalar γ] {settings other : Settings τ}

/-- Whatever sounds, it sounds for as long. -/
theorem InStep.sound (h : settings.InStep other) {voice voice' : Option (Voice τ)}
    (hvoice : voice.isSome = voice'.isSome) (length : Option Nat) :
    List.Forall₂ NoteEvent.Together (settings.sound (γ := γ) voice length).1
        (other.sound (γ := γ) voice' length).1 ∧
      (settings.sound (γ := γ) voice length).2.InStep (other.sound (γ := γ) voice' length).2 := by
  have hduration : settings.duration (length.map Nat.cast) =
      other.duration (length.map Nat.cast) := by
    rw [duration, duration, h.tempo, h.length]
  constructor
  · cases voice with
    | none =>
        cases voice' with
        | none => exact .nil
        | some voice' => exact absurd hvoice Bool.false_ne_true
    | some voice =>
        cases voice' with
        | none => exact absurd hvoice.symm Bool.false_ne_true
        | some voice' => exact .cons ⟨h.time, hduration, rfl⟩ .nil
  · exact ⟨h.tempo, h.length, congrArg₂ (· + ·) h.time hduration⟩

variable [Tuning τ]

theorem InStep.step (h : settings.InStep other) {token token' : Token}
    (htoken : token.InStep token') :
    List.Forall₂ NoteEvent.Together (settings.step (γ := γ) token).1
        (other.step (γ := γ) token').1 ∧
      (settings.step (γ := γ) token).2.InStep (other.step (γ := γ) token').2 := by
  -- The octaves need not agree: they decide which tone sounds, but not whether one does.
  have hvoice := isSome_voiceOf (τ := τ) htoken settings.octave other.octave
  cases htoken with
  | same token =>
      cases token with
      | note letter shift length => exact h.sound hvoice length
      | drum drum length => exact h.sound hvoice length
      | rest length => exact h.sound hvoice length
      | tempo value =>
          cases value with
          | none => exact ⟨.nil, h⟩
          | some value => exact ⟨.nil, rfl, h.length, h.time⟩
      | octave value =>
          cases value with
          | none => exact ⟨.nil, h⟩
          | some value => exact ⟨.nil, h.tempo, h.length, h.time⟩
      | length value =>
          cases value with
          | none => exact ⟨.nil, h⟩
          | some value => exact ⟨.nil, h.tempo, rfl, h.time⟩
      | octaveUp => exact ⟨.nil, h.tempo, h.length, h.time⟩
      | octaveDown => exact ⟨.nil, h.tempo, h.length, h.time⟩
      | other c => exact ⟨.nil, h⟩
  | note _ _ shift shift' length => exact h.sound hvoice length
  | drum drum other length => exact h.sound hvoice length
  | upDown => exact ⟨.nil, h.tempo, h.length, h.time⟩
  | downUp => exact ⟨.nil, h.tempo, h.length, h.time⟩
  | other c d => exact ⟨.nil, h⟩

theorem InStep.run (h : settings.InStep other) {tokens tokens' : List Token}
    (htokens : List.Forall₂ Token.InStep tokens tokens') :
    List.Forall₂ NoteEvent.Together (settings.run (γ := γ) tokens).1
        (other.run (γ := γ) tokens').1 ∧
      (settings.run (γ := γ) tokens).2.InStep (other.run (γ := γ) tokens').2 := by
  induction htokens generalizing settings other with
  | nil => exact ⟨.nil, h⟩
  | cons htoken _ ih =>
      obtain ⟨hfirst, hsettings⟩ := h.step (γ := γ) htoken
      obtain ⟨hlater, hleft⟩ := ih hsettings
      exact ⟨List.rel_append hfirst hlater, hleft⟩

end Settings

/-- Rhythm does not depend on pitch.  Two texts of one length have the same characters at each place,
but for capitals and for exchanges of note letters, of accidentals, of moves of the octave and of
drums.  They have the same number of events, and at each place events that begin at the same time,
last as long and are as loud. -/
theorem compile_together {τ γ : Type} [Scalar τ] [Scalar γ] [Tuning τ] {text other : String}
    (h : SameRhythm text other) :
    List.Forall₂ NoteEvent.Together (compile text : List (NoteEvent τ γ)) (compile other) := by
  have htokens : List.Forall₂ Token.InStep (tokens text) (tokens other) :=
    tokensOf_inStep h.significant
  have hinitial : (Settings.initial : Settings τ).InStep Settings.initial := ⟨rfl, rfl, rfl⟩
  exact (hinitial.run htokens).1

open Octaves in
/-- An accidental belongs to the first note, and the next one to no note at all.  The octaves part
where one text goes up and the other one down. -/
theorem compile_together_apart_in_octave :
    let text := "t240 C#8 > K -r e16"
    let other := "T240 f-8 < s +r B16"
    let events : List (NoteEvent Extended Rat) := compile text
    let others : List (NoteEvent Extended Rat) := compile other
    SameRhythm text other ∧ List.Forall₂ NoteEvent.Together events others ∧
      others.map NoteEvent.start = [.finite 0, .finite (1 / 8), .finite (5 / 8)] := by
  intro text other events others
  have hsame : SameRhythm text other := by decide +kernel
  exact ⟨hsame, compile_together hsame, by decide +kernel⟩

end Notation

end Chiptune
