import Chiptune.Config.Document
import Chiptune.Proofs.RecordCodec

/-!
Settings from files.

A file may set any of the fields, in any order, and in its mix any of the gains.

Main statement: with a codec that reads and writes documents, the file in which settings are saved holds
these settings, and a file with some of their fields holds the initial settings with those fields and
those gains in place and no other.
-/
namespace Chiptune.PerRole

variable {α : Type}

theorem ext_get {first second : PerRole α} (h : ∀ role, first.get role = second.get role) :
    first = second := by
  cases first
  cases second
  simpa [get] using And.intro (h .lead) (And.intro (h .harmony) (And.intro (h .bass) (h .percussion)))

end Chiptune.PerRole

namespace Chiptune.Config

open Codec (NumberText ReadsBack ReadsDocuments WritesDocuments)
open Record (IsGap RecordText)

variable {γ : Type}

/-- Settings with some fields taken from others, and of the mix some of the gains. -/
def replace (base config : Config γ) (settings : List Setting) (roles : List Role) : Config γ where
  pollIntervalMs :=
    if .pollIntervalMs ∈ settings then config.pollIntervalMs else base.pollIntervalMs
  lookaheadMs := if .lookaheadMs ∈ settings then config.lookaheadMs else base.lookaheadMs
  masterVolume := if .masterVolume ∈ settings then config.masterVolume else base.masterVolume
  startStage := if .startStage ∈ settings then config.startStage else base.startStage
  mix := .ofRole fun role =>
    if .mix ∈ settings ∧ role ∈ roles then config.mix.get role else base.mix.get role
  ringCapacity := if .ringCapacity ∈ settings then config.ringCapacity else base.ringCapacity

/-- A field that is replaced is replaced as it is with all the fields. -/
theorem get_replace (base config : Config γ) (settings : List Setting) (roles : List Role)
    (setting : Setting) : (base.replace config settings roles).get setting =
      if setting ∈ settings then (base.replace config Setting.all roles).get setting
      else base.get setting := by
  have hall : setting ∈ Setting.all := by cases setting <;> decide
  cases setting with
  | mix =>
      refine PerRole.ext_get fun role => ?_
      by_cases hset : .mix ∈ settings <;> simp [replace, get, hset, hall]
  | _ =>
      simp only [replace, get, hall, if_true]
      rfl

/-- The numbers of some settings that need not be whole. -/
def levels (config : Config γ) : List γ := config.masterVolume :: config.mix.toList

theorem beq_self_of_levels [BEq γ] {config : Config γ}
    (h : ∀ level ∈ config.levels, (level == level) = true) : (config == config) = true := by
  obtain ⟨hvolume, hmix⟩ := List.forall_mem_cons.mp h
  have hgain (role : Role) : (config.mix.get role == config.mix.get role) = true :=
    hmix _ (PerRole.mem_toList.mpr ⟨role, rfl⟩)
  have hgains : (config.mix == config.mix) = true := by
    change instBEqPerRole.beq config.mix config.mix = true
    simp only [instBEqPerRole.beq, Bool.and_eq_true]
    exact ⟨hgain .lead, hgain .harmony, hgain .bass, hgain .percussion⟩
  change instBEqConfig.beq config config = true
  simp only [instBEqConfig.beq, beq_self_eq_true, Bool.true_and, Bool.and_true, Bool.and_eq_true]
  exact ⟨hvolume, hgains⟩

section

variable [Codec γ]

/-- How a field of some settings may be written with its value there; of the mix, some of the gains. -/
def Written (config : Config γ) (roles : List Role) : Setting → List Char → Prop
  | .pollIntervalMs => NumberText (.word64 : Schema γ UInt64) config.pollIntervalMs
  | .lookaheadMs => NumberText (.word64 : Schema γ UInt64) config.lookaheadMs
  | .masterVolume => NumberText .level config.masterVolume
  | .startStage => NumberText (.word32 : Schema γ UInt32) config.startStage
  | .mix => RecordText "Mix".toList (fun role => (gainName role).toList)
      (fun role => NumberText .level (config.mix.get role)) roles
  | .ringCapacity => NumberText (.word64 : Schema γ UInt64) config.ringCapacity

/-- How a document that sets some fields and some gains may be written: as a record, with gaps before
and after. -/
inductive DocumentText (config : Config γ) (settings : List Setting) (roles : List Role) :
    List Char → Prop
  | mk {before text after : List Char} :
      IsGap before →
      RecordText "SequencerConfig".toList (fun setting => setting.name.toList)
        (config.Written roles) settings text →
      IsGap after → DocumentText config settings roles (before ++ (text ++ after))

variable [OfScientific γ]

theorem Written.holds {config : Config γ} {roles : List Role} (hroles : roles.Nodup)
    {setting : Setting} {text : List Char} (h : config.Written roles setting text) :
    setting.schema.Holds ((initial.replace config Setting.all roles).get setting) text := by
  cases setting with
  | mix =>
      refine ⟨roles.map fun role => ⟨role, config.mix.get role⟩, ?_, ?_, ?_⟩
      · simpa [Function.comp_def] using hroles
      · refine Eq.trans ?_ (mixDeclaration.fill_map roles config.mix.get).symm
        have hall : Setting.mix ∈ Setting.all := by decide
        simp only [get, replace, hall, true_and]
        rfl
      · exact RecordText.map _ (fun _ => rfl) (fun _ _ => id) h
  | _ => exact h

theorem holds_document {config : Config γ} {settings : List Setting} {roles : List Role}
    (hsettings : settings.Nodup) (hroles : roles.Nodup) {text : List Char}
    (h : RecordText "SequencerConfig".toList (fun setting => setting.name.toList)
      (config.Written roles) settings text) :
    schema.Holds (initial.replace config settings roles) text := by
  refine ⟨settings.map fun setting =>
    ⟨setting, (initial.replace config Setting.all roles).get setting⟩, ?_, ?_, ?_⟩
  · simpa [Function.comp_def] using hsettings
  · rw [Declaration.fill_map, ← declaration.build_get (initial.replace config settings roles)]
    exact congrArg build (funext (get_replace initial config settings roles))
  · exact RecordText.map _ (fun _ => rfl) (fun _ _ => Written.holds hroles) h

theorem isName_name (setting : Setting) : Record.IsName setting.name := by
  cases setting <;> decide

theorem isName_gainName (role : Role) : Record.IsName (gainName role) := by
  cases role <;> decide

omit [Codec γ] in
theorem plain_schema : (schema : Schema γ (Config γ)).Plain Schema.mostNested := by
  have htitle : Record.IsName "SequencerConfig" := by decide
  have hmix : Record.IsName "Mix" := by decide
  refine ⟨htitle, isName_name, fun setting => ?_⟩
  cases setting with
  | mix => exact ⟨hmix, isName_gainName, fun _ => trivial⟩
  | _ => trivial

theorem allReadBack_schema {config : Config γ}
    (hwords64 : ∀ value, ReadsBack (.word64 : Schema γ UInt64) value)
    (hwords32 : ∀ value, ReadsBack (.word32 : Schema γ UInt32) value)
    (hlevels : ∀ level ∈ config.levels, ReadsBack .level level) : schema.AllReadBack config := by
  intro setting
  cases setting with
  | masterVolume => exact hlevels _ List.mem_cons_self
  | mix => exact fun role =>
      hlevels _ (List.mem_cons_of_mem _ (PerRole.mem_toList.mpr ⟨role, rfl⟩))
  | startStage => exact hwords32 _
  | _ => exact hwords64 _

theorem load_toUTF8 {text : String} {config : Config γ} (h : Codec.read schema text = some config) :
    Config.load (some (.bytes text.toUTF8)) = .ok config := by
  have hdecode : String.fromUTF8? text.toUTF8 = some text := by
    unfold String.fromUTF8?
    exact dif_pos text.isValidUTF8
  have htext : FileContent.text (.bytes text.toUTF8) = .ok text := by
    rw [FileContent.text, hdecode]
  simp only [Config.load, htext, bind, Except.bind, h]

/-- Settings whose numbers are equal to themselves are loaded from the file in which they are saved, if
the codec reads and writes documents and prints their numbers so that they are read back.  Any of the
fields of some settings, and any of their gains in the mix, written once each in any order, with any
blanks and comments between, replace those of the initial settings and nothing else. -/
theorem load_written [BEq γ] (hreads : ReadsDocuments γ) (hwrites : WritesDocuments γ)
    (hwords64 : ∀ value, ReadsBack (.word64 : Schema γ UInt64) value)
    (hwords32 : ∀ value, ReadsBack (.word32 : Schema γ UInt32) value) (config : Config γ)
    (hlevels : ∀ level ∈ config.levels, (level == level) = true → ReadsBack .level level) :
    ((∀ level ∈ config.levels, (level == level) = true) →
      Config.load (some config.save) = .ok config ∧ (config == config) = true) ∧
    ∀ (settings : List Setting) (roles : List Role) (text : String),
      settings.Nodup → roles.Nodup → config.DocumentText settings roles text.toList →
      Config.load (some (.bytes text.toUTF8)) = .ok (initial.replace config settings roles) := by
  constructor
  · intro hequal
    have hnumbers := allReadBack_schema hwords64 hwords32 fun level hlevel =>
      hlevels level hlevel (hequal level hlevel)
    exact ⟨load_toUTF8 (hreads.read_write hwrites plain_schema hnumbers), beq_self_of_levels hequal⟩
  · intro settings roles text hsettings hroles htext
    obtain ⟨before, record, after, hbefore, hrecord, hafter, heq⟩ :
        ∃ before record after, IsGap before ∧ schema.Holds (initial.replace config settings roles)
          record ∧ IsGap after ∧ text.toList = before ++ (record ++ after) := by
      generalize text.toList = characters at htext
      obtain ⟨hbefore, hrecord, hafter⟩ := htext
      exact ⟨_, _, _, hbefore, holds_document hsettings hroles hrecord, hafter, rfl⟩
    refine load_toUTF8 ?_
    rw [← String.ofList_toList (s := text), heq]
    exact hreads plain_schema hbefore hrecord hafter

end

deriving instance DecidableEq for Gain

/-- Settings with the largest whole numbers, an infinity, minus zero and the least and the greatest
level, and a document with a comment that takes two of the fields and one of the gains from them. -/
theorem load_written_extremes :
    let config : Config Gain :=
      { pollIntervalMs := 18446744073709551615, lookaheadMs := 150,
        masterVolume := .ofLevel (1.0 / 0.0), startStage := 4294967295,
        mix := ⟨.ofLevel (-0.0), 1e-45, 0.2, 3.4028235e38⟩, ringCapacity := 1 }
    let settings := [Setting.mix, .lookaheadMs]
    let text := "(mix: (bass: 0.2), // ms\n lookahead_ms: 150)"
    ReadsDocuments Gain ∧ WritesDocuments Gain ∧
      (∀ value, ReadsBack (.word64 : Schema Gain UInt64) value) ∧
      (∀ value, ReadsBack (.word32 : Schema Gain UInt32) value) ∧
      (∀ level ∈ config.levels, (level == level) = true ∧ ReadsBack .level level) ∧
      Config.load (some config.save) = .ok config ∧ (config == config) = true ∧
      settings.Nodup ∧ [Role.bass].Nodup ∧ config.DocumentText settings [.bass] text.toList ∧
      Config.load (some (.bytes text.toUTF8)) = .ok (initial.replace config settings [.bass]) := by
  intro config settings text
  have hlevels : ∀ level ∈ config.levels, (level == level) = true ∧ ReadsBack .level level := by
    have hread : ∀ level ∈ config.levels, (level == level) = true ∧
        Record.IsNumber (Numeral.text level).toList ∧
          (Numeral.ofLiteral <$> Record.literal .single : Record.Reader Gain).runAll
            (Numeral.text level).toList = some level := by decide +kernel
    exact fun level hlevel =>
      ⟨(hread level hlevel).1, Codec.numberText_level (hread level hlevel).2.1 (hread level hlevel).2.2⟩
  have hgap : IsGap [' '] := Record.isGap_singleton (by decide)
  have hcomment : IsGap " // ms\n ".toList :=
    @IsGap.line [' '] [' ', 'm', 's'] [' '] (by decide) (by decide) (.plain (by decide))
  have hmix : config.Written [.bass] .mix "(bass: 0.2)".toList := by
    have hvalue : NumberText .level config.mix.bass "0.2".toList :=
      Codec.numberText_level (by decide) (by decide +kernel)
    have htext : "(bass: 0.2)".toList =
        '(' :: ([] ++ "bass".toList ++ [] ++ ':' :: [' '] ++ "0.2".toList ++ []) ++ [')'] := by
      decide
    rw [htext]
    exact .bare (.last hvalue (.mk Record.isGap_nil Record.isGap_nil hgap Record.isGap_nil))
  have hlookahead : config.Written [.bass] .lookaheadMs "150".toList := by
    have hdigits : "150".toList = (Codec.write (.word64 : Schema Gain UInt64) 150).toList := by
      decide +kernel
    rw [hdigits]
    exact Codec.readsBack_word64 150
  have hdocument : config.DocumentText settings [.bass] text.toList := by
    have htext : text.toList = [] ++ ('(' ::
        ([] ++ "mix".toList ++ [] ++ ':' :: [' '] ++ "(bass: 0.2)".toList ++ [] ++
          ',' :: (" // ms\n ".toList ++ "lookahead_ms".toList ++ [] ++ ':' :: [' '] ++
            "150".toList ++ [])) ++ [')'] ++ []) := by decide
    rw [htext]
    exact .mk Record.isGap_nil (.bare (.cons hmix
      (.mk Record.isGap_nil Record.isGap_nil hgap Record.isGap_nil)
      (.last hlookahead (.mk hcomment Record.isGap_nil hgap Record.isGap_nil)))) Record.isGap_nil
  obtain ⟨hsaved, hchosen⟩ := load_written Codec.readsDocuments Codec.writesDocuments
    Codec.readsBack_word64 Codec.readsBack_word32 config fun level hlevel _ => (hlevels level hlevel).2
  obtain ⟨hload, hsame⟩ := hsaved fun level hlevel => (hlevels level hlevel).1
  exact ⟨Codec.readsDocuments, Codec.writesDocuments, Codec.readsBack_word64, Codec.readsBack_word32,
    hlevels, hload, hsame, by decide, by decide, hdocument,
    hchosen settings [.bass] text (by decide) (by decide) hdocument⟩

end Chiptune.Config
