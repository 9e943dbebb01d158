import Phrasebook.CommandLine.Run
import Phrasebook.Proofs.Settings.Overrides
namespace Phrasebook.CommandLine
open Settings

-- Which settings a run works with. A flag covers a variable, a variable covers what the
-- file has, and the file covers what is usual.

def readFields (depth : Nat) : Json.Reader Fields :=
  Json.readRecord depth ⟨none,none,none,none,none,none⟩ (readMember (depth - 1)) (readElements (depth - 1))

def Holds (place : Storage.Place) (fields : Fields) : Prop :=
  ∃ content text, place.bytes = .ok content ∧ Text.decodeUtf8 content = some text ∧
    Json.readAll (readFields Json.depthLimit) text = .ok fields

inductive Filed (look : String → Storage.Place) : Option String → Fields → Prop where
  | nowhere : Filed look none ⟨none,none,none,none,none,none⟩
  | file (holds : Holds (look path) fields) : Filed look (some path) fields

inductive Named (reads : String → α → Prop) : Option String → Option α → Prop where
  | unset : Named reads none none
  | set (read : reads text value) : Named reads (some text) (some value)

structure Chosen (invocation : Invocation) (environment : String → Option String) (fields : Fields)
    (settings : Settings) : Prop where
  directory : settings.directory =
    ((invocation.directory.or (environment directoryVariable)).or (fields.directory.getD none))
  format : ∃ named, Named FormatText (environment formatVariable) named ∧
    settings.format = ((invocation.format.or named).or fields.format).getD .properties
  defaultLocale : settings.defaultLocale =
    ((invocation.defaultLocale.or (environment defaultLocaleVariable)).or fields.defaultLocale).getD "en"
  includePhraseTag : ∃ named, Named FlagText (environment includePhraseTagVariable) named ∧
    settings.includePhraseTag = (named.or fields.includePhraseTag).getD true
  fallback : ∃ named, Named FlagText (environment fallbackVariable) named ∧
    settings.fallbackToDefault = (named.or fields.fallbackToDefault).getD false
  maxDepth : ∃ named, Named DepthText (environment maxDepthVariable) named ∧
    settings.maxDepth = (named.or fields.maxDepth).getD 16

theorem takes_named {reads : String → α → Prop} {before after : α} :
    Takes reads value before after ↔ ∃ named, Named reads value named ∧ after = named.getD before := by
  constructor
  · intro takes
    cases takes with
    | kept => exact ⟨none,.unset,rfl⟩
    | taken read => exact ⟨_,.set read,rfl⟩
  · intro chosen
    obtain ⟨_,named,rfl⟩ := chosen
    cases named with
    | unset => exact .kept
    | set read => exact .taken read

theorem getD_layers (upper lower : Option α) (usual : α) : upper.getD (lower.getD usual) = (upper.or lower).getD usual := by
  cases upper <;> rfl

theorem read_fields (text : String) : ofJson text =
    (Json.readAll (readFields Json.depthLimit) text).map Fields.settings := by
  unfold ofJson Json.readAll Settings.read
  change (readFields Json.depthLimit text.toList >>= _) >>= _ = _
  cases readFields Json.depthLimit text.toList with
  | error fault => rfl
  | ok pair =>
    simp only [bind,Except.bind]
    split <;> rfl

theorem place_fields (path : String) (place : Storage.Place) :
    ofPlace path place = .ok settings ↔ ∃ fields, Holds place fields ∧ fields.settings = settings := by
  unfold ofPlace
  constructor
  · intro read
    split at read
    · cases read
    · rename_i content opened
      split at read
      · cases read
      · rename_i text decoded
        split at read
        · rename_i settings parsed
          cases read
          rw [read_fields] at parsed
          obtain ⟨fields,found,rfl⟩ := Outcome.map_ok_iff.mp parsed
          exact ⟨fields,⟨content,text,opened,decoded,found⟩,rfl⟩
        · cases read
  · intro held
    obtain ⟨fields,⟨content,text,opened,decoded,found⟩,rfl⟩ := held
    simp only [opened,decoded,read_fields,found,Except.map]

def fileSettings (look : String → Storage.Place) : Option String → Except Fault Settings
  | none => .ok standard
  | some path => (ofPlace path (look path)).mapError .settings

def Invocation.cover (invocation : Invocation) (settings : Settings) : Settings :=
  { settings with
    directory := invocation.directory.or settings.directory
    format := invocation.format.getD settings.format
    defaultLocale := invocation.defaultLocale.getD settings.defaultLocale }

theorem settings_steps (invocation : Invocation) (look : String → Storage.Place)
    (environment : String → Option String) : invocation.settings look environment =
      fileSettings look invocation.config >>= fun file =>
        (file.withVariables environment).mapError Fault.settings >>= fun settings =>
          .ok (invocation.cover settings) := by
  unfold Invocation.settings
  cases invocation.config <;> rfl

theorem filed_iff : fileSettings look config = .ok settings ↔
    ∃ fields, Filed look config fields ∧ fields.settings = settings := by
  cases config with
  | none =>
    constructor
    · intro usual
      cases usual
      exact ⟨_,.nowhere,rfl⟩
    · intro filed
      obtain ⟨_,filed,rfl⟩ := filed
      cases filed
      rfl
  | some path =>
    rw [fileSettings,Outcome.mapError_ok_iff,place_fields]
    constructor
    · intro held
      obtain ⟨fields,holds,same⟩ := held
      exact ⟨fields,.file holds,same⟩
    · intro filed
      obtain ⟨fields,filed,same⟩ := filed
      cases filed with
      | file holds => exact ⟨fields,holds,same⟩

theorem chosen_iff {invocation : Invocation} {fields : Fields} : Chosen invocation environment fields settings ↔
    ∃ covered, Overridden environment fields.settings covered ∧ invocation.cover covered = settings := by
  constructor
  · intro chosen
    obtain ⟨directory,⟨format,named,formatted⟩,locale,⟨phrases,phrased,included⟩,⟨fallback,flagged,fallen⟩,
      depth,deep,limited⟩ := chosen
    obtain ⟨ownLocale,ownPhrases,ownFallback,ownDepth,ownDirectory,ownFormat⟩ := settings
    simp only [Option.or_assoc,← getD_layers] at directory formatted locale included fallen limited
    refine ⟨⟨_,ownPhrases,ownFallback,ownDepth,_,_⟩,⟨takes_named.mpr ⟨format,named,rfl⟩,
      takes_named.mpr ⟨phrases,phrased,included⟩,takes_named.mpr ⟨fallback,flagged,fallen⟩,
      takes_named.mpr ⟨depth,deep,limited⟩,rfl,rfl⟩,?_⟩
    rw [directory,formatted,locale]
    rfl
  · intro covers
    obtain ⟨covered,⟨takesFormat,takesPhrases,takesFallback,takesDepth,locale,directory⟩,rfl⟩ := covers
    obtain ⟨format,named,formatted⟩ := takes_named.mp takesFormat
    obtain ⟨phrases,phrased,included⟩ := takes_named.mp takesPhrases
    obtain ⟨fallback,flagged,fallen⟩ := takes_named.mp takesFallback
    obtain ⟨depth,deep,limited⟩ := takes_named.mp takesDepth
    refine ⟨?_,⟨format,named,?_⟩,?_,⟨phrases,phrased,?_⟩,⟨fallback,flagged,?_⟩,⟨depth,deep,?_⟩⟩
    · change invocation.directory.or covered.directory = _
      rw [directory,Option.or_assoc]
      rfl
    · change invocation.format.getD covered.format = _
      rw [formatted,Option.or_assoc,← getD_layers,← getD_layers]
      rfl
    · change invocation.defaultLocale.getD covered.defaultLocale = _
      rw [locale,Option.or_assoc,← getD_layers,← getD_layers]
      rfl
    · change covered.includePhraseTag = _
      rw [included,← getD_layers]
      rfl
    · change covered.fallbackToDefault = _
      rw [fallen,← getD_layers]
      rfl
    · change covered.maxDepth = _
      rw [limited,← getD_layers]
      rfl

theorem settings_iff {invocation : Invocation} : invocation.settings look environment = .ok settings ↔
    ∃ fields, Filed look invocation.config fields ∧ Chosen invocation environment fields settings := by
  simp only [settings_steps,Outcome.bind_ok_iff,filed_iff,Outcome.mapError_ok_iff,overridden_iff,chosen_iff,
    Except.ok.injEq]
  constructor
  · intro ran
    obtain ⟨_,⟨fields,filed,rfl⟩,covered,overridden,same⟩ := ran
    exact ⟨fields,filed,covered,overridden,same⟩
  · intro chosen
    obtain ⟨fields,filed,covered,overridden,same⟩ := chosen
    exact ⟨_,⟨fields,filed,rfl⟩,covered,overridden,same⟩

structure Uses (settings : Settings) (renderer : Renderer) : Prop where
  defaultLocale : renderer.defaultLocale = Locale.ofString settings.defaultLocale
  source : renderer.store.source = match settings.directory with
    | none => .empty
    | some path => .directory settings.format path

theorem prepare_uses {settings : Settings} {renderer : Renderer} (prepared : prepare settings look = .ok renderer) :
    Uses settings renderer := by
  unfold prepare at prepared
  obtain ⟨fresh,checked,loaded⟩ := Outcome.bind_ok_iff.mp prepared
  rw [Outcome.mapError_ok_iff,Settings.renderer,Renderer.check] at checked
  split at checked
  · cases checked
  · cases checked
    have source : (Storage.Store.ofSource settings.source).source = match settings.directory with
        | none => .empty
        | some path => .directory settings.format path := rfl
    split at loaded
    · cases loaded
      exact ⟨rfl,source⟩
    · split at loaded
      · rename_i store reloaded
        cases loaded
        refine ⟨rfl,?_⟩
        rw [← source]
        unfold Storage.Store.reload at reloaded
        split at reloaded
        · cases reloaded
          rfl
        · cases reloaded
      · cases loaded

theorem adjust_uses {settings : Settings} {renderer : Renderer} (request : Request)
    (uses : Uses (request.adjust settings) renderer) :
    Uses settings renderer := by
  cases request <;> exact ⟨uses.defaultLocale,uses.source⟩

def Output.ofAnswer : Except Fault String → Output
  | .ok text => ⟨0,text,""⟩
  | .error fault => ⟨1,"",fault.report⟩

theorem run_answers {invocation : Invocation} {renderer : Renderer} (read : readInvocation arguments = .ok invocation)
    (set : invocation.settings look environment = .ok settings)
    (prepared : prepare (invocation.request.adjust settings) look = .ok renderer) :
    run look environment arguments = .ofAnswer (answer renderer invocation.request) := by
  have executed : execute invocation look environment = answer renderer invocation.request := by
    simp only [execute,set,prepared,bind,Except.bind]
  simp only [run,read,executed]
  cases answer renderer invocation.request <;> rfl

-- Two layers of variables are one, in which the upper covers the lower; a layer is refused
-- for its first variable that cannot be read. Above them are the flags, below them is the
-- file, and it is with what comes out of these that a run works.
theorem layers_compose :
    (∀ (settings middle last : Settings) lower upper, settings.withVariables lower = .ok middle →
      middle.withVariables upper = .ok last →
        settings.withVariables (fun name => (upper name).or (lower name)) = .ok last) ∧
    (∀ (settings : Settings) lookup,
      (settings.withVariables lookup >>= fun once => once.withVariables lookup) = settings.withVariables lookup ∧
      (∀ fault, settings.withVariables lookup = .error fault ↔ Refuses lookup readable fault) ∧
      ((∃ fault, settings.withVariables lookup = .error fault) ↔
        ∃ check ∈ readable, ∃ text, lookup check.1 = some text ∧ ¬check.2 text)) ∧
    ∀ look environment arguments invocation, readInvocation arguments = .ok invocation →
      (∀ settings, invocation.settings look environment = .ok settings ↔
        ∃ fields, Filed look invocation.config fields ∧ Chosen invocation environment fields settings) ∧
      ∀ settings (renderer : Renderer), invocation.settings look environment = .ok settings →
        prepare (invocation.request.adjust settings) look = .ok renderer →
          Uses settings renderer ∧
            run look environment arguments = .ofAnswer (answer renderer invocation.request) := by
  refine ⟨?_,?_,?_⟩
  · intro settings middle last lower upper first second
    exact overridden_iff.mpr (overridden_layers (overridden_iff.mp first) (overridden_iff.mp second))
  · intro settings lookup
    refine ⟨withVariables_twice settings lookup,fun fault => refuses_iff,?_⟩
    rw [← refuses_some]
    exact exists_congr fun fault => refuses_iff
  · intro look environment arguments invocation read
    refine ⟨fun settings => settings_iff,?_⟩
    intro settings renderer set prepared
    exact ⟨adjust_uses _ (prepare_uses prepared),run_answers read set prepared⟩

def flagged : List String := ["-c","c.json","lookup","k","--dir","lang"]

def exported : String → Option String
  | "MINIPHRASE_DEFAULT_LOCALE" => some "FR"
  | _ => none

def places : String → Storage.Place
  | "c.json" => .file "\x7b\"default_locale\":\"de\",\"format\":\"json\",\"translations\":\"old\"\x7d".toUTF8
  | "lang" => .directory []
  | _ => .absent

def lowerLayer : String → Option String
  | "MINIPHRASE_FORMAT" => some " JSON"
  | "MINIPHRASE_MAX_DEPTH" => some "+7 "
  | _ => none

def upperLayer : String → Option String
  | "MINIPHRASE_FORMAT" => some "Properties"
  | "MINIPHRASE_TRANSLATIONS" => some "lang"
  | _ => none

def request : Invocation := ⟨some "c.json",some "lang",none,none,.lookup "k" none⟩

def prepared : Renderer := ⟨⟨.directory .json "lang",1,.empty⟩,⟨16⟩,⟨"fr"⟩,true,false⟩

theorem layers_compose_flagged :
    standard.withVariables lowerLayer = .ok { standard with format := .json, maxDepth := 7 } ∧
    { standard with format := .json, maxDepth := 7 }.withVariables upperLayer =
      .ok { standard with maxDepth := 7, directory := some "lang" } ∧
    standard.withVariables (fun name => (upperLayer name).or (lowerLayer name)) =
      .ok { standard with maxDepth := 7, directory := some "lang" } ∧
    readInvocation flagged = .ok request ∧
    request.settings places exported = .ok ⟨"FR",true,false,16,some "lang",.json⟩ ∧
    prepare ⟨"FR",true,false,16,some "lang",.json⟩ places = .ok prepared ∧
    Uses ⟨"FR",true,false,16,some "lang",.json⟩ prepared ∧
    run places exported flagged = ⟨1,"",(Fault.missingMessage "k" ⟨"fr"⟩).report⟩ := by
  have first : standard.withVariables lowerLayer = .ok { standard with format := .json, maxDepth := 7 } := by
    decide +kernel
  have second : { standard with format := .json, maxDepth := 7 }.withVariables upperLayer =
      .ok { standard with maxDepth := 7, directory := some "lang" } := by
    decide +kernel
  have read : readInvocation flagged = .ok request := by decide +kernel
  have set : request.settings places exported = .ok ⟨"FR",true,false,16,some "lang",.json⟩ := rfl
  have ready : prepare ⟨"FR",true,false,16,some "lang",.json⟩ places = .ok prepared := rfl
  obtain ⟨compose,_,runs⟩ := layers_compose
  obtain ⟨uses,answers⟩ := (runs _ _ _ _ read).2 _ _ set ready
  exact ⟨first,second,compose _ _ _ _ _ first second,read,set,ready,uses,answers⟩

end Phrasebook.CommandLine
