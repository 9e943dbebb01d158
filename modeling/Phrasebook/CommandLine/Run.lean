import Phrasebook.CommandLine.Help
import Phrasebook.CommandLine.Invocation
import Phrasebook.Json.Value
import Phrasebook.RichText.NodeJson
import Phrasebook.Settings.File
namespace Phrasebook.CommandLine

-- One run of the program, as a function of its arguments, the files it looks at
-- and its environment.

inductive Fault where
  | settings (fault : Settings.Fault)
  | tags (fault : Tags.BuildFault)
  | load (fault : Storage.Fault)
  | placeholder (text : String)
  | render (fault : RenderFault)
  | missingMessage (key : String) (locale : Locale)

def Fault.message : Fault → String
  | .settings fault => fault.message
  | .tags fault => fault.message
  | .load _ => "Failed to load translations"
  | .placeholder text => "Placeholder '" ++ text ++ "' must be written as name=value"
  | .render fault => fault.message
  | .missingMessage key locale => "No translation for '" ++ key ++ "' in " ++ locale.text

def Fault.causes : Fault → List String
  | .settings fault => fault.cause.toList
  | .load fault => fault.message :: fault.cause.toList
  | _ => []

def indent (width : Nat) (text : String) : String :=
  ("\n" ++ String.ofList (List.replicate width ' ')).intercalate (lines text)

def causeLines : List String → String
  | [] => ""
  | [cause] => "\nCaused by:\n    " ++ indent 4 cause ++ "\n"
  | causes => "\nCaused by:\n" ++ String.join (causes.zipIdx.map fun (cause,index) =>
      "    " ++ toString index ++ ": " ++ indent 7 cause ++ "\n")

def Fault.report (fault : Fault) : String :=
  "Error: " ++ fault.message ++ "\n" ++ causeLines fault.causes

structure Output where
  exit : Nat
  stdout : String
  stderr : String
  deriving DecidableEq, Repr

-- A flag counts before a variable, a variable before the file.
def Invocation.settings (invocation : Invocation) (look : String → Storage.Place)
    (environment : String → Option String) : Except Fault Settings := do
  let file ← match invocation.config with
    | none => .ok Settings.standard
    | some path => (Settings.ofPlace path (look path)).mapError .settings
  let settings ← (file.withVariables environment).mapError .settings
  .ok { settings with
    directory := invocation.directory.or settings.directory
    format := invocation.format.getD settings.format
    defaultLocale := invocation.defaultLocale.getD settings.defaultLocale }

def Request.adjust (settings : Settings) : Request → Settings
  | .render _ _ _ _ noPhrase fallback _ _ => { settings with
      includePhraseTag := settings.includePhraseTag && !noPhrase
      fallbackToDefault := settings.fallbackToDefault || fallback }
  | _ => settings

def prepare (settings : Settings) (look : String → Storage.Place) : Except Fault Renderer := do
  let renderer ← settings.renderer.mapError .tags
  match settings.directory with
  | none => .ok renderer
  | some _ => match renderer.store.reload look with
    | (.ok (),store) => .ok { renderer with store }
    | (.error fault,_) => .error (.load fault)

def placeholder (text : String) : Except Fault (String × String) :=
  match splitAssignment text.toList with
  | (name,some value) => .ok (String.ofList (Text.trim name.toList),value)
  | (_,none) => .error (.placeholder text)

def linesOf (texts : List String) : String := String.join (texts.map (· ++ "\n"))

def showNode (json : Bool) (node : RichText.Node) : String :=
  if json then node.toJson.pretty else node.plainText

def answer (renderer : Renderer) : Request → Except Fault String
  | .render key locale unparsed parsed _ _ lines json => do
    let unparsed ← unparsed.mapM placeholder
    let parsed ← parsed.mapM placeholder
    let configure (tags : Tags.Builder) :=
      parsed.foldl (fun tags pair => tags.parsed pair.1 pair.2)
        (unparsed.foldl (fun tags pair => tags.unparsed pair.1 pair.2) tags)
    let target := locale.map Locale.ofString
    let nodes ← if lines then
        (renderer.renderLines key target configure).outcome.mapError .render
      else ((renderer.render key target configure).outcome.mapError .render).map ([·])
    .ok (linesOf (nodes.map (showNode json)))
  | .lookup key locale =>
    let target := renderer.targetLocale (locale.map Locale.ofString)
    match renderer.template key target with
    | some template => .ok (template ++ "\n")
    | none => .error (.missingMessage key target)
  | .locales => .ok (linesOf (renderer.store.catalog.locales.map (·.text)))

def execute (invocation : Invocation) (look : String → Storage.Place)
    (environment : String → Option String) : Except Fault String := do
  let settings ← invocation.settings look environment
  let renderer ← prepare (invocation.request.adjust settings) look
  answer renderer invocation.request

def usageText : String := "Usage: miniphrase [OPTIONS] <COMMAND>\n\nFor more information, try '--help'.\n"

def run (look : String → Storage.Place) (environment : String → Option String)
    (arguments : List String) : Output :=
  match readInvocation arguments with
  | .error .wrong => ⟨2,"",usageText⟩
  | .error .version => ⟨0,versionText,""⟩
  | .error (.help long command) => ⟨0,helpText long command,""⟩
  | .ok invocation => match execute invocation look environment with
    | .ok text => ⟨0,text,""⟩
    | .error fault => ⟨1,"",fault.report⟩

end Phrasebook.CommandLine
