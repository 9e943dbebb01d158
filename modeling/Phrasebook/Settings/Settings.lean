import Phrasebook.Renderer
namespace Phrasebook

structure Settings where
  defaultLocale : String
  includePhraseTag : Bool
  fallbackToDefault : Bool
  maxDepth : Nat
  directory : Option String
  format : Storage.Format
  deriving DecidableEq, Repr

namespace Settings

def standard : Settings := ⟨"en",true,false,Template.Engine.standard.maxDepth,none,.properties⟩

def source (settings : Settings) : Storage.Source :=
  match settings.directory with
  | none => .empty
  | some path => .directory settings.format path

def renderer (settings : Settings) : Except Tags.BuildFault Renderer :=
  Renderer.check ⟨.ofSource settings.source,⟨settings.maxDepth⟩,.ofString settings.defaultLocale,
    settings.includePhraseTag,settings.fallbackToDefault⟩

inductive Fault where
  | unreadable (path : String) (reason : Storage.ReadFault)
  | json (path : String) (reason : Json.Fault)
  | invalidValue (name value : String)
  deriving DecidableEq, Repr

def Fault.message : Fault → String
  | .unreadable path reason => "Failed to read config '" ++ path ++ "': " ++ reason.message
  | .json path reason =>
    "Failed to parse config '" ++ path ++ "': " ++ Storage.jsonReason reason
  | .invalidValue name value => "Invalid value '" ++ value ++ "' for " ++ name

def Fault.cause : Fault → Option String
  | .unreadable _ reason => some reason.message
  | .json _ reason => some (Storage.jsonReason reason)
  | .invalidValue _ _ => none

def defaultLocaleVariable : String := "MINIPHRASE_DEFAULT_LOCALE"
def directoryVariable : String := "MINIPHRASE_TRANSLATIONS"
def formatVariable : String := "MINIPHRASE_FORMAT"
def includePhraseTagVariable : String := "MINIPHRASE_INCLUDE_PHRASE_TAG"
def fallbackVariable : String := "MINIPHRASE_FALLBACK_TO_DEFAULT_LOCALE"
def maxDepthVariable : String := "MINIPHRASE_MAX_DEPTH"

def parseFlag (text : String) : Option Bool :=
  let word := String.ofList (Text.lower (Text.trim text.toList))
  if ["1","true","yes","on"].contains word then some true
  else if ["0","false","no","off"].contains word then some false
  else none

-- An optional plus and decimal digits, below 2^64.
def parseDepth (text : String) : Option Nat :=
  let digits := match Text.trim text.toList with
    | '+' :: rest => rest
    | digits => digits
  if digits.isEmpty || !digits.all Char.isDigit then none
  else if Json.decimal digits < Json.wordLimit then some (Json.decimal digits)
  else none

def override (name : String) (read : String → Option α) (value : Option String) (before : α) :
    Except Fault α :=
  match value with
  | none => .ok before
  | some text => match read text with
    | some value => .ok value
    | none => .error (.invalidValue name text)

-- Any text is a locale or a directory; the others are checked in this order.
def withVariables (settings : Settings) (lookup : String → Option String) : Except Fault Settings := do
  let format ← override formatVariable (fun text => (Storage.Format.parse text).toOption)
    (lookup formatVariable) settings.format
  let includePhraseTag ← override includePhraseTagVariable parseFlag
    (lookup includePhraseTagVariable) settings.includePhraseTag
  let fallbackToDefault ← override fallbackVariable parseFlag
    (lookup fallbackVariable) settings.fallbackToDefault
  let maxDepth ← override maxDepthVariable parseDepth (lookup maxDepthVariable) settings.maxDepth
  return ⟨(lookup defaultLocaleVariable).getD settings.defaultLocale,includePhraseTag,
    fallbackToDefault,maxDepth,(lookup directoryVariable).or settings.directory,format⟩

end Settings
end Phrasebook
