import Phrasebook.Json.Record
import Phrasebook.Settings.Settings
import Phrasebook.Text.Basic
namespace Phrasebook.Settings
open Json

-- Settings from a JSON file. A field that is missing has its usual value.
structure Fields where
  defaultLocale : Option String
  includePhraseTag : Option Bool
  fallbackToDefault : Option Bool
  maxDepth : Option Nat
  directory : Option (Option String)
  format : Option Storage.Format

def Fields.settings (fields : Fields) : Settings :=
  ⟨fields.defaultLocale.getD standard.defaultLocale,
   fields.includePhraseTag.getD standard.includePhraseTag,
   fields.fallbackToDefault.getD standard.fallbackToDefault,
   fields.maxDepth.getD standard.maxDepth,
   fields.directory.getD standard.directory,
   fields.format.getD standard.format⟩

def readFormat (depth : Nat) : Reader Storage.Format := readVariant depth Storage.Format.ofName?

def readMember (depth : Nat) (fields : Fields) (name : String) : Reader Fields := fun text =>
  match name with
  | "default_locale" => do
    let (defaultLocale,rest) ← readOnce fields.defaultLocale readText text
    .ok ({ fields with defaultLocale },rest)
  | "include_phrase_tag" => do
    let (includePhraseTag,rest) ← readOnce fields.includePhraseTag readFlag text
    .ok ({ fields with includePhraseTag },rest)
  | "fallback_to_default_locale" => do
    let (fallbackToDefault,rest) ← readOnce fields.fallbackToDefault readFlag text
    .ok ({ fields with fallbackToDefault },rest)
  | "max_depth" => do
    let (maxDepth,rest) ← readOnce fields.maxDepth readCount text
    .ok ({ fields with maxDepth },rest)
  | "translations" => do
    let (directory,rest) ← readOnce fields.directory (readOptional readText) text
    .ok ({ fields with directory },rest)
  | "format" => do
    let (format,rest) ← readOnce fields.format (readFormat depth) text
    .ok ({ fields with format },rest)
  | _ => skipMember fields text

def readElements (depth : Nat) : Reader Fields := fun text => do
  let (defaultLocale,text) ← readElement true readText text
  let (includePhraseTag,text) ← readElement false readFlag text
  let (fallbackToDefault,text) ← readElement false readFlag text
  let (maxDepth,text) ← readElement false readCount text
  let (directory,text) ← readElement false (readOptional readText) text
  let (format,text) ← readElement false (readFormat depth) text
  .ok (⟨defaultLocale,includePhraseTag,fallbackToDefault,maxDepth,directory,format⟩,text)

def read (depth : Nat) : Reader Settings := fun text => do
  let (fields,rest) ← readRecord depth ⟨none,none,none,none,none,none⟩ (readMember (depth - 1))
    (readElements (depth - 1)) text
  .ok (fields.settings,rest)

def ofJson (text : String) : Except Json.Fault Settings := readAll (read depthLimit) text

def ofPlace (path : String) (place : Storage.Place) : Except Fault Settings :=
  match place.bytes with
  | .error reason => .error (.unreadable path reason)
  | .ok content => match Text.decodeUtf8 content with
    | none => .error (.unreadable path .notUtf8)
    | some text => match ofJson text with
      | .ok settings => .ok settings
      | .error fault => .error (.json path fault)

end Phrasebook.Settings
