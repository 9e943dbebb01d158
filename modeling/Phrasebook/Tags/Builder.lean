import Phrasebook.Tags.Registry
namespace Phrasebook.Tags
open Template

inductive BuildFault where
  | invalidTagName (name : String)
  | emptyDefaultLocale
  | phraseTagUnavailable
  deriving DecidableEq, Repr

def BuildFault.message : BuildFault → String
  | .invalidTagName name => "Invalid tag name '" ++ name ++ "': names must match [!?#]?[a-z0-9_-]+"
  | .emptyDefaultLocale => "Default locale must not be empty"
  | .phraseTagUnavailable =>
    "The phrase tag needs a translation store; create the builder from a renderer"

structure PhraseSource where
  catalog : Catalog
  defaultLocale : Locale

-- Collects definitions, newest first. The first fault is remembered and fails
-- the build; what caused it leaves the entries alone.
structure Builder where
  entries : List Entry
  phrases : Option PhraseSource
  fault : Option BuildFault

def Entry.isNamed (name : String) : Entry → Bool
  | .named own _ => own == name
  | _ => false

def withoutNamed (name : String) (entries : List Entry) : List Entry :=
  entries.filter fun entry => !entry.isNamed name

-- A named entry takes the place of an earlier one of its name.
def add (entry : Entry) (entries : List Entry) : List Entry :=
  match entry with
  | .named name _ => entry :: withoutNamed name entries
  | _ => entry :: entries

namespace Builder

def new : Builder := ⟨[],none,none⟩

def withPhrases (source : PhraseSource) : Builder := ⟨[],some source,none⟩

def blame (builder : Builder) (fault : BuildFault) : Builder :=
  { builder with fault := some (builder.fault.getD fault) }

def define (builder : Builder) (name : String) (definition : Definition) : Builder :=
  if isTagName name.toList then
    { builder with entries := add (.named name definition) builder.entries }
  else builder.blame (.invalidTagName name)

def tag (builder : Builder) (name : String) (tag : Tag) : Builder :=
  builder.define name (.fixed tag)

-- The value is inserted literally; meant for text that is not trusted.
def unparsed (builder : Builder) (name value : String) : Builder :=
  builder.tag name (.text value)

def parsed (builder : Builder) (name value : String) : Builder :=
  builder.tag name (.markup value)

def component (builder : Builder) (name : String) (node : RichText.Node) : Builder :=
  builder.tag name (.insert node)

def deferred (builder : Builder) (name : String) (supplier : Unit → Tag) : Builder :=
  builder.define name (.deferred supplier)

def function (builder : Builder) (name : String)
    (run : Arguments → Occurrence → Except Failure Tag) : Builder :=
  builder.define name (.function run)

-- A resolver comes before all earlier entries and replaces none of them.
def nest (builder : Builder) (registry : Registry) : Builder :=
  { builder with entries := .nested registry.entries :: builder.entries }

def custom (builder : Builder) (resolver : Resolver) : Builder :=
  { builder with entries := .custom resolver :: builder.entries }

def merge (builder : Builder) (registry : Registry) : Builder :=
  { builder with entries := registry.entries.foldr add builder.entries }

def withPhraseTag (builder : Builder) (locale : Option Locale) : Builder :=
  match builder.phrases with
  | some source => builder.define phraseName (.phrase ⟨source.catalog,source.defaultLocale,locale⟩)
  | none => builder.blame .phraseTagUnavailable

def build (builder : Builder) : Except BuildFault Registry :=
  match builder.fault with
  | some fault => .error fault
  | none => .ok ⟨builder.entries⟩

end Builder
end Phrasebook.Tags
