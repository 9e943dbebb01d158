import Phrasebook.Storage.Store
import Phrasebook.Tags.Builder
import Phrasebook.Template.Engine
namespace Phrasebook
open RichText Tags Template

inductive RenderFault where
  | template (failure : Failure)
  | tags (fault : BuildFault)
  deriving DecidableEq, Repr

def RenderFault.message : RenderFault → String
  | .template failure => failure.message
  | .tags fault => fault.message

-- Finds a message and reads it as a template: key, locale and tags in, rich
-- text out.
structure Renderer where
  store : Storage.Store
  engine : Engine
  defaultLocale : Locale
  includePhraseTag : Bool
  fallbackToDefault : Bool

namespace Renderer

def ofStore (store : Storage.Store) : Renderer :=
  ⟨store,.standard,.ofString "en",true,false⟩

def check (renderer : Renderer) : Except BuildFault Renderer :=
  if renderer.defaultLocale.isEmpty then .error .emptyDefaultLocale else .ok renderer

def tags (renderer : Renderer) : Builder :=
  .withPhrases ⟨renderer.store.catalog,renderer.defaultLocale⟩

def targetLocale (renderer : Renderer) (locale : Option Locale) : Locale :=
  locale.getD renderer.defaultLocale

def templateOrDefault (renderer : Renderer) (key : String) (locale : Locale) : Option String :=
  (renderer.store.lookup key locale).or (renderer.store.lookup key renderer.defaultLocale)

def template (renderer : Renderer) (key : String) (locale : Locale) : Option String :=
  if renderer.fallbackToDefault then renderer.templateOrDefault key locale
  else renderer.store.lookup key locale

-- The phrase tag comes first, so that the caller may replace it.
def registry (renderer : Renderer) (target : Locale) (configure : Builder → Builder) :
    Except BuildFault Registry :=
  (configure (if renderer.includePhraseTag then renderer.tags.withPhraseTag (some target)
    else renderer.tags)).build

def parse (renderer : Renderer) (registry : Registry) (template : String) :
    Traced RenderFault Node :=
  (renderer.engine.parse template registry.resolver).mapError .template

def renderOrNone (renderer : Renderer) (key : String) (locale : Option Locale)
    (configure : Builder → Builder) : Traced RenderFault (Option Node) :=
  let target := renderer.targetLocale locale
  match renderer.template key target with
  | none => .ok none
  | some template => match renderer.registry target configure with
    | .error fault => .fail (.tags fault)
    | .ok registry => do return some (← renderer.parse registry template)

def render (renderer : Renderer) (key : String) (locale : Option Locale)
    (configure : Builder → Builder) : Traced RenderFault Node := do
  return (← renderer.renderOrNone key locale configure).getD (.text key)

def renderLines (renderer : Renderer) (key : String) (locale : Option Locale)
    (configure : Builder → Builder) : Traced RenderFault (List Node) :=
  let target := renderer.targetLocale locale
  match renderer.template key target with
  | none => .ok [.text key]
  | some template => match renderer.registry target configure with
    | .error fault => .fail (.tags fault)
    | .ok registry => (lines template).mapM (renderer.parse registry)

end Renderer
end Phrasebook
