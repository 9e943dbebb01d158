import Phrasebook.Catalog
import Phrasebook.Template.Resolver
namespace Phrasebook.Tags
open Template

-- The tag `<phrase:key>` or `<phrase:key:locale>`: another message, read in
-- place of the tag.
structure Phrase where
  catalog : Catalog
  defaultLocale : Locale
  locale : Option Locale

def phraseName : String := "phrase"

namespace Phrase

def explicitLocale (arguments : Arguments) (occurrence : Occurrence) :
    Except Failure (Option Locale) :=
  match arguments.peek with
  | none => .ok none
  | some value => match Locale.parseTag value with
    | .ok locale => .ok (some locale)
    | .error _ => .error (occurrence.argumentFailure
        ("Invalid language tag " ++ value ++ ".") arguments.position value)

-- The locale is that of the tag, else the installed one, else the default. A
-- missing message leaves the key, as text and never as markup.
def resolve (phrase : Phrase) (arguments : Arguments) (occurrence : Occurrence) :
    Except Failure Tag := do
  let (key,rest) ← arguments.popOr "No key provided."
  let explicit ← explicitLocale rest occurrence
  let locale := (explicit.or phrase.locale).getD phrase.defaultLocale
  match phrase.catalog.get? key locale with
  | some template => .ok (.markup template)
  | none => .ok (.text key)

end Phrase

inductive Definition where
  | fixed (tag : Tag)
  | deferred (supplier : Unit → Tag)
  | function (run : Arguments → Occurrence → Except Failure Tag)
  | phrase (installed : Phrase)

-- Suppliers and functions leave their name in the trace, also when they fail.
def Definition.resolve (name : String) (arguments : Arguments) (occurrence : Occurrence) :
    Definition → Traced Failure Tag
  | .fixed tag => .ok tag
  | .deferred supplier => ⟨[name],.ok (supplier ())⟩
  | .function run => ⟨[name],run arguments occurrence⟩
  | .phrase installed => .ofExcept (installed.resolve arguments occurrence)

inductive Entry where
  | named (name : String) (definition : Definition)
  | nested (entries : List Entry)
  | custom (resolver : Resolver)

mutual
def Entry.claims (name : String) : Entry → Bool
  | .named own _ => own == name
  | .nested entries => claimed name entries
  | .custom resolver => resolver.has name
def claimed (name : String) : List Entry → Bool
  | [] => false
  | entry :: older => entry.claims name || claimed name older
end

mutual
def Entry.resolve (name : String) (arguments : Arguments) (occurrence : Occurrence) :
    Entry → Reply
  | .named _ definition =>
    let traced := definition.resolve name arguments occurrence
    ⟨traced.calls,traced.outcome.map some,arguments⟩
  | .nested entries => resolveNewest name arguments occurrence entries
  | .custom resolver => resolver.resolve name arguments occurrence
-- Entries stand newest first. When one declines, the next that claims the name
-- sees the arguments from their start.
def resolveNewest (name : String) (arguments : Arguments) (occurrence : Occurrence) :
    List Entry → Reply
  | [] => ⟨[],.ok none,arguments⟩
  | entry :: older =>
    if entry.claims name then
      let reply := entry.resolve name arguments occurrence
      match reply.outcome with
      | .ok none =>
        let later := resolveNewest name reply.arguments.reset occurrence older
        ⟨reply.calls ++ later.calls,later.outcome,later.arguments⟩
      | .ok (some tag) => ⟨reply.calls,.ok (some tag),reply.arguments⟩
      | .error failure => ⟨reply.calls,.error failure,reply.arguments⟩
    else resolveNewest name arguments occurrence older
end

-- The tags of one render. Of several entries that claim a name the newest wins.
structure Registry where
  entries : List Entry

namespace Registry

def empty : Registry := ⟨[]⟩

def size (registry : Registry) : Nat := registry.entries.length

def isEmpty (registry : Registry) : Bool := registry.entries.isEmpty

def has (registry : Registry) (name : String) : Bool := claimed name registry.entries

def names (registry : Registry) : List String :=
  registry.entries.reverse.filterMap fun
    | .named name _ => some name
    | _ => none

def resolver (registry : Registry) : Resolver where
  has := registry.has
  resolve name arguments occurrence := resolveNewest name arguments occurrence registry.entries

end Registry
end Phrasebook.Tags
