import Phrasebook.Locale
import Phrasebook.Text.Basic
import Std.Data.ExtTreeMap
namespace Phrasebook

abbrev Messages := Std.ExtTreeMap String String

-- Messages by locale and then by key. A locale may be known without a message.
structure Catalog where
  entries : Std.ExtTreeMap Locale Messages
  deriving DecidableEq

namespace Catalog

def empty : Catalog := ⟨∅⟩

def insert (catalog : Catalog) (locale : Locale) (key message : String) : Catalog :=
  ⟨catalog.entries.insert locale ((catalog.entries.getD locale ∅).insert key message)⟩

def replace (catalog : Catalog) (locale : Locale) (messages : Messages) : Catalog :=
  ⟨catalog.entries.insert locale messages⟩

def get? (catalog : Catalog) (key : String) (locale : Locale) : Option String :=
  catalog.entries[locale]?.bind fun messages => messages[key]?

def locales (catalog : Catalog) : List Locale := catalog.entries.keys

def size (catalog : Catalog) : Nat :=
  catalog.entries.toList.foldr (fun entry total => entry.2.size + total) 0

def isEmpty (catalog : Catalog) : Bool := catalog.size == 0

def ofRows (rows : List (Locale × String × String)) : Catalog :=
  rows.foldl (fun catalog row => catalog.insert row.1 row.2.1 row.2.2) empty

end Catalog

-- The members of a list message are separated by line feeds.
def lines (message : String) : List String :=
  (Text.splitOn '\n' message.toList).map String.ofList

end Phrasebook
