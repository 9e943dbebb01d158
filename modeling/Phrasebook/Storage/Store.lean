import Phrasebook.Storage.Messages
namespace Phrasebook.Storage

-- Loading a message directory. The stem of a file name is its locale.

structure LocaleFile where
  locale : Locale
  path : String
  entry : FileTree

-- Other files are no concern; a file of the format has to name a locale, in
-- Unicode.
def localeFile (format : Format) (directory : String) (entry : List UInt8 × FileTree) :
    Except Fault (Option LocaleFile) :=
  match cutName entry.1 with
  | none => .ok none
  | some (stem,extension) =>
    if Text.ofUtf8? extension ≠ some format.extension then .ok none
    else
      let path := join directory (Text.showUtf8 entry.1)
      match ((Text.ofUtf8? stem).map Locale.ofString).filter (!·.isEmpty) with
      | none => .error (.invalidFileName path)
      | some locale => .ok (some ⟨locale,path,entry.2.reached path⟩)

def loadFile (format : Format) (catalog : Catalog) (file : LocaleFile) : Except Fault Catalog :=
  match file.entry.bytes with
  | .error reason => .error (.unreadable file.path reason)
  | .ok content => (readMessages format file.path content).map (catalog.replace file.locale)

-- All names are looked at before any file is read.
def load (format : Format) (directory : String) : Place → Except Fault Catalog
  | .lost _ => .error (.missingDirectory directory)
  | .file _ => .error (.notADirectory directory)
  | .refused _ => .error (.notADirectory directory)
  | .directory entries => do
    let files ← entries.mapM (localeFile format directory)
    (files.filterMap id).foldlM (loadFile format) Catalog.empty
  | .unlisted entries shown reason => do
    let _ ← (entries.take shown).mapM (localeFile format directory)
    .error (.unreadable directory reason)

-- Where messages come from. A supplier is told how often it was asked.
inductive Source where
  | empty
  | directory (format : Format) (path : String)
  | supplied (load : Nat → Except Fault Catalog)

def Source.name : Source → String
  | .empty => "empty"
  | .directory format _ => format.name
  | .supplied _ => "map"

-- A store holds the catalog of the last load that went well.
structure Store where
  source : Source
  loads : Nat
  catalog : Catalog

namespace Store

def ofSource (source : Source) : Store := ⟨source,0,Catalog.empty⟩

def attempt (look : String → Place) (store : Store) : Except Fault Catalog :=
  match store.source with
  | .empty => .ok Catalog.empty
  | .directory format path => load format path (look path)
  | .supplied load => load store.loads

-- A complete new catalog takes the place of the old one, or nothing changes.
def reload (look : String → Place) (store : Store) : Except Fault Unit × Store :=
  match store.attempt look with
  | .ok catalog => (.ok (),{ store with loads := store.loads + 1, catalog })
  | .error fault => (.error fault,{ store with loads := store.loads + 1 })

-- Exactly that locale; falling back is for the caller to decide.
def lookup (store : Store) (key : String) (locale : Locale) : Option String :=
  store.catalog.get? key locale

def lookupList (store : Store) (key : String) (locale : Locale) : List String :=
  match store.lookup key locale with
  | some message => lines message
  | none => [key]

end Store
end Phrasebook.Storage
