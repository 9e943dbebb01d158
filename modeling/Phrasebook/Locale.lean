import Phrasebook.LanguageTag.Reading
import Phrasebook.Text.Basic
import Phrasebook.Text.Lowercase
namespace Phrasebook

-- A locale is known by one spelling: trimmed, lowercase, `_` between subtags.
-- File names, catalog rows, render requests and tag arguments all go through
-- the same normalization, so a lookup never depends on how a caller spelled it.
structure Locale where
  text : String
  deriving DecidableEq, Repr

namespace Locale

def normalizeChars (text : List Char) : List Char :=
  (Text.lower (Text.trim text)).map fun c => if c = '-' then '_' else c

def normalize (text : String) : String := String.ofList (normalizeChars text.toList)

-- Any string names a locale; nothing is checked.
def ofString (text : String) : Locale := ⟨normalize text⟩

def language (locale : Locale) : String :=
  String.ofList (locale.text.toList.takeWhile (· ≠ '_'))

def isEmpty (locale : Locale) : Bool := locale.text.isEmpty

inductive Fault where
  | empty
  | invalid (tag : String) (reason : LanguageTag.TagFault)
  deriving DecidableEq, Repr

def Fault.message : Fault → String
  | .empty => "Locale code is empty"
  | .invalid tag reason => "Invalid language tag '" ++ tag ++ "': " ++ reason.name

-- Accepts language tags only, with `-` or `_` between subtags.
def parseTag (tag : String) : Except Fault Locale :=
  match Text.trim tag.toList with
  | [] => .error .empty
  | trimmed =>
    match LanguageTag.readTag (trimmed.map fun c => if c = '_' then '-' else c) with
    | .ok parsed => .ok (ofString (String.ofList (LanguageTag.writeTag parsed)))
    | .error fault => .error (.invalid tag fault)

instance : Ord Locale where
  compare := compareOn Locale.text

instance : Std.TransOrd Locale :=
  inferInstanceAs (Std.TransCmp (compareOn Locale.text))

instance : Std.LawfulEqOrd Locale where
  eq_of_compare {a b} same := by
    cases a
    cases b
    exact congrArg Locale.mk (Std.LawfulEqOrd.eq_of_compare same)

end Locale
end Phrasebook
