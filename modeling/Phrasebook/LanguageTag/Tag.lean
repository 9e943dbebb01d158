namespace Phrasebook.LanguageTag

-- A locale identifier is a list of subtags. Reading works on lowercased ones,
-- since case never matters. Only ASCII letters and digits are ever admitted.

abbrev Subtag := List Char

def allAlpha (subtag : Subtag) : Bool := subtag.all Char.isAlpha
def allDigits (subtag : Subtag) : Bool := subtag.all Char.isDigit
def allAlphanumeric (subtag : Subtag) : Bool := subtag.all Char.isAlphanum

def isAlphanumericOf (least most : Nat) (subtag : Subtag) : Bool :=
  least ≤ subtag.length && subtag.length ≤ most && allAlphanumeric subtag

def isLanguage (subtag : Subtag) : Bool :=
  (subtag.length == 2 || subtag.length == 3) && allAlpha subtag

def isScript (subtag : Subtag) : Bool := subtag.length == 4 && allAlpha subtag

def isRegion (subtag : Subtag) : Bool :=
  (subtag.length == 2 && allAlpha subtag) || (subtag.length == 3 && allDigits subtag)

def isVariant (subtag : Subtag) : Bool :=
  isAlphanumericOf 5 8 subtag ||
    (isAlphanumericOf 4 4 subtag && (subtag.head?.any Char.isDigit))

def isSingleton (subtag : Subtag) : Bool := isAlphanumericOf 1 1 subtag

def isKeywordKey : Subtag → Bool
  | [first,second] => first.isAlphanum && second.isAlpha
  | _ => false

def isFieldKey : Subtag → Bool
  | [first,second] => first.isAlpha && second.isDigit
  | _ => false

def isValue (subtag : Subtag) : Bool := isAlphanumericOf 3 8 subtag

-- Insertion into a list that is sorted by a key. Of items with equal keys the
-- one that came first is kept.
def insertBy (key : α → Subtag) (item : α) : List α → List α
  | [] => [item]
  | head :: rest =>
    if key item < key head then item :: head :: rest
    else if key item = key head then head :: rest
    else head :: insertBy key item rest

def insertSorted : Subtag → List Subtag → List Subtag := insertBy id

abbrev Field := Subtag × List Subtag

def insertField : Field → List Field → List Field := insertBy Prod.fst

-- Unicode locale identifiers (the BCP 47 profile of Unicode): a language, then
-- optional script, region and variants, then extensions, each led by a
-- one-character subtag. Lists are sorted, so that a value has one written form.

structure LanguageId where
  language : Subtag
  script : Option Subtag
  region : Option Subtag
  variants : List Subtag
  deriving DecidableEq, Repr

structure Keywords where
  attributes : List Subtag
  keywords : List Field
  deriving DecidableEq, Repr

structure Transform where
  language : Option LanguageId
  fields : List Field
  deriving DecidableEq, Repr

structure Tag where
  id : LanguageId
  transform : Option Transform
  keywords : Option Keywords
  others : List Field
  privateUse : Option (List Subtag)
  deriving DecidableEq, Repr

def LanguageId.subtags (id : LanguageId) : List Subtag :=
  id.language :: (id.script.toList ++ id.region.toList ++ id.variants)

def Field.subtags (field : Field) : List Subtag := field.1 :: field.2

def Keywords.subtags (extension : Keywords) : List Subtag :=
  ['u'] :: (extension.attributes ++ extension.keywords.flatMap Field.subtags)

def Field.valued (field : Field) : List Subtag :=
  field.1 :: (if field.2.isEmpty then [['t','r','u','e']] else field.2)

def Transform.subtags (extension : Transform) : List Subtag :=
  ['t'] :: ((extension.language.map LanguageId.subtags).getD [] ++ extension.fields.flatMap Field.valued)

-- Extensions come in the order of their singletons and private use last; `t`
-- and `u` stand together.
def Tag.subtags (tag : Tag) : List Subtag :=
  tag.id.subtags ++
    (tag.others.filter (fun other => !decide (['t'] < other.1))).flatMap Field.subtags ++
    (tag.transform.map Transform.subtags).getD [] ++
    (tag.keywords.map Keywords.subtags).getD [] ++
    (tag.others.filter (fun other => decide (['t'] < other.1))).flatMap Field.subtags ++
    ((tag.privateUse.map (['x'] :: ·)).getD [])

def writeTag (tag : Tag) : List Char := ['-'].intercalate tag.subtags

end Phrasebook.LanguageTag
