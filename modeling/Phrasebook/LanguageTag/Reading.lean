import Phrasebook.LanguageTag.Tag
import Phrasebook.Text.Basic
namespace Phrasebook.LanguageTag

-- Reading a tag: cut it at its one-character subtags, then read each piece to
-- its end. Whatever a piece leaves over refuses the tag.

inductive TagFault where
  | invalidLanguage
  | invalidSubtag
  | invalidExtension
  | duplicatedExtension
  deriving DecidableEq, Repr

def TagFault.name : TagFault → String
  | .invalidLanguage => "InvalidLanguage"
  | .invalidSubtag => "InvalidSubtag"
  | .invalidExtension => "InvalidExtension"
  | .duplicatedExtension => "DuplicatedExtension"

def takeOptional (admits : Subtag → Bool) : List Subtag → Option Subtag × List Subtag
  | [] => (none,[])
  | subtag :: rest => if admits subtag then (some subtag,rest) else (none,subtag :: rest)

-- Variants come sorted and a repeated one is refused.
def takeVariants (sorted : List Subtag) :
    List Subtag → Except TagFault (List Subtag × List Subtag)
  | [] => .ok (sorted,[])
  | subtag :: rest =>
    if isVariant subtag then
      if subtag ∈ sorted then .error .invalidSubtag
      else takeVariants (insertSorted subtag sorted) rest
    else .ok (sorted,subtag :: rest)

def takeLanguageId : List Subtag → Except TagFault (LanguageId × List Subtag)
  | [] => .error .invalidLanguage
  | language :: rest =>
    if isLanguage language then do
      let (script,rest) := takeOptional isScript rest
      let (region,rest) := takeOptional isRegion rest
      let (variants,rest) ← takeVariants [] rest
      .ok (⟨language,script,region,variants⟩,rest)
    else .error .invalidLanguage

def takeAttributes (sorted : List Subtag) : List Subtag → List Subtag × List Subtag
  | [] => (sorted,[])
  | subtag :: rest =>
    if isValue subtag then takeAttributes (insertSorted subtag sorted) rest
    else (sorted,subtag :: rest)

def isTrue (subtag : Subtag) : Bool := subtag == ['t','r','u','e']

-- `key` is the open key with the values it has so far. The value `true` says no
-- more than the key alone and is dropped.
def readKeywords (key : Option Field) : List Subtag → List Field → Except TagFault (List Field)
  | [],read => .ok (close key read)
  | subtag :: rest,read =>
    if subtag.length = 2 then
      if isKeywordKey subtag then readKeywords (some (subtag,[])) rest (close key read)
      else .error .invalidExtension
    else match key with
      | some (name,values) =>
        if isValue subtag then
          readKeywords (some (name,if isTrue subtag then values else values ++ [subtag])) rest read
        else .error .invalidExtension
      | none => .error .invalidExtension
where
  close : Option Field → List Field → List Field
    | some field,read => insertField field read
    | none,read => read

def readUnicodeExtension (body : List Subtag) : Except TagFault Keywords := do
  let (attributes,rest) := takeAttributes [] body
  let keywords ← readKeywords none rest []
  if attributes.isEmpty && keywords.isEmpty then .error .invalidExtension
  else .ok ⟨attributes,keywords⟩

-- Every field needs a value, even if that value is `true` and then dropped.
def readFields (key : Option (Field × Bool)) :
    List Subtag → List Field → Except TagFault (List Field)
  | [],read => match key with
    | none => .ok read
    | some (_,false) => .error .invalidExtension
    | some (field,true) => .ok (insertField field read)
  | subtag :: rest,read => match key with
    | none =>
      if isFieldKey subtag then readFields (some ((subtag,[]),false)) rest read
      else .error .invalidExtension
    | some ((name,values),valued) =>
      if isValue subtag then
        readFields (some ((name,if isTrue subtag then values else values ++ [subtag]),true)) rest read
      else if valued && isFieldKey subtag then
        readFields (some ((subtag,[]),false)) rest (insertField (name,values) read)
      else .error .invalidExtension

def takeOptionalId (body : List Subtag) : Except TagFault (Option LanguageId × List Subtag) :=
  if body.head?.any isLanguage then do
    let (id,rest) ← takeLanguageId body
    .ok (some id,rest)
  else .ok (none,body)

def readTransform (body : List Subtag) : Except TagFault Transform := do
  let (language,rest) ← takeOptionalId body
  let fields ← readFields none rest []
  if language.isNone && fields.isEmpty then .error .invalidExtension
  else .ok ⟨language,fields⟩

-- Subtags of an unknown extension are two to eight bytes long; those that are
-- not alphanumeric are dropped.
def readOther (body : List Subtag) : Except TagFault (List Subtag) :=
  if body.all (fun subtag => 2 ≤ Text.byteLength subtag && Text.byteLength subtag ≤ 8) then
    match body.filter allAlphanumeric with
    | [] => .error .invalidExtension
    | kept => .ok kept
  else
    .error .invalidExtension

def readPrivateUse (body : List Subtag) : Except TagFault (List Subtag) :=
  if !body.isEmpty && body.all (isAlphanumericOf 1 8) then .ok body
  else .error .invalidExtension

-- Cuts a tag at its one-byte subtags. Private use takes all that follows it.
def cut : List Subtag → List Subtag × List Field
  | [] => ([],[])
  | subtag :: rest =>
    if subtag = ['x'] then ([],[(subtag,rest)])
    else
      let later := cut rest
      if Text.byteLength subtag = 1 then ([],(subtag,later.1) :: later.2)
      else (subtag :: later.1,later.2)

def readExtension (tag : Tag) (extension : Field) : Except TagFault Tag :=
  let (singleton,body) := extension
  if !isSingleton singleton then .error .invalidExtension
  else if singleton = ['u'] then
    if tag.keywords.isSome then .error .duplicatedExtension
    else do .ok { tag with keywords := some (← readUnicodeExtension body) }
  else if singleton = ['t'] then
    if tag.transform.isSome then .error .duplicatedExtension
    else do .ok { tag with transform := some (← readTransform body) }
  else if singleton = ['x'] then
    do .ok { tag with privateUse := some (← readPrivateUse body) }
  else if tag.others.any (·.1 == singleton) then .error .duplicatedExtension
  else do .ok { tag with others := insertField (singleton,← readOther body) tag.others }

def subtags (text : List Char) : List Subtag := Text.splitOn '-' (text.map Char.toLower)

def readTag (text : List Char) : Except TagFault Tag := do
  let (head,extensions) := cut (subtags text)
  let (id,rest) ← takeLanguageId head
  if rest.isEmpty then extensions.foldlM readExtension ⟨id,none,none,[],none⟩
  else .error .invalidSubtag

end Phrasebook.LanguageTag
