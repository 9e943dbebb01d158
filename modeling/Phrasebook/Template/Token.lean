import Phrasebook.Text.Basic
import Phrasebook.Text.Lowercase
namespace Phrasebook.Template

def isNameChar (c : Char) : Bool := c.isLower || c.isDigit || c == '_' || c == '-'

def isNameMark (c : Char) : Bool := c == '!' || c == '?' || c == '#'

def isName (name : List Char) : Bool := !name.isEmpty && name.all isNameChar

def isTagName : List Char → Bool
  | [] => false
  | c :: rest => if isNameMark c then isName rest else isName (c :: rest)

-- A tag as it is written: `<`, a head, arguments that each follow a `:`, `>`.
-- The head ends at the first of `:` and `>`; neither it nor the unquoted part
-- of an argument holds `<` or a line feed.

structure Lexeme where
  closing : Bool
  name : List Char
  arguments : List (List Char)
  source : List Char
  rest : List Char

def isHeadChar (c : Char) : Bool := c != ':' && c != '>' && c != '<' && c != '\n'

def isQuote (c : Char) : Bool := c == '\'' || c == '"'

-- `quote` is the quote that is open and `value` the argument so far, last
-- character first. A quote opens only while the argument is still empty.
-- Inside quotes a backslash escapes itself and that quote, nothing else.
def scanArguments (quote : Option Char) (value : List Char) :
    List Char → Option (List (List Char) × List Char)
  | [] => none
  | c :: rest => match quote with
    | some mark =>
      if c = '\\' then match rest with
        | [] => none
        | next :: later =>
          if next = mark ∨ next = '\\' then scanArguments quote (next :: value) later
          else scanArguments quote (c :: value) (next :: later)
      else if c = mark then scanArguments none value rest
      else scanArguments quote (c :: value) rest
    | none =>
      if isQuote c && value.isEmpty then scanArguments (some c) value rest
      else if c = ':' then
        (scanArguments none [] rest).map fun (arguments,rest) => (value.reverse :: arguments,rest)
      else if c = '>' then some ([value.reverse],rest)
      else if c = '<' ∨ c = '\n' then none
      else scanArguments none (c :: value) rest

def scanParts (text : List Char) : Option (List Char × List (List Char) × List Char) :=
  match text.dropWhile isHeadChar with
  | '>' :: rest => some (text.takeWhile isHeadChar,[],rest)
  | ':' :: rest => (scanArguments none [] rest).map fun (arguments,rest) =>
      (text.takeWhile isHeadChar,arguments,rest)
  | _ => none

def isClosing (head : List Char) : Bool := head.head? == some '/'

def nameOf (head : List Char) : List Char :=
  Text.lower (if isClosing head then head.tail else head)

-- `text` is what follows a `<`. A head that holds no tag name makes no tag.
def scanTag (text : List Char) : Option Lexeme :=
  match scanParts text with
  | none => none
  | some (head,arguments,rest) =>
    if isTagName (nameOf head) then
      some ⟨isClosing head,nameOf head,arguments,'<' :: text.take (text.length - rest.length),rest⟩
    else none

theorem arguments_consume {text rest : List Char} {arguments : List (List Char)}
    (scanned : scanArguments quote value text = some (arguments,rest)) :
    rest.length < text.length := by
  fun_induction scanArguments quote value text generalizing arguments rest with
  | case8 value later fresh ih =>
    obtain ⟨⟨values,left⟩,inner,equal⟩ := Option.map_eq_some_iff.mp scanned
    have less := ih inner
    cases equal
    simp
    omega
  | _ => grind

theorem parts_consume {text head rest : List Char} {arguments : List (List Char)}
    (scanned : scanParts text = some (head,arguments,rest)) : rest.length < text.length := by
  have shorter : (text.dropWhile isHeadChar).length ≤ text.length :=
    (List.dropWhile_sublist _).length_le
  unfold scanParts at scanned
  split at scanned
  · rename_i after found
    rw [found] at shorter
    cases scanned
    simp at shorter
    omega
  · rename_i after found
    rw [found] at shorter
    obtain ⟨⟨values,left⟩,inner,equal⟩ := Option.map_eq_some_iff.mp scanned
    have less := arguments_consume inner
    cases equal
    simp at shorter
    omega
  · cases scanned

theorem tag_consumes {text : List Char} {tag : Lexeme} (scanned : scanTag text = some tag) :
    tag.rest.length < text.length := by
  unfold scanTag at scanned
  split at scanned
  · cases scanned
  · rename_i parts
    split at scanned
    · cases scanned
      exact parts_consume parts
    · cases scanned

-- Where a tag stands: its lowercased name, its text with the brackets, and the
-- byte offset of its opening bracket.
structure Site where
  name : String
  source : String
  position : Nat
  deriving DecidableEq, Repr

inductive Token where
  | text (content : String)
  | opening (site : Site) (arguments : List String)
  | closing (site : Site)
  deriving DecidableEq, Repr

-- A closing tag takes no arguments; any written on it are dropped.
def Lexeme.token (tag : Lexeme) (position : Nat) : Token :=
  let site := ⟨String.ofList tag.name,String.ofList tag.source,position⟩
  if tag.closing then .closing site
  else .opening site (tag.arguments.map String.ofList)

def textToken : List Char → List Token
  | [] => []
  | run => [.text (String.ofList run.reverse)]

-- A backslash escapes `<` and itself. A `<` that starts no tag is text.
def tokensFrom (position : Nat) (run : List Char) : List Char → List Token
  | [] => textToken run
  | '\\' :: '<' :: rest => tokensFrom (position + 2) ('<' :: run) rest
  | '\\' :: '\\' :: rest => tokensFrom (position + 2) ('\\' :: run) rest
  | '<' :: rest =>
    match _scanned : scanTag rest with
    | some tag => textToken run ++
        tag.token position :: tokensFrom (position + Text.byteLength tag.source) [] tag.rest
    | none => tokensFrom (position + 1) ('<' :: run) rest
  | c :: rest => tokensFrom (position + c.utf8Size) (c :: run) rest
termination_by text => text.length
decreasing_by
  · exact Nat.lt_succ_of_lt (Nat.lt_succ_self _)
  · exact Nat.lt_succ_of_lt (Nat.lt_succ_self _)
  · exact Nat.lt_succ_of_lt (tag_consumes _scanned)
  · exact Nat.lt_succ_self _
  · exact Nat.lt_succ_self _

-- Splits a template into text and tags. Nothing is refused: what forms no tag
-- stays text.
def tokenize (template : String) : List Token := tokensFrom 0 [] template.toList

end Phrasebook.Template
