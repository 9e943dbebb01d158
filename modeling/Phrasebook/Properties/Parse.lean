import Phrasebook.Catalog
import Phrasebook.Text.Basic
namespace Phrasebook.Properties

-- From the text of a file to its entries: physical lines are joined into logical
-- ones, and a logical line is split into key and value, both still escaped.

def stripReturn (line : List Char) : List Char :=
  if line.getLast? = some '\r' then line.dropLast else line

-- A line ends at a line feed, with a carriage return before it or not. The last
-- piece is a line only if there is something in it.
def closeLines : List (List Char) → List (List Char)
  | [] => []
  | [last] => if last.isEmpty then [] else [last]
  | line :: rest => stripReturn line :: closeLines rest

def physicalLines (content : List Char) : List (List Char) :=
  closeLines (Text.splitOn '\n' content)

def isSkipped (line : List Char) : Bool :=
  line.isEmpty || line.head? == some '#' || line.head? == some '!'

def continues (line : List Char) : Bool :=
  (line.reverse.takeWhile (· == '\\')).length % 2 == 1

structure LogicalLine where
  number : Nat
  text : List Char
  deriving DecidableEq, Repr

-- `pending` is an entry that goes on, without its last backslash. Blank lines
-- and comments are dropped only where an entry could start.
def gather (number : Nat) (pending : Option LogicalLine) : List (List Char) → List LogicalLine
  | [] => pending.toList
  | line :: rest =>
    let trimmed := Text.trimStart line
    match pending with
    | none =>
      if isSkipped trimmed then gather (number + 1) none rest
      else if continues trimmed then gather (number + 1) (some ⟨number,trimmed.dropLast⟩) rest
      else ⟨number,trimmed⟩ :: gather (number + 1) none rest
    | some entry =>
      let joined := entry.text ++ trimmed
      if continues joined then gather (number + 1) (some ⟨entry.number,joined.dropLast⟩) rest
      else ⟨entry.number,joined⟩ :: gather (number + 1) none rest

def logicalLines (content : List Char) : List LogicalLine :=
  gather 1 none (physicalLines content)

def isGap (c : Char) : Bool := c == ' ' || c == '\t' || c == '\x0c'

def isSeparator (c : Char) : Bool := c == '=' || c == ':'

def splitKey : List Char → List Char × List Char
  | [] => ([],[])
  | ['\\'] => (['\\'],[])
  | '\\' :: c :: rest =>
    let (key,value) := splitKey rest
    ('\\' :: c :: key,value)
  | c :: rest =>
    if isGap c || isSeparator c then ([],c :: rest)
    else
      let (key,value) := splitKey rest
      (c :: key,value)

def dropSeparator (text : List Char) : List Char :=
  match text.dropWhile isGap with
  | [] => []
  | c :: rest => if isSeparator c then rest.dropWhile isGap else c :: rest

def splitEntry (line : List Char) : List Char × List Char :=
  let (key,rest) := splitKey line
  (key,dropSeparator rest)

-- Escapes of the properties format. A backslash spells a control character, a
-- UTF-16 code unit (`\uXXXX`), or else the character after it.

inductive Piece where
  | char (c : Char)
  | unit (code : Nat)
  -- A `\u` without four hexadecimal digits, and what stands there instead.
  | malformed (digits : List Char)
  deriving DecidableEq, Repr

def control (c : Char) : Char :=
  if c = 'n' then '\n'
  else if c = 't' then '\t'
  else if c = 'r' then '\r'
  else if c = 'f' then '\x0c'
  else c

-- Reading stops at a malformed escape. A lone backslash at the end is nothing.
def pieces : List Char → List Piece
  | [] => []
  | '\\' :: 'u' :: a :: b :: c :: d :: rest =>
    match Text.hexValue? [a,b,c,d] with
    | some code => .unit code :: pieces rest
    | none => [.malformed [a,b,c,d]]
  | '\\' :: 'u' :: rest => [.malformed rest]
  | '\\' :: c :: rest => .char (control c) :: pieces rest
  | ['\\'] => []
  | c :: rest => .char c :: pieces rest

inductive EscapeFault where
  | malformed (digits : List Char)
  | unpaired (code : Nat)
  | invalid (code : Nat)
  deriving DecidableEq, Repr

def EscapeFault.message : EscapeFault → String
  | .malformed digits => "Malformed \\uXXXX escape: \\u" ++ String.ofList digits
  | .unpaired code => "Unpaired surrogate \\u" ++ String.ofList (Text.hexFour code)
  | .invalid code => "Invalid character code \\u" ++ String.ofList (Text.hexFour code)

-- A high surrogate has to be followed by a low one at once; a low one has no
-- other place.
def decode : List Piece → Except EscapeFault (List Char)
  | [] => .ok []
  | .char c :: rest => (decode rest).map (c :: ·)
  | .malformed digits :: _ => .error (.malformed digits)
  | .unit code :: rest =>
    if Text.isHighSurrogate code then match rest with
      | .unit low :: later =>
        if Text.isLowSurrogate low then (decode later).map (Text.pairedChar code low :: ·)
        else .error (.unpaired code)
      | _ => .error (.unpaired code)
    else if Text.isLowSurrogate code then .error (.invalid code)
    else (decode rest).map (Char.ofNat code :: ·)

def unescape (raw : List Char) : Except EscapeFault (List Char) := decode (pieces raw)

structure MalformedLine where
  line : Nat
  message : String
  deriving DecidableEq, Repr

def readEntry (entry : LogicalLine) : Except MalformedLine (String × String) :=
  let (key,value) := splitEntry entry.text
  match unescape key,unescape value with
  | .ok key,.ok value => .ok (String.ofList key,String.ofList value)
  | .error fault,_ => .error ⟨entry.number,fault.message⟩
  | .ok _,.error fault => .error ⟨entry.number,fault.message⟩

def parse (content : String) : Except MalformedLine Messages := do
  let entries ← (logicalLines content.toList).mapM readEntry
  return entries.foldl (fun messages entry => messages.insert entry.1 entry.2) ∅

end Phrasebook.Properties
