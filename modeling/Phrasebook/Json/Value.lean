import Phrasebook.Json.Number
import Phrasebook.Json.Text
namespace Phrasebook.Json

inductive Scalar where
  | null
  | bool (value : Bool)
  | number (value : Number)
  | string (value : String)
  deriving DecidableEq, Repr

inductive Value where
  | scalar (value : Scalar)
  | array (values : List Value)
  -- Members in the order of the text; a later one of a name overrides.
  | object (members : List (String × Value))

-- Anything that is no container. `none` stands for an opening bracket, which
-- is left where it is.
def readScalar : Reader (Option Scalar) := fun text =>
  match skipSpace text with
  | [] => .error .truncated
  | 'n' :: rest => (readWord ['u','l','l'] rest).map fun (_,rest) => (some .null,rest)
  | 't' :: rest => (readWord ['r','u','e'] rest).map fun (_,rest) => (some (.bool true),rest)
  | 'f' :: rest => (readWord ['a','l','s','e'] rest).map fun (_,rest) => (some (.bool false),rest)
  | '"' :: rest => (readString rest).map fun (value,rest) => (some (.string value),rest)
  | c :: rest =>
    if c = '[' ∨ c = '{' then .ok (none,c :: rest)
    else if c = '-' ∨ c.isDigit then
      (readNumber (c :: rest)).map fun (value,rest) => (some (.number value),rest)
    else .error .malformed

-- Members up to the closing brace, each put into the state by `member`, which
-- is given the name and reads from before the colon.
def readMembers (member : σ → String → Reader σ) : Nat → Bool → σ → Reader σ
  | 0,_,_,_ => .error .truncated
  | fuel + 1,first,state,text => do
    let (more,text) ← nextKey first text
    if more then
      let (name,text) ← readString text
      let (state,text) ← member state name text
      readMembers member fuel false state text
    else .ok (state,text)

def readMember (value : Reader α) (members : List (String × α)) (name : String) :
    Reader (List (String × α)) := fun text => do
  let (value,text) ← value (← readColon text)
  .ok (members ++ [(name,value)],text)

def readValue : Nat → Reader Value
  | 0,text => do
    match ← readScalar text with
    | (some value,rest) => .ok (.scalar value,rest)
    | (none,_) => .error .malformed
  | depth + 1,text => do
    match ← readScalar text with
    | (some value,rest) => .ok (.scalar value,rest)
    | (none,'[' :: rest) =>
      let (values,rest) ← readElements (readValue depth) rest.length.succ true rest
      .ok (.array values,rest)
    | (none,_ :: rest) =>
      let (members,rest) ← readMembers (readMember (readValue depth)) rest.length.succ true [] rest
      .ok (.object members,rest)
    | (none,[]) => .error .malformed

def Value.parse (text : String) : Except Fault Value := readAll (readValue depthLimit) text

-- Writing JSON on several lines, two blanks deeper inside each container.

def escapeChar (c : Char) : List Char :=
  if c = '"' then ['\\','"']
  else if c = '\\' then ['\\','\\']
  else if c = '\x08' then ['\\','b']
  else if c = '\x0c' then ['\\','f']
  else if c = '\n' then ['\\','n']
  else if c = '\r' then ['\\','r']
  else if c = '\t' then ['\\','t']
  else if c.toNat < 0x20 then '\\' :: 'u' :: Text.hexFour c.toNat
  else [c]

def quote (content : String) : List Char := '"' :: (content.toList.flatMap escapeChar ++ ['"'])

def Number.write : Number → List Char
  | .unsigned value => Nat.toDigits 10 value
  | .other => ['0']

def Scalar.write : Scalar → List Char
  | .null => ['n','u','l','l']
  | .bool true => ['t','r','u','e']
  | .bool false => ['f','a','l','s','e']
  | .number value => value.write
  | .string value => quote value

def newLine (level : Nat) : List Char := '\n' :: List.replicate (2 * level) ' '

mutual
def Value.prettyAt (level : Nat) : Value → List Char
  | .scalar value => value.write
  | .array [] => ['[',']']
  | .array (value :: rest) =>
    '[' :: (newLine (level + 1) ++ value.prettyAt (level + 1) ++ prettyValues (level + 1) rest ++
      newLine level ++ [']'])
  | .object [] => ['{','}']
  | .object ((name,value) :: rest) =>
    '{' :: (newLine (level + 1) ++ quote name ++ [':',' '] ++ value.prettyAt (level + 1) ++
      prettyMembers (level + 1) rest ++ newLine level ++ ['}'])
def prettyValues (level : Nat) : List Value → List Char
  | [] => []
  | value :: rest => ',' :: (newLine level ++ value.prettyAt level ++ prettyValues level rest)
def prettyMembers (level : Nat) : List (String × Value) → List Char
  | [] => []
  | (name,value) :: rest =>
    ',' :: (newLine level ++ quote name ++ [':',' '] ++ value.prettyAt level ++
      prettyMembers level rest)
end

def Value.pretty (value : Value) : String := String.ofList (value.prettyAt 0)

end Phrasebook.Json
