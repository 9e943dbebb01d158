namespace Phrasebook.Json

-- Reading JSON text front to back. A reader takes one thing off the text and
-- hands on the rest, so the first fault it meets is the one it reports.

inductive Fault where
  -- The text is not JSON, or JSON beyond the limits of this reader.
  | malformed
  | truncated
  -- The text is JSON so far, and of another shape than the one asked for.
  | mismatch
  deriving DecidableEq, Repr

abbrev Reader (α : Type) := List Char → Except Fault (α × List Char)

def isSpace (c : Char) : Bool := c == ' ' || c == '\n' || c == '\t' || c == '\r'

def skipSpace (text : List Char) : List Char := text.dropWhile isSpace

def readWord : List Char → Reader Unit
  | [],text => .ok ((),text)
  | _ :: _,[] => .error .truncated
  | expected :: word,c :: rest => if c = expected then readWord word rest else .error .malformed

def readAll (reader : Reader α) (text : String) : Except Fault α := do
  let (value,rest) ← reader text.toList
  if (skipSpace rest).isEmpty then .ok value else .error .malformed

def depthLimit : Nat := 127

-- Goes to the next element of an array: is there one? `first` says that none
-- was read yet. The closing bracket is left where it is.
def nextElement (first : Bool) (text : List Char) : Except Fault (Bool × List Char) :=
  match skipSpace text with
  | [] => .error .truncated
  | ']' :: rest => .ok (false,']' :: rest)
  | c :: rest =>
    if first then .ok (true,c :: rest)
    else if c = ',' then match skipSpace rest with
      | [] => .error .truncated
      | ']' :: _ => .error .malformed
      | next => .ok (true,next)
    else .error .malformed

def endArray (text : List Char) : Except Fault (List Char) :=
  match skipSpace text with
  | [] => .error .truncated
  | ']' :: rest => .ok rest
  | _ => .error .malformed

def nextKey (first : Bool) (text : List Char) : Except Fault (Bool × List Char) :=
  match skipSpace text with
  | [] => .error .truncated
  | '}' :: rest => .ok (false,rest)
  | c :: rest =>
    if first then if c = '"' then .ok (true,rest) else .error .malformed
    else if c = ',' then match skipSpace rest with
      | [] => .error .truncated
      | '"' :: rest => .ok (true,rest)
      | _ => .error .malformed
    else .error .malformed

def readColon (text : List Char) : Except Fault (List Char) :=
  match skipSpace text with
  | [] => .error .truncated
  | ':' :: rest => .ok rest
  | _ => .error .malformed

-- The elements up to the closing bracket. Each takes a character at least, so
-- the length of the text is fuel enough.
def readElements (item : Reader α) : Nat → Bool → Reader (List α)
  | 0,_,_ => .error .truncated
  | fuel + 1,first,text => do
    let (more,text) ← nextElement first text
    if more then
      let (value,text) ← item text
      let (values,text) ← readElements item fuel false text
      .ok (value :: values,text)
    else .ok ([],← endArray text)

end Phrasebook.Json
