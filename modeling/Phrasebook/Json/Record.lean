import Phrasebook.Json.Value
namespace Phrasebook.Json

-- Passing over a value that nobody asked for. Its brackets have to match, with
-- no limit on their number, and its scalars have to be well formed.

def skipScalar (text : List Char) : Except Fault (List Char) :=
  match text with
  | [] => .error .truncated
  | 'n' :: rest => (readWord ['u','l','l'] rest).map (·.2)
  | 't' :: rest => (readWord ['r','u','e'] rest).map (·.2)
  | 'f' :: rest => (readWord ['a','l','s','e'] rest).map (·.2)
  | '"' :: rest => skipString rest
  | c :: rest => if c = '-' ∨ c.isDigit then skipNumber (c :: rest) else .error .malformed

mutual
def skip : Nat → List Char → Except Fault (List Char)
  | 0,_ => .error .truncated
  | fuel + 1,text => match skipSpace text with
    | '[' :: rest => skipElements fuel true rest
    | '{' :: rest => skipMembers fuel true rest
    | rest => skipScalar rest
def skipElements : Nat → Bool → List Char → Except Fault (List Char)
  | 0,_,_ => .error .truncated
  | fuel + 1,first,text => do
    let (more,text) ← nextElement first text
    if more then skipElements fuel false (← skip fuel text) else endArray text
def skipMembers : Nat → Bool → List Char → Except Fault (List Char)
  | 0,_,_ => .error .truncated
  | fuel + 1,first,text => do
    let (more,text) ← nextKey first text
    if more then
      let text ← readColon (← skipString text)
      skipMembers fuel false (← skip fuel text)
    else .ok text
end

-- Every second step takes a character at least.
def skipValue (text : List Char) : Except Fault (List Char) := skip (2 * text.length + 2) text

-- Readers for values of a known shape. A scalar of another shape is still read
-- to its end, so that a mistake inside it is found first.

def readScalarAs (convert : Scalar → Option α) : Reader α := fun text => do
  let (scalar,rest) ← readScalar text
  match scalar.bind convert with
  | some value => .ok (value,rest)
  | none => .error .mismatch

def readText : Reader String := readScalarAs fun
  | .string value => some value
  | _ => none

def readFlag : Reader Bool := readScalarAs fun
  | .bool value => some value
  | _ => none

def readCount : Reader Nat := readScalarAs fun
  | .number (.unsigned value) => some value
  | _ => none

def readNull : Reader Unit := readScalarAs fun
  | .null => some ()
  | _ => none

def readOptional (reader : Reader α) : Reader (Option α) := fun text =>
  match skipSpace text with
  | 'n' :: rest => (readWord ['u','l','l'] rest).map fun (_,rest) => (none,rest)
  | text => (reader text).map fun (value,rest) => (some value,rest)

def readArray (depth : Nat) (item : Reader α) : Reader (List α) := fun text => do
  match ← readScalar text with
  | (none,'[' :: rest) =>
    if depth = 0 then .error .malformed else readElements item rest.length.succ true rest
  | _ => .error .mismatch

-- One of a few names, as a string or as the only key of an object whose value
-- is null.
def readVariant (depth : Nat) (ofName? : String → Option α) : Reader α := fun text =>
  match skipSpace text with
  | [] => .error .truncated
  | '"' :: rest => do
    let (name,rest) ← readString rest
    .ok (← known name,rest)
  | '{' :: rest => do
    if depth = 0 then .error .malformed
    let (name,rest) ← readOnlyKey rest
    let value ← known name
    let ((),rest) ← readNull (← readColon rest)
    match skipSpace rest with
    | [] => .error .truncated
    | '}' :: rest => .ok (value,rest)
    | _ => .error .malformed
  | _ => .error .malformed
where
  -- A value of another kind cannot stand here, so its shape does not matter.
  readOnlyKey : Reader String := fun text =>
    match skipSpace text with
    | [] => .error .truncated
    | '"' :: rest => readString rest
    | _ => .error .malformed
  known (name : String) : Except Fault α :=
    match ofName? name with
    | some value => .ok value
    | none => .error .mismatch

-- A record is an object with any of its fields, or an array of its first fields
-- in order.
def readRecord (depth : Nat) (start : σ) (member : σ → String → Reader σ) (elements : Reader σ) :
    Reader σ := fun text => do
  match ← readScalar text with
  | (none,c :: rest) =>
    if depth = 0 then .error .malformed
    else if c = '[' then
      let (state,rest) ← elements rest
      .ok (state,← endArray rest)
    else readMembers member rest.length.succ true start rest
  | _ => .error .mismatch

def readOnce (before : Option α) (reader : Reader α) : Reader (Option α) := fun text =>
  match before with
  | some _ => .error .mismatch
  | none => do
    let (value,rest) ← reader (← readColon text)
    .ok (some value,rest)

def skipMember (state : σ) : Reader σ := fun text => do
  .ok (state,← skipValue (← readColon text))

def readElement (first : Bool) (reader : Reader α) : Reader (Option α) := fun text => do
  let (more,text) ← nextElement first text
  if more then (reader text).map fun (value,rest) => (some value,rest) else .ok (none,text)

end Phrasebook.Json
