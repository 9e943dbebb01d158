import Phrasebook.Json.Reader
import Phrasebook.Text.Basic
namespace Phrasebook.Json

-- String literals, from after the opening quote.

inductive Piece where
  | char (c : Char)
  | unit (code : Nat)
  -- The last piece is the closing quote with what follows it, or a fault.
  | close (rest : List Char)
  | stop (fault : Fault)

def shortEscape? (c : Char) : Option Char :=
  if c = '"' ∨ c = '\\' ∨ c = '/' then some c
  else if c = 'b' then some '\x08'
  else if c = 'f' then some '\x0c'
  else if c = 'n' then some '\n'
  else if c = 'r' then some '\r'
  else if c = 't' then some '\t'
  else none

-- Four bytes are taken for an escape before they are looked at.
def cutShort (digits : List Char) : Fault :=
  if Text.byteLength digits < 4 then .truncated else .malformed

def pieces : List Char → List Piece
  | [] => [.stop .truncated]
  | '"' :: rest => [.close rest]
  | '\\' :: 'u' :: a :: b :: c :: d :: rest =>
    match Text.hexValue? [a,b,c,d] with
    | some code => .unit code :: pieces rest
    | none => [.stop .malformed]
  | '\\' :: 'u' :: digits => [.stop (cutShort digits)]
  | '\\' :: c :: rest => match shortEscape? c with
    | some meant => .char meant :: pieces rest
    | none => [.stop .malformed]
  | ['\\'] => [.stop .truncated]
  | c :: rest => if c.toNat < 0x20 then [.stop .malformed] else .char c :: pieces rest

def decodePieces : List Piece → Except Fault (List Char × List Char)
  | [] => .error .truncated
  | .close rest :: _ => .ok ([],rest)
  | .stop fault :: _ => .error fault
  | .char c :: rest => (decodePieces rest).map fun (text,rest) => (c :: text,rest)
  | .unit code :: rest =>
    if Text.isHighSurrogate code then match rest with
      | .unit low :: later =>
        if Text.isLowSurrogate low then
          (decodePieces later).map fun (text,rest) => (Text.pairedChar code low :: text,rest)
        else .error .malformed
      | .stop fault :: _ => .error fault
      | _ => .error .malformed
    else if Text.isLowSurrogate code then .error .malformed
    else (decodePieces rest).map fun (text,rest) => (Char.ofNat code :: text,rest)

def readString : Reader String := fun text =>
  (decodePieces (pieces text)).map fun (content,rest) => (String.ofList content,rest)

-- A string that nobody asked for only has to end; its surrogates do not matter.
def skipPieces : List Piece → Except Fault (List Char)
  | [] => .error .truncated
  | .close rest :: _ => .ok rest
  | .stop fault :: _ => .error fault
  | _ :: rest => skipPieces rest

def skipString (text : List Char) : Except Fault (List Char) := skipPieces (pieces text)

end Phrasebook.Json
