import Phrasebook.Text.Basic
namespace Phrasebook.Storage

-- Why there is nothing to read. `system` is any other refusal, in the words of
-- the system.
inductive ReadFault where
  | absent
  | blocked
  | directory
  | notUtf8
  | tooLong
  | system (message : String)
  deriving DecidableEq, Repr

def ReadFault.message : ReadFault → String
  | .absent => "No such file or directory (os error 2)"
  | .blocked => "Not a directory (os error 20)"
  | .directory => "Is a directory (os error 21)"
  | .notUtf8 => "stream did not contain valid UTF-8"
  | .tooLong => "File name too long (os error 36)"
  | .system message => message

-- Files as a value: what stands under a directory, as the system answers for it.
-- Names are bytes and need not be text. Entries are listed in some order that is
-- the system's.
inductive FileTree where
  | file (content : ByteArray)
  -- There is something, but it cannot be read.
  | refused (reason : ReadFault)
  -- The system does not even say what is there, as behind a broken link.
  | lost (reason : ReadFault)
  | directory (entries : List (List UInt8 × FileTree))
  -- The listing breaks off after so many entries.
  | unlisted (entries : List (List UInt8 × FileTree)) (shown : Nat) (reason : ReadFault)

abbrev Place := FileTree

namespace FileTree

@[match_pattern] def absent : FileTree := .lost .absent

def empty : FileTree := .directory []

def entries? : FileTree → Option (List (List UInt8 × FileTree))
  | .directory entries => some entries
  | .unlisted entries _ _ => some entries
  | _ => none

def withEntries (entries : List (List UInt8 × FileTree)) : FileTree → FileTree
  | .unlisted _ shown reason => .unlisted entries shown reason
  | _ => .directory entries

-- A directory that cannot be opened does not tell that it is one.
def bytes : FileTree → Except ReadFault ByteArray
  | .file content => .ok content
  | .refused reason => .error reason
  | .lost reason => .error reason
  | .directory _ => .error .directory
  | .unlisted _ 0 reason => .error reason
  | .unlisted _ (_ + 1) _ => .error .directory

def beyond : FileTree → Place
  | .lost reason => .lost reason
  | _ => .lost .blocked

-- The system takes no longer names and no longer paths, in bytes.
def longestName : Nat := 255

def longestPath : Nat := 4095

-- Walks down from `here`, with the directories around it at hand for `..`. An
-- empty step stays, and needs a directory to stay in.
def walk (above : List FileTree) (here : FileTree) : List String → Place
  | [] => here
  | step :: rest => match here.entries? with
    | none => here.beyond
    | some entries =>
      if step = "" ∨ step = "." then walk above here rest
      else if step = ".." then match above with
        | [] => .absent
        | parent :: others => walk others parent rest
      else match entries.lookup (Text.utf8 step) with
        | some child => walk (here :: above) child rest
        | none => .lost (if longestName < step.utf8ByteSize then .tooLong else .absent)

def steps (path : String) : List String := (Text.splitOn '/' path.toList).map String.ofList

def reached (path : String) (place : Place) : Place :=
  if longestPath < path.utf8ByteSize then .lost .tooLong else place

def look (tree : FileTree) (path : String) : Place :=
  if path.isEmpty || path.toList.head? == some '/' then .absent
  else (walk [] tree (steps path)).reached path

def putEntry (name : List UInt8) (child : FileTree) :
    List (List UInt8 × FileTree) → List (List UInt8 × FileTree)
  | [] => [(name,child)]
  | entry :: rest =>
    if entry.1 = name then (name,child) :: rest else entry :: putEntry name child rest

def putAt (new : FileTree) : List String → FileTree → FileTree
  | [],_ => new
  | step :: rest,tree =>
    let entries := tree.entries?.getD []
    let child := (entries.lookup (Text.utf8 step)).getD empty
    tree.withEntries (putEntry (Text.utf8 step) (putAt new rest child) entries)

def removeAt : List String → FileTree → FileTree
  | [],tree => tree
  | step :: rest,tree =>
    let entries := tree.entries?.getD []
    match entries.lookup (Text.utf8 step) with
    | none => tree
    | some child =>
      if rest.isEmpty then tree.withEntries (entries.filter (·.1 != Text.utf8 step))
      else tree.withEntries (putEntry (Text.utf8 step) (removeAt rest child) entries)

def namedSteps (path : String) : List String :=
  (steps path).filter fun step => step != "" && step != "."

def put (tree : FileTree) (path : String) (new : FileTree) : FileTree :=
  putAt new (namedSteps path) tree

def remove (tree : FileTree) (path : String) : FileTree := removeAt (namedSteps path) tree

end FileTree

def join (directory name : String) : String :=
  if directory.toList.getLast? = some '/' then directory ++ name else directory ++ "/" ++ name

def dot : UInt8 := 0x2E

-- A name is cut at its last dot, unless nothing stands before it.
def cutName (name : List UInt8) : Option (List UInt8 × List UInt8) :=
  match name.reverse.dropWhile (· ≠ dot) with
  | _ :: stem =>
    if stem.isEmpty then none
    else some (stem.reverse,(name.reverse.takeWhile (· ≠ dot)).reverse)
  | [] => none

end Phrasebook.Storage
