import Phrasebook.CommandLine.Run
namespace Phrasebook.CommandLine

-- The program looks at its variables and at two places, and prints what a run
-- over them answers.

def variableNames : List String :=
  [Settings.defaultLocaleVariable,Settings.directoryVariable,Settings.formatVariable,
   Settings.includePhraseTagVariable,Settings.fallbackVariable,Settings.maxDepthVariable]

def readVariables : IO (List (String × String)) :=
  variableNames.filterMapM fun name => do return (← IO.getEnv name).map fun value => (name,value)

def refusal (error : IO.Error) : Storage.ReadFault :=
  match error with
  | .noFileOrDirectory _ _ _ => .absent
  | .inappropriateType _ _ _ => .blocked
  | .permissionDenied _ code details => .system (details ++ " (os error " ++ toString code ++ ")")
  | other => .system (toString other)

def readFile (path : String) : BaseIO Storage.FileTree := do
  match ← (IO.FS.readBinFile path).toBaseIO with
  | .ok content => return .file content
  | .error error => return .refused (refusal error)

-- A directory is seen with the files that are wanted; what stands deeper is not
-- needed. Whatever the system refuses is part of the answer.
def readPlace (wanted : String → Bool) (path : String) : IO Storage.Place := do
  if path.isEmpty then return .absent
  let place := (← IO.currentDir) / path
  match ← place.metadata.toBaseIO with
  | .error error => return .lost (refusal error)
  | .ok data =>
    if data.type != .dir then readFile path
    else match ← place.readDir.toBaseIO with
      | .error error => return .unlisted [] 0 (refusal error)
      | .ok listed =>
        let entries ← (listed.toList.filter (wanted ·.fileName)).mapM fun entry => do
          if ← entry.path.isDir then return (Text.utf8 entry.fileName,.empty)
          else return (Text.utf8 entry.fileName,← readFile entry.path.toString)
        return .directory entries

def lookIn (places : List (String × Storage.Place)) (path : String) : Storage.Place :=
  (places.lookup path).getD .absent

-- The settings name the directory, so their file is read first.
def gatherPlaces (environment : String → Option String) (arguments : List String) :
    IO (List (String × Storage.Place)) := do
  match readInvocation arguments with
  | .error _ => return []
  | .ok invocation =>
    let files ← invocation.config.toList.mapM fun path => do
      return (path,← readPlace (fun _ => false) path)
    match invocation.settings (lookIn files) environment with
    | .error _ => return files
    | .ok settings =>
      let wanted (name : String) := name.endsWith ("." ++ settings.format.extension)
      let directories ← settings.directory.toList.mapM fun path => do
        return (path,← readPlace wanted path)
      return directories ++ files

end Phrasebook.CommandLine

open Phrasebook.CommandLine

def main (arguments : List String) : IO UInt32 := do
  let given ← readVariables
  let environment (name : String) := given.lookup name
  let places ← gatherPlaces environment arguments
  let output := run (lookIn places) environment arguments
  IO.print output.stdout
  IO.eprint output.stderr
  return output.exit.toUInt32
