import Phrasebook.CommandLine.Options
namespace Phrasebook.CommandLine

inductive Request where
  | render (key : String) (locale : Option String) (unparsed parsed : List String)
      (noPhrase fallback lines json : Bool)
  | lookup (key : String) (locale : Option String)
  | locales
  deriving DecidableEq, Repr

structure Invocation where
  config : Option String
  directory : Option String
  format : Option Storage.Format
  defaultLocale : Option String
  request : Request
  deriving DecidableEq, Repr

def formatOption : Opt :=
  ⟨"format",some 'f',true,false,fun name => (Storage.Format.ofName? name).isSome⟩

def sharedOptions : List Opt :=
  [.value "config" (some 'c'),.value "dir" (some 'd'),formatOption,.value "default-locale" none]

def localeOption : Opt := .value "locale" (some 'l')

def renderOptions : List Opt :=
  [localeOption,.values "set" (some 's'),.values "markup" (some 'm'),.flag "no-phrase",
   .flag "fallback",.flag "lines",.flag "json"]

def topLevel : Level := ⟨none,sharedOptions,0,["render","lookup","locales","help"]⟩

def levelOf : String → Option Level
  | "render" => some ⟨some "render",renderOptions ++ sharedOptions,1,[]⟩
  | "lookup" => some ⟨some "lookup",localeOption :: sharedOptions,1,[]⟩
  | "locales" => some ⟨some "locales",sharedOptions,0,[]⟩
  | _ => none

def readHelp : List String → Stop
  | [] => .help true none
  | [command] => if (topLevel.subcommands).contains command then .help true (some command) else .wrong
  | _ => .wrong

def readRequest (command : String) (given : Given) : Except Stop Request :=
  match command,given.positionals with
  | "render",[key] => .ok (.render key (given.get? "locale") (given.all "set") (given.all "markup")
      (given.has "no-phrase") (given.has "fallback") (given.has "lines") (given.has "json"))
  | "lookup",[key] => .ok (.lookup key (given.get? "locale"))
  | "locales",[] => .ok .locales
  | _,_ => .error .wrong

-- Of a shared option given at both places, the one after the subcommand counts.
def readInvocation (arguments : List String) : Except Stop Invocation := do
  let (outer,next) ← topLevel.read false (.ok .none) arguments
  match next with
  | none => .error .wrong
  | some (command,rest) => match levelOf command with
    | none => .error (readHelp rest)
    | some level => do
      let (inner,_) ← level.read false (.ok .none) rest
      let request ← readRequest command (← inner)
      let inner ← inner
      let outer ← outer
      let shared (name : String) := (inner.get? name).or (outer.get? name)
      .ok ⟨shared "config",shared "dir",(shared "format").bind Storage.Format.ofName?,
        shared "default-locale",request⟩

end Phrasebook.CommandLine
