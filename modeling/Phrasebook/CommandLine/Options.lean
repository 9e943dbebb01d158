import Phrasebook.Storage.Messages
import Phrasebook.Text.Basic
namespace Phrasebook.CommandLine

-- Options as they may be written: `--name value`, `--name=value`, `-n value`,
-- `-nvalue`, `-n=value`. After `--` everything is positional.

structure Opt where
  name : String
  short : Option Char
  takesValue : Bool
  repeats : Bool
  admits : String → Bool

def Opt.value (name : String) (short : Option Char) : Opt := ⟨name,short,true,false,fun _ => true⟩

def Opt.values (name : String) (short : Option Char) : Opt := ⟨name,short,true,true,fun _ => true⟩

def Opt.flag (name : String) : Opt := ⟨name,none,false,false,fun _ => true⟩

inductive Stop where
  | wrong
  | help (long : Bool) (command : Option String)
  | version
  deriving DecidableEq, Repr

structure Level where
  command : Option String
  options : List Opt
  positionals : Nat
  subcommands : List String

structure Given where
  values : List (String × String)
  positionals : List String
  deriving DecidableEq, Repr

namespace Given

def none : Given := ⟨[],[]⟩

def all (given : Given) (name : String) : List String :=
  (given.values.filter (·.1 == name)).map (·.2)

def get? (given : Given) (name : String) : Option String := (given.all name).head?

def has (given : Given) (name : String) : Bool := !(given.all name).isEmpty

-- Most options may be given once.
def accept (given : Given) (opt : Opt) (value : String) : Except Stop Given :=
  if !opt.admits value || (given.has opt.name && !opt.repeats) then .error .wrong
  else .ok { given with values := given.values ++ [(opt.name,value)] }

def acceptPositional (given : Given) (limit : Nat) (value : String) : Except Stop Given :=
  if given.positionals.length < limit then
    .ok { given with positionals := given.positionals ++ [value] }
  else .error .wrong

end Given

inductive Argument where
  | escape
  | long (name : String) (value : Option String)
  | short (letter : Char) (value : Option String)
  | plain (value : String)
  deriving DecidableEq, Repr

def splitAssignment (text : List Char) : String × Option String :=
  match text.dropWhile (· ≠ '=') with
  | _ :: value => (String.ofList (text.takeWhile (· ≠ '=')),some (String.ofList value))
  | [] => (String.ofList text,none)

def Argument.ofString (text : String) : Argument :=
  match text.toList with
  | ['-','-'] => .escape
  | '-' :: '-' :: rest => .long (splitAssignment rest).1 (splitAssignment rest).2
  | ['-',letter] => .short letter none
  | '-' :: letter :: '=' :: rest => .short letter (some (String.ofList rest))
  | '-' :: letter :: rest => .short letter (some (String.ofList rest))
  | _ => .plain text

def Level.long? (level : Level) (name : String) : Option Opt := level.options.find? (·.name == name)

def Level.short? (level : Level) (letter : Char) : Option Opt :=
  level.options.find? (·.short == some letter)

-- The option that an argument names. Help can be asked for everywhere and the
-- version at the top.
def Level.option (level : Level) : Argument → Except Stop (Opt × Option String)
  | .long name value => match level.long? name with
    | some opt => .ok (opt,value)
    | none =>
      if value.isSome then .error .wrong
      else if name = "help" then .error (.help true level.command)
      else if name = "version" ∧ level.command.isNone then .error .version
      else .error .wrong
  | .short letter value => match level.short? letter with
    | some opt => .ok (opt,value)
    | none =>
      if letter = 'h' then .error (.help false level.command)
      else if letter = 'V' ∧ level.command.isNone then .error .version
      else .error .wrong
  | _ => .error .wrong

-- Reads up to the end or up to a subcommand, which comes back with what follows.
-- A value that stands apart from its option is looked at when reading goes on;
-- a subcommand right behind it comes first.
def Level.read (level : Level) (escaped : Bool) (given : Except Stop Given) :
    List String → Except Stop (Except Stop Given × Option (String × List String))
  | [] => .ok (given,none)
  | text :: rest =>
    if escaped then do
      level.read true (.ok (← (← given).acceptPositional level.positionals text)) rest
    else if level.subcommands.contains text then .ok (given,some (text,rest))
    else match Argument.ofString text with
      | .escape => level.read true given rest
      | .plain value => do
        level.read false (.ok (← (← given).acceptPositional level.positionals value)) rest
      | argument => do
        let given ← given
        let (opt,attached) ← level.option argument
        if opt.takesValue then match attached with
          | some value => level.read false (.ok (← given.accept opt value)) rest
          | none => match rest with
            | [] => .error .wrong
            | next :: later => match Argument.ofString next with
              | .plain value => level.read false (given.accept opt value) later
              | _ => .error .wrong
        else if attached.isSome then .error .wrong
        else level.read false (.ok (← given.accept opt "")) rest

end Phrasebook.CommandLine
