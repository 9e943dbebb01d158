namespace Phrasebook.CommandLine

-- The standing answers: the version and the help, in a short and a long form.
-- The long form says what the choices of an option mean.

def versionText : String := "miniphrase 0.1.0\n"

structure OptionHelp where
  label : String
  text : String
  choices : List (String × String)

def configHelp : OptionHelp :=
  ⟨"-c, --config <config>","JSON config file; MINIPHRASE_* variables override it",[]⟩

def localeHelp : OptionHelp :=
  ⟨"-l, --locale <locale>","Target locale (default: the configured default locale)",[]⟩

def directoryHelp : OptionHelp := ⟨"-d, --dir <dir>","Translations directory",[]⟩

def formatHelp : OptionHelp :=
  ⟨"-f, --format <format>","Translation file format",
   [("properties","One `<locale>.properties` file per locale"),
    ("json","One `<locale>.json` file per locale")]⟩

def defaultLocaleHelp : OptionHelp :=
  ⟨"    --default-locale <default-locale>","Locale used when none is given",[]⟩

def sharedHelp : List OptionHelp := [configHelp,directoryHelp,formatHelp,defaultLocaleHelp]

def lookupHelp : List OptionHelp :=
  [configHelp,localeHelp,directoryHelp,formatHelp,defaultLocaleHelp]

def renderHelp : List OptionHelp :=
  [configHelp,localeHelp,directoryHelp,
   ⟨"-s, --set <set>","Unparsed placeholder, name=value",[]⟩,
   formatHelp,
   ⟨"-m, --markup <markup>","Parsed placeholder, name=value",[]⟩,
   defaultLocaleHelp,
   ⟨"    --no-phrase","Do not install the phrase tag",[]⟩,
   ⟨"    --fallback","Fall back to the default locale for missing translations",[]⟩,
   ⟨"    --lines","Render a list translation line by line",[]⟩,
   ⟨"    --json","Print the text tree as JSON",[]⟩]

def standingHelp (long : Bool) : OptionHelp :=
  ⟨"-h, --help",
   if long then "Print help (see a summary with '-h')" else "Print help (see more with '--help')",[]⟩

def commandHelp : List (String × String) :=
  [("render","Render a message"),
   ("lookup","Print the raw template of a message"),
   ("locales","List the locales with translations"),
   ("help","Print this message or the help of the given subcommand(s)")]

def pad (width : Nat) (text : String) : String :=
  text ++ String.ofList (List.replicate (width - text.length) ' ')

def widest (labels : List String) : Nat := (labels.map String.length).foldl max 0

def shortOption (option : OptionHelp) : String :=
  let choices := if option.choices.isEmpty then ""
    else " [possible values: " ++ ", ".intercalate (option.choices.map (·.1)) ++ "]"
  "  " ++ option.label ++ "\n          " ++ option.text ++ choices ++ "\n"

def longChoices (choices : List (String × String)) : String :=
  let width := widest (choices.map (·.1)) + 1
  if choices.isEmpty then ""
  else "\n          Possible values:\n" ++ String.join (choices.map fun choice =>
    "          - " ++ pad width (choice.1 ++ ":") ++ " " ++ choice.2 ++ "\n")

def longOption (option : OptionHelp) : String :=
  "  " ++ option.label ++ "\n          " ++ option.text ++ "\n" ++ longChoices option.choices

def optionSection (long : Bool) (options : List OptionHelp) : String :=
  "Options:\n" ++
    if long then "\n".intercalate (options.map longOption)
    else String.join (options.map shortOption)

def topHelp (long : Bool) : String :=
  "Render localized rich-text messages from a translations directory\n\n" ++
  "Usage: miniphrase [OPTIONS] <COMMAND>\n\nCommands:\n" ++
  String.join (commandHelp.map fun command =>
    "  " ++ pad (widest (commandHelp.map (·.1))) command.1 ++ "  " ++ command.2 ++ "\n") ++
  "\n" ++ optionSection long (sharedHelp ++ [standingHelp long,⟨"-V, --version","Print version",[]⟩])

def keySection (long : Bool) : String :=
  if long then "Arguments:\n  <key>\n          \n\n" else "Arguments:\n  <key>  \n\n"

def helpText (long : Bool) : Option String → String
  | some "render" => "Render a message\n\nUsage: miniphrase render [OPTIONS] <key>\n\n" ++
      keySection long ++ optionSection long (renderHelp ++ [standingHelp long])
  | some "lookup" =>
      "Print the raw template of a message\n\nUsage: miniphrase lookup [OPTIONS] <key>\n\n" ++
      keySection long ++ optionSection long (lookupHelp ++ [standingHelp long])
  | some "locales" =>
      "List the locales with translations\n\nUsage: miniphrase locales [OPTIONS]\n\n" ++
      optionSection long (sharedHelp ++ [standingHelp long])
  | some _ => "Print this message or the help of the given subcommand(s)\n\n" ++
      "Usage: miniphrase help [COMMAND]...\n\n" ++
      "Arguments:\n  [COMMAND]...  Print help for the subcommand(s)\n"
  | none => topHelp long

end Phrasebook.CommandLine
