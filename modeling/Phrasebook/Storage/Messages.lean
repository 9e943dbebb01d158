import Phrasebook.Json.Value
import Phrasebook.Properties.Parse
import Phrasebook.Storage.Files
import Phrasebook.Text.Lowercase
namespace Phrasebook.Storage

-- A message directory holds one file for each locale, all of one format.
inductive Format where
  | properties
  | json
  deriving DecidableEq, Repr

namespace Format

def name : Format → String
  | .properties => "properties"
  | .json => "json"

def extension (format : Format) : String := format.name

def ofName? : String → Option Format
  | "properties" => some .properties
  | "json" => some .json
  | _ => none

-- Blanks around the name and its case do not matter. A name that is not known
-- comes back as it was understood.
def parse (text : String) : Except String Format :=
  let name := String.ofList (Text.lower (Text.trim text.toList))
  match ofName? name with
  | some format => .ok format
  | none => .error ("Unknown translation format: " ++ name)

end Format

-- Why a source could not be loaded. A failed load changes nothing.
inductive Fault where
  | missingDirectory (path : String)
  | notADirectory (path : String)
  | unreadable (path : String) (reason : ReadFault)
  | malformed (path : String) (line : Nat) (message : String)
  | json (path : String) (reason : Json.Fault)
  | invalidFileName (path : String)
  | source (name message : String)
  deriving DecidableEq, Repr

def jsonReason : Json.Fault → String
  | .malformed => "the text is not JSON"
  | .truncated => "the text ends too early"
  | .mismatch => "the text has another shape"

namespace Fault

def message : Fault → String
  | .missingDirectory path => "Directory not found: " ++ path
  | .notADirectory path => "Path is not a directory: " ++ path
  | .unreadable path reason => "Failed to read '" ++ path ++ "': " ++ reason.message
  | .malformed path line text =>
    "Malformed entry in '" ++ path ++ "' at line " ++ toString line ++ ": " ++ text
  | .json path reason => "Failed to parse JSON from '" ++ path ++ "': " ++ jsonReason reason
  | .invalidFileName path => "Invalid file name: " ++ path
  | .source name text => "Translation source '" ++ name ++ "' failed: " ++ text

def cause : Fault → Option String
  | .unreadable _ reason => some reason.message
  | .json _ reason => some (jsonReason reason)
  | _ => none

end Fault

-- The messages of a JSON document: members that are strings or lists of strings.

def stringOf? : Json.Value → Option String
  | .scalar (.string value) => some value
  | _ => none

def messageOf? : Json.Value → Option String
  | .scalar (.string value) => some value
  | .array values => (values.mapM stringOf?).map fun members => "\n".intercalate members
  | _ => none

def isMetadata (key : String) : Bool := key.toList.head? == some '@'

-- The last member of a name decides, whatever it holds.
def addMember (messages : Messages) (member : String × Json.Value) : Messages :=
  if isMetadata member.1 then messages
  else match messageOf? member.2 with
    | some message => messages.insert member.1 message
    | none => messages.erase member.1

def messagesOf? : Json.Value → Option Messages
  | .object members => some (members.foldl addMember ∅)
  | _ => none

def parseProperties (path content : String) : Except Fault Messages :=
  match Properties.parse content with
  | .ok messages => .ok messages
  | .error fault => .error (.malformed path fault.line fault.message)

def parseJson (path content : String) : Except Fault Messages :=
  match Json.Value.parse content with
  | .error fault => .error (.json path fault)
  | .ok value => match messagesOf? value with
    | some messages => .ok messages
    | none => .error (.malformed path 1 "root must be an object")

-- A properties file that is not UTF-8 is taken for ISO-8859-1; a JSON file has
-- no other reading.
def readMessages (format : Format) (path : String) (content : ByteArray) : Except Fault Messages :=
  match format,Text.decodeUtf8 content with
  | .properties,some text => parseProperties path text
  | .properties,none => parseProperties path (Text.decodeLatin1 content)
  | .json,some text => parseJson path text
  | .json,none => .error (.unreadable path .notUtf8)

end Phrasebook.Storage
