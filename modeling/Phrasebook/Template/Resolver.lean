import Phrasebook.RichText.Node
import Phrasebook.Template.Token
import Phrasebook.Traced
namespace Phrasebook.Template

structure ArgumentRef where
  index : Nat
  value : String
  deriving DecidableEq, Repr

-- A template fails as a whole, at the tag that could not be handled.
inductive Failure where
  | tag (message : String) (site : Site) (argument : Option ArgumentRef)
  | depthExceeded (limit : Nat) (site : Site)
  deriving DecidableEq, Repr

namespace Failure

def site : Failure → Site
  | .tag _ site _ => site
  | .depthExceeded _ site => site

def argument : Failure → Option ArgumentRef
  | .tag _ _ argument => argument
  | .depthExceeded _ _ => none

def blame : Option ArgumentRef → String
  | some argument => " (argument " ++ toString (argument.index + 1) ++ ": '" ++ argument.value ++ "')"
  | none => ""

def located (site : Site) : String :=
  " in '" ++ site.source ++ "' at position " ++ toString site.position

def message : Failure → String
  | .tag text site argument => text ++ located site ++ blame argument
  | .depthExceeded limit site =>
    "Markup nested deeper than " ++ toString limit ++ " levels" ++ located site

end Failure

structure Arguments where
  values : List String
  position : Nat
  site : Site
  deriving DecidableEq, Repr

namespace Arguments

def ofList (site : Site) (values : List String) : Arguments := ⟨values,0,site⟩

def peek (arguments : Arguments) : Option String := arguments.values[arguments.position]?

def hasNext (arguments : Arguments) : Bool := arguments.position < arguments.values.length

def length (arguments : Arguments) : Nat := arguments.values.length

def isEmpty (arguments : Arguments) : Bool := arguments.values.isEmpty

def pop (arguments : Arguments) : Option String × Arguments :=
  match arguments.peek with
  | some value => (some value,{ arguments with position := arguments.position + 1 })
  | none => (none,arguments)

def popOr (arguments : Arguments) (message : String) : Except Failure (String × Arguments) :=
  match arguments.pop with
  | (some value,rest) => .ok (value,rest)
  | (none,_) => .error (.tag message arguments.site none)

def reset (arguments : Arguments) : Arguments := { arguments with position := 0 }

end Arguments

-- What a tag function is told about the tag it stands for. The depth counts the
-- parsed insertions around the tag.
structure Occurrence where
  site : Site
  depth : Nat
  deriving DecidableEq, Repr

namespace Occurrence

def failure (occurrence : Occurrence) (message : String) : Failure :=
  .tag message occurrence.site none

def argumentFailure (occurrence : Occurrence) (message : String) (index : Nat) (value : String) :
    Failure :=
  .tag message occurrence.site (some ⟨index,value⟩)

end Occurrence

-- What a tag contributes: a node inserted as it is and never read as markup,
-- markup read in place of the tag, or a span that lasts until it is closed.
inductive Tag where
  | insert (node : RichText.Node)
  | markup (text : String)
  | span (style : RichText.Style)

def Tag.text (content : String) : Tag := .insert (.text content)

-- The answer to one request, with the arguments as they were left. No tag means
-- that the resolver declines.
structure Reply where
  calls : List String
  outcome : Except Failure (Option Tag)
  arguments : Arguments

structure Resolver where
  has : String → Bool
  resolve : String → Arguments → Occurrence → Reply

-- A resolver is asked only for names it claims.
def Resolver.request (resolver : Resolver) (depth : Nat) (site : Site) (arguments : List String) :
    Traced Failure (Option Tag) :=
  if resolver.has site.name then
    let reply := resolver.resolve site.name (Arguments.ofList site arguments) ⟨site,depth⟩
    ⟨reply.calls,reply.outcome⟩
  else .ok none

end Phrasebook.Template
