import Phrasebook.RichText.Node
import Phrasebook.Template.Resolver
namespace Phrasebook.Template
open RichText

-- Spans that are open, innermost first. Only the outermost, which stands for
-- the template itself, has no name.
structure Span where
  name : Option String
  style : Style
  children : List Node

namespace Span

def root : Span := ⟨none,Style.plain,[]⟩

def node (span : Span) : Node := .styled span.style span.children

end Span

def append (nodes : List Node) : List Span → List Span
  | [] => []
  | top :: rest => { top with children := top.children ++ nodes } :: rest

def foldTop : List Span → List Span
  | top :: outer :: rest => append [top.node] (outer :: rest)
  | spans => spans

def foldSpans : Nat → List Span → List Span
  | 0,spans => spans
  | count + 1,spans => foldSpans count (foldTop spans)

def foldAll (spans : List Span) : List Span := foldSpans (spans.length - 1) spans

def closeSpan (name : String) (spans : List Span) : Option (List Span) :=
  (spans.findIdx? fun span => span.name == some name).map fun index => foldSpans (index + 1) spans

def finish (spans : List Span) : List Node :=
  match foldAll spans with
  | outermost :: _ => outermost.children
  | [] => []

-- Turns a template into rich text. Names are looked up in the resolver first;
-- names that nobody claims are styles, `reset`, or plain text.
structure Engine where
  maxDepth : Nat

def Engine.standard : Engine := ⟨16⟩

def canonicalName (name : String) : String :=
  if name = "colour" ∨ name = "c" then "color"
  else match Decoration.ofName? name with
    | some decoration => decoration.name
    | none => name

def isColorTag (name : String) : Bool := name == "color" || name == "colour" || name == "c"

def builtinStyle (name : String) (arguments : List String) : Option Style :=
  match Decoration.ofName? name with
  | some decoration => some (.decorated decoration)
  | none =>
    if isColorTag name then (arguments.head?.bind Color.ofName?).map .colored
    else (Color.ofName? name).map .colored

-- `insertion` reads the markup of a parsed insertion, one level deeper.
def placeTag (insertion : Site → String → Traced Failure (List Node)) (site : Site) (spans : List Span) :
    Tag → Traced Failure (List Span)
  | .insert node => pure (append [node] spans)
  | .markup text => do return append (← insertion site text) spans
  | .span style => pure (⟨some (canonicalName site.name),style,[]⟩ :: spans)

def placeUnclaimed (site : Site) (arguments : List String) (spans : List Span) : List Span :=
  if site.name = "reset" then foldAll spans
  else match builtinStyle site.name arguments with
    | some style => ⟨some (canonicalName site.name),style,[]⟩ :: spans
    | none => append [.text site.source] spans

def step (resolver : Resolver) (depth : Nat) (insertion : Site → String → Traced Failure (List Node))
    (spans : List Span) : Token → Traced Failure (List Span)
  | .text content => pure (append [.text content] spans)
  | .opening site arguments => do
    match ← resolver.request depth site arguments with
    | some tag => placeTag insertion site spans tag
    | none => return placeUnclaimed site arguments spans
  | .closing site =>
    pure ((closeSpan (canonicalName site.name) spans).getD (append [.text site.source] spans))

def readTokens (resolver : Resolver) (depth : Nat) (insertion : Site → String → Traced Failure (List Node))
    (template : String) : Traced Failure (List Node) := do
  return finish (← (tokenize template).foldlM (step resolver depth insertion) [Span.root])

-- `remaining` counts the levels of insertion still allowed below this template,
-- which has spans of its own.
def readNodes (resolver : Resolver) (limit : Nat) : Nat → String → Traced Failure (List Node)
  | 0,template =>
    readTokens resolver limit (fun site _ => .fail (.depthExceeded limit site)) template
  | remaining + 1,template =>
    readTokens resolver (limit - (remaining + 1))
      (fun _ markup => readNodes resolver limit remaining markup) template

def Engine.parse (engine : Engine) (template : String) (resolver : Resolver) : Traced Failure Node := do
  let nodes ← readNodes resolver engine.maxDepth engine.maxDepth template
  return (Node.styled .plain nodes).compact

end Phrasebook.Template
