import Phrasebook.Json.Record
import Phrasebook.RichText.Node
namespace Phrasebook.RichText
open Json

-- Nodes as JSON records. A field that says nothing is left out when writing and
-- may be left out when reading.

namespace Style

structure Fields where
  color : Option (Option Color)
  decorations : Option (List Decoration)

def Fields.style (fields : Fields) : Style :=
  ⟨fields.color.getD none,Decorations.ofList (fields.decorations.getD [])⟩

def colorNamed? (name : String) : Option Color := Color.all.find? (·.name == name)

def decorationNamed? (name : String) : Option Decoration := Decoration.all.find? (·.name == name)

def readColor (depth : Nat) : Reader (Option Color) := readOptional (readVariant depth colorNamed?)

def readDecorations (depth : Nat) : Reader (List Decoration) :=
  readArray depth (readVariant (depth - 1) decorationNamed?)

def readMember (depth : Nat) (fields : Fields) (name : String) : Reader Fields := fun text =>
  match name with
  | "color" => do
    let (color,rest) ← readOnce fields.color (readColor depth) text
    .ok ({ fields with color },rest)
  | "decorations" => do
    let (decorations,rest) ← readOnce fields.decorations (readDecorations depth) text
    .ok ({ fields with decorations },rest)
  | _ => skipMember fields text

def readElements (depth : Nat) : Reader Fields := fun text => do
  let (color,text) ← readElement true (readColor depth) text
  let (decorations,text) ← readElement false (readDecorations depth) text
  .ok (⟨color,decorations⟩,text)

def read (depth : Nat) : Reader Style := fun text => do
  let (fields,rest) ←
    readRecord depth ⟨none,none⟩ (readMember (depth - 1)) (readElements (depth - 1)) text
  .ok (fields.style,rest)

def toJson (style : Style) : Value :=
  .object
    ((style.color.map fun color => ("color",Value.scalar (.string color.name))).toList ++
      if style.decorations.isEmpty then []
      else [("decorations",.array (style.decorations.toList.map fun decoration =>
        .scalar (.string decoration.name)))])

end Style

namespace Node

structure Fields where
  content : Option String
  style : Option Style
  children : Option (List Node)

def Fields.node (fields : Fields) : Node :=
  ⟨fields.content.getD "",fields.style.getD .plain,fields.children.getD []⟩

def readMember (depth : Nat) (readChildren : Reader (List Node)) (fields : Fields) (name : String) :
    Reader Fields := fun text =>
  match name with
  | "content" => do
    let (content,rest) ← readOnce fields.content readText text
    .ok ({ fields with content },rest)
  | "style" => do
    let (style,rest) ← readOnce fields.style (Style.read depth) text
    .ok ({ fields with style },rest)
  | "children" => do
    let (children,rest) ← readOnce fields.children readChildren text
    .ok ({ fields with children },rest)
  | _ => skipMember fields text

def readElements (depth : Nat) (readChildren : Reader (List Node)) : Reader Fields := fun text => do
  let (content,text) ← readElement true readText text
  let (style,text) ← readElement false (Style.read depth) text
  let (children,text) ← readElement false readChildren text
  .ok (⟨content,style,children⟩,text)

def readWith (depth : Nat) (readChild : Reader Node) : Reader Node := fun text => do
  let readChildren := readArray (depth - 1) readChild
  let (fields,rest) ← readRecord depth ⟨none,none,none⟩ (readMember (depth - 1) readChildren)
    (readElements (depth - 1) readChildren) text
  .ok (fields.node,rest)

def read : Nat → Reader Node
  | depth + 2 => readWith (depth + 2) (read depth)
  | depth => readWith depth fun _ => .error .malformed

def ofJson (text : String) : Except Fault Node := readAll (read depthLimit) text

mutual
def toJson : Node → Value
  | ⟨content,style,children⟩ => .object
      ((if content.isEmpty then [] else [("content",.scalar (.string content))]) ++
        (if style.isEmpty then [] else [("style",style.toJson)]) ++
        if children.isEmpty then [] else [("children",.array (toJsonAll children))])
def toJsonAll : List Node → List Value
  | [] => []
  | node :: rest => node.toJson :: toJsonAll rest
end

end Node
end Phrasebook.RichText
