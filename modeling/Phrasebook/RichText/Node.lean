import Phrasebook.RichText.Style
namespace Phrasebook.RichText

-- A node of rendered text: its own content first, then its children in order.
-- Children inherit the style.
structure Node where
  content : String
  style : Style
  children : List Node

namespace Node

def text (content : String) : Node := ⟨content,Style.plain,[]⟩

def styled (style : Style) (children : List Node) : Node := ⟨"",style,children⟩

def empty : Node := text ""

mutual
def plainText : Node → String
  | ⟨content,_,children⟩ => content ++ plainTexts children
def plainTexts : List Node → String
  | [] => ""
  | node :: rest => node.plainText ++ plainTexts rest
end

def isPlain (node : Node) : Bool := node.style.isEmpty && node.children.isEmpty

def isBlank (node : Node) : Bool := node.isPlain && node.content.isEmpty

-- Joins what need not stand apart: empty plain nodes go away and neighbouring
-- plain nodes become one.
def merge : List Node → List Node
  | [] => []
  | node :: rest =>
    if node.isBlank then merge rest
    else match merge rest with
      | [] => [node]
      | next :: others =>
        if node.isPlain && next.isPlain then text (node.content ++ next.content) :: others
        else node :: next :: others

def absorb (content : String) (children : List Node) : String × List Node :=
  match children with
  | [] => (content,[])
  | first :: rest =>
    if content.isEmpty && first.isPlain then (first.content,rest) else (content,first :: rest)

-- A wrapper of one child is folded into it when one of the two is unstyled.
def fold (content : String) (style : Style) (children : List Node) : Node :=
  match children with
  | [only] =>
    if content.isEmpty && style.isEmpty then only
    else if content.isEmpty && only.style.isEmpty then ⟨only.content,style,only.children⟩
    else ⟨content,style,[only]⟩
  | _ => ⟨content,style,children⟩

mutual
-- The smallest tree of the same styled text, computed from the leaves up.
def compact : Node → Node
  | ⟨content,style,children⟩ =>
    let settled := absorb content (merge (compactAll children))
    fold settled.1 style settled.2
def compactAll : List Node → List Node
  | [] => []
  | node :: rest => node.compact :: compactAll rest
end

mutual
def decideEq : (one two : Node) → Decidable (one = two)
  | ⟨content,style,children⟩,⟨content',style',children'⟩ =>
    if sameContent : content = content' then
      if sameStyle : style = style' then
        match decideEqAll children children' with
        | isTrue sameChildren => isTrue (by rw [sameContent,sameStyle,sameChildren])
        | isFalse differ => isFalse (by intro equal; cases equal; exact differ rfl)
      else isFalse (by intro equal; cases equal; exact sameStyle rfl)
    else isFalse (by intro equal; cases equal; exact sameContent rfl)
def decideEqAll : (one two : List Node) → Decidable (one = two)
  | [],[] => isTrue rfl
  | [],_ :: _ => isFalse (by intro equal; cases equal)
  | _ :: _,[] => isFalse (by intro equal; cases equal)
  | node :: rest,node' :: rest' =>
    match decideEq node node' with
    | isFalse differ => isFalse (by intro equal; cases equal; exact differ rfl)
    | isTrue same => match decideEqAll rest rest' with
      | isTrue sameRest => isTrue (by rw [same,sameRest])
      | isFalse differ => isFalse (by intro equal; cases equal; exact differ rfl)
end

instance : DecidableEq Node := decideEq

end Node
end Phrasebook.RichText
