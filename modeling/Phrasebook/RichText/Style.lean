import Phrasebook.Text.Lowercase
namespace Phrasebook.RichText

inductive Color where
  | black
  | darkBlue
  | darkGreen
  | darkAqua
  | darkRed
  | darkPurple
  | gold
  | gray
  | darkGray
  | blue
  | green
  | aqua
  | red
  | lightPurple
  | yellow
  | white
  deriving DecidableEq, Repr

namespace Color

def all : List Color :=
  [.black,.darkBlue,.darkGreen,.darkAqua,.darkRed,.darkPurple,.gold,.gray,
   .darkGray,.blue,.green,.aqua,.red,.lightPurple,.yellow,.white]

def name : Color → String
  | .black => "black"
  | .darkBlue => "dark_blue"
  | .darkGreen => "dark_green"
  | .darkAqua => "dark_aqua"
  | .darkRed => "dark_red"
  | .darkPurple => "dark_purple"
  | .gold => "gold"
  | .gray => "gray"
  | .darkGray => "dark_gray"
  | .blue => "blue"
  | .green => "green"
  | .aqua => "aqua"
  | .red => "red"
  | .lightPurple => "light_purple"
  | .yellow => "yellow"
  | .white => "white"

def respell : List Char → List Char
  | 'g' :: 'r' :: 'e' :: 'y' :: rest => 'g' :: 'r' :: 'a' :: 'y' :: respell rest
  | c :: rest => c :: respell rest
  | [] => []

def ofName? (name : String) : Option Color :=
  let spelled := String.ofList (respell (Text.lower name.toList))
  all.find? fun color => color.name == spelled

end Color

inductive Decoration where
  | bold
  | italic
  | underlined
  | strikethrough
  | obfuscated
  deriving DecidableEq, Repr

namespace Decoration

def all : List Decoration := [.bold,.italic,.underlined,.strikethrough,.obfuscated]

def name : Decoration → String
  | .bold => "bold"
  | .italic => "italic"
  | .underlined => "underlined"
  | .strikethrough => "strikethrough"
  | .obfuscated => "obfuscated"

def ofName? : String → Option Decoration
  | "bold" => some .bold
  | "b" => some .bold
  | "italic" => some .italic
  | "i" => some .italic
  | "em" => some .italic
  | "underlined" => some .underlined
  | "u" => some .underlined
  | "strikethrough" => some .strikethrough
  | "st" => some .strikethrough
  | "obfuscated" => some .obfuscated
  | "obf" => some .obfuscated
  | _ => none

end Decoration

structure Decorations where
  bold : Bool
  italic : Bool
  underlined : Bool
  strikethrough : Bool
  obfuscated : Bool
  deriving DecidableEq, Repr

namespace Decorations

def none : Decorations := ⟨false,false,false,false,false⟩

def contains (set : Decorations) : Decoration → Bool
  | .bold => set.bold
  | .italic => set.italic
  | .underlined => set.underlined
  | .strikethrough => set.strikethrough
  | .obfuscated => set.obfuscated

def insert (set : Decorations) : Decoration → Decorations
  | .bold => { set with bold := true }
  | .italic => { set with italic := true }
  | .underlined => { set with underlined := true }
  | .strikethrough => { set with strikethrough := true }
  | .obfuscated => { set with obfuscated := true }

def ofList (decorations : List Decoration) : Decorations := decorations.foldl insert none

def toList (set : Decorations) : List Decoration := Decoration.all.filter set.contains

def isEmpty (set : Decorations) : Bool := set == none

end Decorations

structure Style where
  color : Option Color
  decorations : Decorations
  deriving DecidableEq, Repr

namespace Style

def plain : Style := ⟨none,Decorations.none⟩

def colored (color : Color) : Style := ⟨some color,Decorations.none⟩

def decorated (decoration : Decoration) : Style := ⟨none,Decorations.none.insert decoration⟩

def isEmpty (style : Style) : Bool := style.color.isNone && style.decorations.isEmpty

end Style
end Phrasebook.RichText
