import Phrasebook.Proofs.RichText.Glyphs
namespace Phrasebook.RichText

-- How a tree looks: each character with the colour of the nearest node around it that has
-- one, and with the decorations of all nodes around it. Compaction keeps that.

-- The style under these nodes, the nearest first, with `inherited` around them all.
def Style.enclosed (inherited : Style) (around : List Style) : Style :=
  ⟨(around.findSome? Style.color).or inherited.color,
   (around.map Style.decorations).foldr Decorations.union inherited.decorations⟩

theorem Style.enclosed_cons (inherited style : Style) (around : List Style) :
    inherited.enclosed (style :: around) = style.atop (inherited.enclosed around) := by
  cases style with
  | mk color decorations => cases color <;> simp [enclosed,atop]

namespace Node

mutual
-- The characters of a tree in order, each with the styles of the nodes around it.
def enclosures (around : List Style) : Node → List (Char × List Style)
  | ⟨content,style,children⟩ =>
    content.toList.map (·,style :: around) ++ enclosuresAll (style :: around) children
def enclosuresAll (around : List Style) : List Node → List (Char × List Style)
  | [] => []
  | node :: rest => node.enclosures around ++ enclosuresAll around rest
end

def appearance (inherited : Style) (node : Node) : List (Char × Style) :=
  (node.enclosures []).map fun (char,around) => (char,inherited.enclosed around)

mutual
theorem enclosures_glyphs (inherited : Style) (around : List Style) : ∀ node : Node,
    (node.enclosures around).map (fun (char,around) => (⟨char,inherited.enclosed around⟩ : Glyph)) =
      node.glyphs (inherited.enclosed around)
  | ⟨content,style,children⟩ => by
    have below := enclosuresAll_glyphs inherited (style :: around) children
    simp only [enclosures,glyphs,List.map_append,List.map_map,below,Style.enclosed_cons,Function.comp_def]
theorem enclosuresAll_glyphs (inherited : Style) (around : List Style) : ∀ nodes : List Node,
    (enclosuresAll around nodes).map (fun (char,around) => (⟨char,inherited.enclosed around⟩ : Glyph)) =
      glyphsAll (inherited.enclosed around) nodes
  | [] => rfl
  | node :: rest => by
    have first := enclosures_glyphs inherited around node
    have later := enclosuresAll_glyphs inherited around rest
    simp only [enclosuresAll,glyphsAll,List.map_append,first,later]
end

theorem appearance_glyphs (inherited : Style) (node : Node) :
    node.appearance inherited = (node.glyphs inherited).map fun glyph => (glyph.char,glyph.style) := by
  have whole := enclosures_glyphs inherited [] node
  have outermost : inherited.enclosed [] = inherited := rfl
  rw [outermost] at whole
  simp [appearance,← whole]

-- Whatever a tree is put in, compaction leaves its characters and their styles alone.
theorem compact_keeps_appearance (node : Node) (inherited : Style) :
    node.compact.appearance inherited = node.appearance inherited ∧
    node.compact.plainText = node.plainText := by
  constructor
  · rw [appearance_glyphs,appearance_glyphs,compact_glyphs]
  · apply String.toList_injective
    rw [plainText_glyphs inherited,plainText_glyphs inherited,compact_glyphs]

example : (styled (.colored .red) [text "a",⟨"b",⟨some .blue,.ofList [.bold]⟩,[styled (.decorated .italic) [text "c"]]⟩]).appearance
      (.decorated .bold) =
    [('a',⟨some .red,.ofList [.bold]⟩),('b',⟨some .blue,.ofList [.bold]⟩),('c',⟨some .blue,.ofList [.bold,.italic]⟩)] := by
  decide

end Node
end Phrasebook.RichText
