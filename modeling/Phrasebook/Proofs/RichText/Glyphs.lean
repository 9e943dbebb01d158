import Phrasebook.Proofs.RichText.Compaction
namespace Phrasebook.RichText

-- What a reader sees of a tree: its characters in order, each with the style it
-- has from the nodes around it.

def Decorations.union (one two : Decorations) : Decorations :=
  ⟨one.bold || two.bold,one.italic || two.italic,one.underlined || two.underlined,
   one.strikethrough || two.strikethrough,one.obfuscated || two.obfuscated⟩

namespace Style

-- The style of what has `inner` inside of `outer`: the inner colour wins, the
-- decorations of both hold.
def atop (inner outer : Style) : Style :=
  ⟨inner.color.or outer.color,inner.decorations.union outer.decorations⟩

@[simp] theorem plain_atop (style : Style) : plain.atop style = style := by
  simp [atop,plain,Decorations.union,Decorations.none]

@[simp] theorem atop_plain (style : Style) : style.atop plain = style := by
  simp [atop,plain,Decorations.union,Decorations.none]

theorem atop_assoc (inner middle outer : Style) :
    (inner.atop middle).atop outer = inner.atop (middle.atop outer) := by
  simp [atop,Decorations.union,Option.or_assoc,Bool.or_assoc]

end Style

structure Glyph where
  char : Char
  style : Style
  deriving DecidableEq, Repr

namespace Glyph

def inside (outer : Style) (glyph : Glyph) : Glyph := { glyph with style := glyph.style.atop outer }

theorem inside_inside (middle outer : Style) :
    inside outer ∘ inside middle = inside (middle.atop outer) := by
  funext glyph
  simp [inside,Style.atop_assoc]

end Glyph

def unstyled (text : String) : List Glyph := text.toList.map (⟨·,.plain⟩)

namespace Node

mutual
def glyphs (inherited : Style) : Node → List Glyph
  | ⟨content,style,children⟩ =>
    content.toList.map (⟨·,style.atop inherited⟩) ++ glyphsAll (style.atop inherited) children
def glyphsAll (inherited : Style) : List Node → List Glyph
  | [] => []
  | node :: rest => node.glyphs inherited ++ glyphsAll inherited rest
end

theorem glyphsAll_append (inherited : Style) (one two : List Node) :
    glyphsAll inherited (one ++ two) = glyphsAll inherited one ++ glyphsAll inherited two := by
  induction one with
  | nil => simp [glyphsAll]
  | cons node rest ih => simp [glyphsAll,ih]

theorem glyphs_text (inherited : Style) (content : String) :
    (text content).glyphs inherited = content.toList.map (⟨·,inherited⟩) := by
  simp [text,glyphs,glyphsAll]

theorem glyphs_styled (inherited style : Style) (children : List Node) :
    (styled style children).glyphs inherited = glyphsAll (style.atop inherited) children := by
  simp [styled,glyphs]

mutual
theorem glyphs_inside (inherited : Style) : ∀ node : Node,
    node.glyphs inherited = (node.glyphs .plain).map (Glyph.inside inherited)
  | ⟨content,style,children⟩ => by
    simp only [glyphs,Style.atop_plain,List.map_append,List.map_map]
    rw [glyphsAll_inside (style.atop inherited),glyphsAll_inside style children,List.map_map,
      Glyph.inside_inside]
    rfl
theorem glyphsAll_inside (inherited : Style) : ∀ nodes : List Node,
    glyphsAll inherited nodes = (glyphsAll .plain nodes).map (Glyph.inside inherited)
  | [] => rfl
  | node :: rest => by
    simp only [glyphsAll,List.map_append]
    rw [glyphs_inside inherited node,glyphsAll_inside inherited rest]
end

mutual
theorem plainText_glyphs (inherited : Style) : ∀ node : Node,
    node.plainText.toList = (node.glyphs inherited).map Glyph.char
  | ⟨content,style,children⟩ => by
    simp only [plainText,glyphs,String.toList_append,List.map_append,List.map_map]
    rw [plainTexts_glyphs (style.atop inherited) children]
    simp [Function.comp_def]
theorem plainTexts_glyphs (inherited : Style) : ∀ nodes : List Node,
    (plainTexts nodes).toList = (glyphsAll inherited nodes).map Glyph.char
  | [] => rfl
  | node :: rest => by
    simp only [plainTexts,glyphsAll,String.toList_append,List.map_append]
    rw [plainText_glyphs inherited node,plainTexts_glyphs inherited rest]
end

theorem merge_glyphs (inherited : Style) (nodes : List Node) :
    glyphsAll inherited (merge nodes) = glyphsAll inherited nodes := by
  induction nodes with
  | nil => rfl
  | cons node rest ih =>
    rw [glyphsAll,← ih]
    rcases merge_cases node rest with ⟨blank,merged⟩ | ⟨_,next,others,before,first,second,merged⟩ | ⟨_,_,merged⟩
    · rw [merged,blank_parts blank,empty,glyphs_text]
      rfl
    · rw [merged,before,plain_parts first,plain_parts second]
      simp [glyphsAll,glyphs_text]
      simp [text]
    · rw [merged,glyphsAll]

theorem absorb_glyphs (style : Style) (content : String) (children : List Node) :
    (absorb content children).1.toList.map (⟨·,style⟩) ++ glyphsAll style (absorb content children).2 =
      content.toList.map (⟨·,style⟩) ++ glyphsAll style children := by
  rcases absorb_cases content children with ⟨kept,_⟩ | ⟨blank,first,rest,led,plain,absorbed⟩
  · rw [kept]
  · rw [absorbed,blank,led,glyphsAll,plain_parts plain,glyphs_text]
    simp [text]

theorem fold_glyphs (inherited : Style) (content : String) (style : Style) (children : List Node) :
    (fold content style children).glyphs inherited = (Node.mk content style children).glyphs inherited := by
  rcases fold_cases content style children with
    ⟨kept,_⟩ | ⟨blank,⟨inner,own,grandchildren⟩,single,⟨unstyled,folded⟩ | ⟨_,unstyled,folded⟩⟩
  · rw [kept]
  · rw [Style.isEmpty_iff] at unstyled
    rw [folded,blank,single,unstyled]
    simp [glyphs,glyphsAll]
  · rw [Style.isEmpty_iff] at unstyled
    subst unstyled
    rw [folded,blank,single]
    simp [glyphs,glyphsAll]

mutual
theorem compact_glyphs (inherited : Style) : ∀ node : Node,
    node.compact.glyphs inherited = node.glyphs inherited
  | ⟨content,style,children⟩ => by
    rw [compact,fold_glyphs,glyphs,glyphs,absorb_glyphs,merge_glyphs,
      compactAll_glyphs (style.atop inherited) children]
theorem compactAll_glyphs (inherited : Style) : ∀ nodes : List Node,
    glyphsAll inherited (compactAll nodes) = glyphsAll inherited nodes
  | [] => rfl
  | node :: rest => by
    rw [compactAll,glyphsAll,glyphsAll,compact_glyphs inherited node,compactAll_glyphs inherited rest]
end

end Node
end Phrasebook.RichText
