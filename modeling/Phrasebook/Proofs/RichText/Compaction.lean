import Mathlib.Data.List.Chain
import Phrasebook.RichText.Node
namespace Phrasebook.RichText

-- What each stage of compaction can do, and the normal form it computes.

theorem Style.isEmpty_iff {style : Style} : style.isEmpty = true ↔ style = plain := by
  rcases style with ⟨color,bold,italic,underlined,strikethrough,obfuscated⟩
  simp [isEmpty,plain,Decorations.isEmpty,Decorations.none]

namespace Node

theorem plain_parts {node : Node} (plain : node.isPlain = true) : node = text node.content := by
  rcases node with ⟨content,style,children⟩
  simp only [isPlain,Bool.and_eq_true,List.isEmpty_iff,Style.isEmpty_iff] at plain
  simp [text,plain]

theorem blank_parts {node : Node} (blank : node.isBlank = true) : node = empty := by
  simp only [isBlank,Bool.and_eq_true,String.isEmpty_iff] at blank
  rw [plain_parts blank.1,blank.2]
  rfl

theorem isPlain_text (content : String) : (text content).isPlain = true := rfl

theorem isBlank_text {content : String} (filled : content ≠ "") : (text content).isBlank = false := by
  rw [isBlank,isPlain_text]
  simpa [text] using filled

theorem plain_content {node : Node} (plain : node.isPlain = true) (notBlank : node.isBlank = false) :
    node.content ≠ "" := by
  simpa [isBlank,plain] using notBlank

def Leads (node : Node) (rest : List Node) : Prop :=
  ∀ next ∈ rest.head?, (node.isPlain && next.isPlain) = false

theorem merge_cases (node : Node) (rest : List Node) :
    (node.isBlank = true ∧ merge (node :: rest) = merge rest) ∨
    (node.isBlank = false ∧ ∃ next others, merge rest = next :: others ∧ node.isPlain = true ∧
      next.isPlain = true ∧ merge (node :: rest) = text (node.content ++ next.content) :: others) ∨
    (node.isBlank = false ∧ node.Leads (merge rest) ∧ merge (node :: rest) = node :: merge rest) := by
  rw [merge]
  by_cases blank : node.isBlank = true
  · exact .inl ⟨blank,if_pos blank⟩
  · rw [if_neg blank]
    rw [Bool.not_eq_true] at blank
    cases merge rest with
    | nil => exact .inr (.inr ⟨blank,by simp [Leads],rfl⟩)
    | cons next others =>
      dsimp only
      split
      · rename_i both
        obtain ⟨first,second⟩ := Bool.and_eq_true_iff.mp both
        exact .inr (.inl ⟨blank,next,others,rfl,first,second,rfl⟩)
      · rename_i apart
        exact .inr (.inr ⟨blank,by simpa [Leads] using apart,rfl⟩)

theorem absorb_cases (content : String) (children : List Node) :
    (absorb content children = (content,children) ∧
      (content = "" → ∀ first ∈ children.head?, first.isPlain = false)) ∨
    (content = "" ∧ ∃ first rest, children = first :: rest ∧ first.isPlain = true ∧
      absorb content children = (first.content,rest)) := by
  cases children with
  | nil => exact .inl ⟨rfl,by simp⟩
  | cons first rest =>
    rw [absorb]
    split
    · rename_i both
      simp only [Bool.and_eq_true,String.isEmpty_iff] at both
      exact .inr ⟨both.1,first,rest,rfl,both.2,rfl⟩
    · rename_i kept
      refine .inl ⟨rfl,?_⟩
      rintro rfl
      simpa using kept

theorem fold_cases (content : String) (style : Style) (children : List Node) :
    (fold content style children = ⟨content,style,children⟩ ∧
      (content = "" → ∀ only, children = [only] → style.isEmpty = false ∧ only.style.isEmpty = false)) ∨
    (content = "" ∧ ∃ only, children = [only] ∧
      ((style.isEmpty = true ∧ fold content style children = only) ∨
        (style.isEmpty = false ∧ only.style.isEmpty = true ∧
          fold content style children = ⟨only.content,style,only.children⟩))) := by
  unfold fold
  split
  · rename_i only
    by_cases blank : content = ""
    · subst blank
      cases outer : style.isEmpty with
      | true => exact .inr ⟨rfl,only,rfl,.inl ⟨rfl,rfl⟩⟩
      | false => cases inner : only.style.isEmpty with
        | true => exact .inr ⟨rfl,only,rfl,.inr ⟨rfl,inner,rfl⟩⟩
        | false =>
          refine .inl ⟨rfl,fun _ other same => ?_⟩
          cases same
          exact ⟨rfl,inner⟩
    · exact .inl ⟨by simp [blank],fun empty => absurd empty blank⟩
  · rename_i several
    exact .inl ⟨rfl,fun _ only same => absurd same (several only)⟩

structure Joined (nodes : List Node) : Prop where
  filled : ∀ node ∈ nodes, node.isBlank = false
  apart : nodes.IsChain fun one two => (one.isPlain && two.isPlain) = false

theorem joined_cons {node : Node} {rest : List Node} :
    Joined (node :: rest) ↔ node.isBlank = false ∧ node.Leads rest ∧ Joined rest := by
  constructor
  · rintro ⟨filled,apart⟩
    obtain ⟨leads,apart⟩ := List.isChain_cons.mp apart
    exact ⟨filled node (by simp),leads,fun other member => filled other (by simp [member]),apart⟩
  · rintro ⟨notBlank,leads,filled,apart⟩
    refine ⟨?_,List.isChain_cons.mpr ⟨leads,apart⟩⟩
    intro other member
    rcases List.mem_cons.mp member with rfl | later
    · exact notBlank
    · exact filled other later

theorem joined_nil : Joined [] := ⟨by simp,by simp⟩

theorem merge_joined (nodes : List Node) : Joined (merge nodes) := by
  induction nodes with
  | nil => exact joined_nil
  | cons node rest ih =>
    rcases merge_cases node rest with ⟨_,merged⟩ | ⟨_,next,others,before,_,plain,merged⟩ | ⟨filled,leads,merged⟩
    · rw [merged]
      exact ih
    · rw [before,joined_cons] at ih
      obtain ⟨notBlank,leads,joined⟩ := ih
      rw [merged,joined_cons]
      refine ⟨isBlank_text ?_,?_,joined⟩
      · have content := plain_content plain notBlank
        exact fun empty => content (String.append_eq_empty_iff.mp empty).2
      · simpa only [Leads,plain,isPlain_text] using leads
    · rw [merged,joined_cons]
      exact ⟨filled,leads,ih⟩

theorem merge_fixed {nodes : List Node} (joined : Joined nodes) : merge nodes = nodes := by
  induction nodes with
  | nil => rfl
  | cons node rest ih =>
    obtain ⟨filled,leads,joined⟩ := joined_cons.mp joined
    have fixed := ih joined
    rcases merge_cases node rest with ⟨blank,_⟩ | ⟨_,next,others,before,first,second,_⟩ | ⟨_,_,merged⟩
    · rw [filled] at blank
      cases blank
    · rw [fixed] at before
      have apart := leads next (by simp [before])
      rw [first,second] at apart
      cases apart
    · rw [merged,fixed]

theorem merge_keeps {holds : Node → Prop} (texts : ∀ content, holds (text content)) {nodes : List Node}
    (each : ∀ node ∈ nodes, holds node) : ∀ node ∈ merge nodes, holds node := by
  induction nodes with
  | nil => simp [merge]
  | cons node rest ih =>
    have later := ih fun other member => each other (by simp [member])
    rcases merge_cases node rest with ⟨_,merged⟩ | ⟨_,next,others,before,_,_,merged⟩ | ⟨_,_,merged⟩
    · rw [merged]
      exact later
    · rw [merged]
      rw [before] at later
      intro other member
      rcases List.mem_cons.mp member with rfl | old
      · exact texts _
      · exact later other (by simp [old])
    · rw [merged]
      intro other member
      rcases List.mem_cons.mp member with rfl | old
      · exact each other (by simp)
      · exact later other old

theorem compactAll_append (one two : List Node) :
    compactAll (one ++ two) = compactAll one ++ compactAll two := by
  induction one with
  | nil => rfl
  | cons node rest ih => simp [compactAll,ih]

end Node
end Phrasebook.RichText
