import Phrasebook.Proofs.RichText.NormalForm
namespace Phrasebook.RichText.Node

-- Siblings that differ only in how their plain text is cut into nodes. They
-- compact to the same, in whatever they are put.

theorem merge_tail {one two : List Node} (same : merge one = merge two) (node : Node) :
    merge (node :: one) = merge (node :: two) := by
  rw [merge,merge,same]

theorem merge_blank {node : Node} (blank : node.isBlank = true) (rest : List Node) :
    merge (node :: rest) = merge rest := by
  rw [merge,if_pos blank]

theorem merge_pair (first second : String) (rest : List Node) :
    merge (text first :: text second :: rest) = merge (text (first ++ second) :: rest) := by
  have empty : (text "").isBlank = true := rfl
  by_cases blank : first = ""
  · rw [blank,merge_blank empty,String.empty_append]
  · by_cases blank' : second = ""
    · rw [blank',merge_tail (merge_blank empty rest),String.append_empty]
    · have joined : first ++ second ≠ "" := fun both => blank (String.append_eq_empty_iff.mp both).1
      rw [merge,merge,merge,isBlank_text blank,isBlank_text blank',isBlank_text joined]
      cases merge rest with
      | nil => rfl
      | cons next others =>
        cases plain : next.isPlain with
        | false => simp only [isPlain_text,plain,Bool.and_false]; rfl
        | true =>
          simp only [isPlain_text,plain,Bool.and_self]
          simp only [text,String.append_assoc]
          rfl

theorem merge_append (one two : List Node) : merge (merge one ++ two) = merge (one ++ two) := by
  induction one with
  | nil => rfl
  | cons node rest ih =>
    rcases merge_cases node rest with
      ⟨blank,merged⟩ | ⟨_,next,others,before,first,second,merged⟩ | ⟨_,_,merged⟩
    · rw [merged,ih,List.cons_append,merge_blank blank]
    · rw [before] at ih
      calc merge (merge (node :: rest) ++ two)
        _ = merge (text (node.content ++ next.content) :: (others ++ two)) := by
          rw [merged,List.cons_append]
        _ = merge (node :: next :: (others ++ two)) := by
          rw [← merge_pair,← plain_parts first,← plain_parts second]
        _ = merge (node :: (rest ++ two)) := merge_tail ih node
    · rw [merged,List.cons_append]
      exact merge_tail ih node

theorem compactAll_single (node : Node) : compactAll [node] = [node.compact] := by
  rw [compactAll,compactAll]

def Alike (one two : List Node) : Prop := merge (compactAll one) = merge (compactAll two)

theorem alike_self (nodes : List Node) : Alike nodes nodes := rfl

theorem alike_trans (first : Alike one two) (second : Alike two three) : Alike one three :=
  Eq.trans first second

theorem alike_append (first : Alike one one') (second : Alike two two') :
    Alike (one ++ two) (one' ++ two') := by
  have before (nodes : List Node) : merge (compactAll one ++ nodes) = merge (compactAll one' ++ nodes) := by
    rw [← merge_append,first,merge_append]
  have after (nodes : List Node) : merge (nodes ++ compactAll two) = merge (nodes ++ compactAll two') := by
    induction nodes with
    | nil => exact second
    | cons node rest ih => exact merge_tail ih node
  rw [Alike,compactAll_append,compactAll_append,before,after]

theorem alike_texts (first second : String) :
    Alike [text first,text second] [text (first ++ second)] := by
  rw [Alike,compactAll,compactAll,compactAll,compactAll,compact_text,compact_text,compact_text]
  exact merge_pair first second []

theorem alike_blank : Alike [text ""] [] := by
  rw [Alike,compactAll_single,compact_text]
  exact merge_blank rfl []

theorem compact_alike (alike : Alike one two) (style : Style) :
    (styled style one).compact = (styled style two).compact := by
  rw [styled,styled,compact,compact,alike]

theorem alike_styled (alike : Alike one two) (style : Style) :
    Alike [styled style one] [styled style two] := by
  rw [Alike,compactAll_single,compactAll_single,compact_alike alike]

end Phrasebook.RichText.Node
