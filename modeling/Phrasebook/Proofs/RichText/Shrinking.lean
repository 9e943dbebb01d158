import Phrasebook.Proofs.RichText.NormalForm
import Phrasebook.Template.Engine
namespace Phrasebook.RichText

-- No stage of compaction changes a tree without making it smaller. So a tree that keeps
-- its size was normal already.

def Shrunk (size : α → Nat) (after before : α) : Prop := after = before ∨ size after < size before

theorem Shrunk.size_le {size : α → Nat} (shrunk : Shrunk size after before) : size after ≤ size before := by
  cases shrunk with
  | inl same => exact Nat.le_of_eq (congrArg size same)
  | inr less => exact Nat.le_of_lt less

theorem Shrunk.trans {size : α → Nat} (later : Shrunk size last middle) (earlier : Shrunk size middle first) :
    Shrunk size last first := by
  cases later with
  | inl same => exact same ▸ earlier
  | inr less => exact .inr (Nat.lt_of_lt_of_le less earlier.size_le)

namespace Node

def size (node : Node) : Nat := node.subtrees.length

def sizeAll (nodes : List Node) : Nat := (subtreesAll nodes).length

theorem size_node (node : Node) : node.size = sizeAll node.children + 1 := by
  rw [size,subtrees_cons,List.length_cons,sizeAll]

theorem sizeAll_cons (node : Node) (rest : List Node) : sizeAll (node :: rest) = node.size + sizeAll rest := by
  simp [sizeAll,size,subtreesAll]

theorem size_wrapper (content : String) (style : Style) (only : Node) :
    size ⟨content,style,[only]⟩ = only.size + 1 := by
  rw [size_node,sizeAll_cons]
  rfl

theorem children_shrunk (shrunk : Shrunk sizeAll after before) (content : String) (style : Style) :
    Shrunk size ⟨content,style,after⟩ ⟨content,style,before⟩ := by
  cases shrunk with
  | inl same => exact .inl (congrArg _ same)
  | inr less =>
    apply Or.inr
    rw [size_node,size_node]
    exact Nat.succ_lt_succ less

theorem siblings_shrunk (first : Shrunk size node node') (later : Shrunk sizeAll rest rest') :
    Shrunk sizeAll (node :: rest) (node' :: rest') := by
  have bound := later.size_le
  cases first with
  | inr less =>
    apply Or.inr
    rw [sizeAll_cons,sizeAll_cons]
    omega
  | inl same =>
    rw [same]
    cases later with
    | inl same => exact .inl (congrArg _ same)
    | inr less =>
      apply Or.inr
      rw [sizeAll_cons,sizeAll_cons]
      exact Nat.add_lt_add_left less _

theorem merge_shrinks (nodes : List Node) : Shrunk sizeAll (merge nodes) nodes := by
  induction nodes with
  | nil => exact .inl rfl
  | cons node rest ih =>
    have bound := ih.size_le
    have own := size_node node
    rcases merge_cases node rest with ⟨_,merged⟩ | ⟨_,next,others,before,_,_,merged⟩ | ⟨_,_,merged⟩
    · apply Or.inr
      rw [merged,sizeAll_cons]
      omega
    · -- two nodes have become one text
      have joined : (text (node.content ++ next.content)).size = 1 := rfl
      have following := size_node next
      rw [before,sizeAll_cons] at bound
      apply Or.inr
      rw [merged,sizeAll_cons,sizeAll_cons,joined]
      omega
    · rw [merged]
      exact siblings_shrunk (.inl rfl) ih

theorem absorb_shrinks (content : String) (style : Style) (children : List Node) :
    Shrunk size ⟨(absorb content children).1,style,(absorb content children).2⟩ ⟨content,style,children⟩ := by
  rcases absorb_cases content children with ⟨kept,_⟩ | ⟨_,first,rest,led,_,absorbed⟩
  · rw [kept]
    exact .inl rfl
  · apply Or.inr
    rw [absorbed,led,size_node,size_node,sizeAll_cons,size_node first]
    dsimp only
    omega

theorem fold_shrinks (content : String) (style : Style) (children : List Node) :
    Shrunk size (fold content style children) ⟨content,style,children⟩ := by
  rcases fold_cases content style children with
    ⟨kept,_⟩ | ⟨_,only,single,⟨_,folded⟩ | ⟨_,_,folded⟩⟩
  · exact .inl kept
  · apply Or.inr
    rw [folded,single,size_wrapper]
    exact Nat.lt_succ_self _
  · have inner : size ⟨only.content,style,only.children⟩ = only.size := by rw [size_node,size_node only]
    apply Or.inr
    rw [folded,single,size_wrapper,inner]
    exact Nat.lt_succ_self _

mutual
theorem compact_shrinks : ∀ node : Node, Shrunk size node.compact node
  | ⟨content,style,children⟩ => by
    have inner := children_shrunk (compactAll_shrinks children) content style
    have merged := children_shrunk (merge_shrinks (compactAll children)) content style
    have absorbed := absorb_shrinks content style (merge (compactAll children))
    rw [compact]
    exact (fold_shrinks _ style _).trans (absorbed.trans (merged.trans inner))
theorem compactAll_shrinks : ∀ nodes : List Node, Shrunk sizeAll (compactAll nodes) nodes
  | [] => .inl rfl
  | node :: rest => siblings_shrunk (compact_shrinks node) (compactAll_shrinks rest)
end

theorem compact_idempotent (node : Node) : node.compact.compact = node.compact :=
  compact_fixed (compact_normal node)

theorem parse_compacted (engine : Template.Engine) (template : String) (resolver : Template.Resolver) :
    (engine.parse template resolver).outcome.map compact = (engine.parse template resolver).outcome := by
  simp only [Template.Engine.parse,bind,Traced.andThen,pure]
  cases (Template.readNodes resolver engine.maxDepth engine.maxDepth template).outcome with
  | error failure => rfl
  | ok nodes => exact congrArg Except.ok (compact_idempotent _)

-- One pass reaches the normal form, and loses nodes unless there is nothing to do.
theorem compact_reaches_normal (node : Node) :
    node.compact.Normal ∧
    (node.compact = node ↔ node.Normal) ∧
    node.compact.compact = node.compact ∧
    node.compact.size ≤ node.size ∧
    (node.compact.size = node.size ↔ node.Normal) ∧
    ∀ (engine : Template.Engine) (template : String) (resolver : Template.Resolver),
      (engine.parse template resolver).outcome.map compact = (engine.parse template resolver).outcome := by
  have shrinks := compact_shrinks node
  refine ⟨compact_normal node,compact_eq_iff,compact_idempotent node,shrinks.size_le,?_,parse_compacted⟩
  constructor
  · intro same
    apply compact_eq_iff.mp
    exact shrinks.resolve_right (Nat.not_lt_of_le (Nat.le_of_eq same.symm))
  · intro normal
    exact congrArg size (compact_fixed normal)

end Node
end Phrasebook.RichText
