import Phrasebook.Proofs.RichText.Compaction
namespace Phrasebook.RichText.Node

-- The trees that compaction leaves as they are. It reaches one in a single pass.

mutual
def subtrees : Node → List Node
  | ⟨content,style,children⟩ => ⟨content,style,children⟩ :: subtreesAll children
def subtreesAll : List Node → List Node
  | [] => []
  | node :: rest => node.subtrees ++ subtreesAll rest
end

theorem subtrees_cons (node : Node) : node.subtrees = node :: subtreesAll node.children := by
  cases node
  rw [subtrees]

theorem mem_subtreesAll {inner : Node} {nodes : List Node} :
    inner ∈ subtreesAll nodes ↔ ∃ node ∈ nodes, inner ∈ node.subtrees := by
  induction nodes with
  | nil => simp [subtreesAll]
  | cons node rest ih => simp [subtreesAll,ih]

theorem everywhere_iff {holds : Node → Prop} {node : Node} :
    (∀ inner ∈ node.subtrees, holds inner) ↔
      holds node ∧ ∀ child ∈ node.children, ∀ inner ∈ child.subtrees, holds inner := by
  rw [subtrees_cons]
  constructor
  · intro each
    refine ⟨each node (by simp),fun child member inner below => each inner ?_⟩
    exact List.mem_cons_of_mem _ (mem_subtreesAll.mpr ⟨child,member,below⟩)
  · rintro ⟨here,each⟩ inner member
    rcases List.mem_cons.mp member with rfl | below
    · exact here
    · obtain ⟨child,among,below⟩ := mem_subtreesAll.mp below
      exact each child among inner below

-- What no stage of compaction would change at this node.
structure Settled (node : Node) : Prop where
  joined : Joined node.children
  led : node.content = "" → ∀ first ∈ node.children.head?, first.isPlain = false
  single : node.content = "" → ∀ only, node.children = [only] →
    node.style.isEmpty = false ∧ only.style.isEmpty = false

def Normal (node : Node) : Prop := ∀ inner ∈ node.subtrees, inner.Settled

theorem normal_iff {node : Node} : node.Normal ↔ node.Settled ∧ ∀ child ∈ node.children, child.Normal :=
  everywhere_iff

theorem text_normal (content : String) : (text content).Normal :=
  normal_iff.mpr ⟨⟨joined_nil,by simp [text],by simp [text]⟩,by simp [text]⟩

theorem absorb_settles {children : List Node} (content : String) (joined : Joined children) :
    Joined (absorb content children).2 ∧
    ((absorb content children).1 = "" → ∀ first ∈ (absorb content children).2.head?, first.isPlain = false) := by
  rcases absorb_cases content children with ⟨kept,led⟩ | ⟨_,first,rest,rfl,plain,absorbed⟩
  · rw [kept]
    exact ⟨joined,led⟩
  · rw [absorbed]
    obtain ⟨filled,_,joined⟩ := joined_cons.mp joined
    exact ⟨joined,fun empty => absurd empty (plain_content plain filled)⟩

theorem absorb_mem {content : String} {children : List Node} {node : Node}
    (member : node ∈ (absorb content children).2) : node ∈ children := by
  rcases absorb_cases content children with ⟨kept,_⟩ | ⟨_,first,rest,rfl,_,absorbed⟩
  · rwa [kept] at member
  · rw [absorbed] at member
    exact List.mem_cons_of_mem _ member

theorem fold_normal {children : List Node} {content : String} (style : Style) (joined : Joined children)
    (led : content = "" → ∀ first ∈ children.head?, first.isPlain = false)
    (each : ∀ child ∈ children, child.Normal) : (fold content style children).Normal := by
  rcases fold_cases content style children with
    ⟨kept,single⟩ | ⟨_,only,rfl,⟨_,folded⟩ | ⟨_,unstyled,folded⟩⟩
  · rw [kept]
    exact normal_iff.mpr ⟨⟨joined,led,single⟩,each⟩
  · rw [folded]
    exact each only (by simp)
  · obtain ⟨settled,inner⟩ := normal_iff.mp (each only (by simp))
    rw [folded]
    refine normal_iff.mpr ⟨⟨settled.joined,settled.led,?_⟩,inner⟩
    intro empty grandchild alone
    -- an unstyled node around a single child would have been folded itself
    rw [(settled.single empty grandchild alone).1] at unstyled
    cases unstyled

mutual
theorem compact_normal : ∀ node : Node, node.compact.Normal
  | ⟨content,style,children⟩ => by
    rw [compact]
    have merged := merge_keeps text_normal (compactAll_normal children)
    obtain ⟨joined,led⟩ := absorb_settles content (merge_joined (compactAll children))
    exact fold_normal style joined led fun child member => merged child (absorb_mem member)
theorem compactAll_normal : ∀ nodes : List Node, ∀ node ∈ compactAll nodes, node.Normal
  | [] => by simp [compactAll]
  | node :: rest => by
    rw [compactAll]
    intro other member
    rcases List.mem_cons.mp member with rfl | later
    · exact compact_normal node
    · exact compactAll_normal rest other later
end

theorem absorb_fixed {content : String} {children : List Node}
    (led : content = "" → ∀ first ∈ children.head?, first.isPlain = false) :
    absorb content children = (content,children) := by
  rcases absorb_cases content children with ⟨kept,_⟩ | ⟨empty,first,rest,rfl,plain,_⟩
  · exact kept
  · rw [led empty first (by simp)] at plain
    cases plain

theorem fold_fixed {content : String} {style : Style} {children : List Node}
    (single : content = "" → ∀ only, children = [only] →
      style.isEmpty = false ∧ only.style.isEmpty = false) :
    fold content style children = ⟨content,style,children⟩ := by
  rcases fold_cases content style children with
    ⟨kept,_⟩ | ⟨empty,only,alone,⟨unstyled,_⟩ | ⟨_,unstyled,_⟩⟩
  · exact kept
  · rw [(single empty only alone).1] at unstyled
    cases unstyled
  · rw [(single empty only alone).2] at unstyled
    cases unstyled

mutual
theorem compact_fixed : ∀ {node : Node}, node.Normal → node.compact = node
  | ⟨content,style,children⟩,normal => by
    obtain ⟨settled,each⟩ := normal_iff.mp normal
    rw [compact,compactAll_fixed each,merge_fixed settled.joined,absorb_fixed settled.led]
    exact fold_fixed settled.single
theorem compactAll_fixed : ∀ {nodes : List Node}, (∀ node ∈ nodes, node.Normal) → compactAll nodes = nodes
  | [],_ => rfl
  | node :: rest,each => by
    rw [compactAll,compact_fixed (each node (by simp)),
      compactAll_fixed fun other member => each other (by simp [member])]
end

theorem compact_text (content : String) : (text content).compact = text content :=
  compact_fixed (text_normal content)

theorem compact_eq_iff {node : Node} : node.compact = node ↔ node.Normal :=
  ⟨fun same => same ▸ compact_normal node,compact_fixed⟩

end Phrasebook.RichText.Node
