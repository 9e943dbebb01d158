import Phrasebook.Proofs.RichText.NormalForm
import Phrasebook.Proofs.Traced
import Phrasebook.Tags.Registry
import Phrasebook.Template.Engine
namespace Phrasebook.RichText

-- The trees that templates amount to when every tag is a built-in one.

inductive Style.IsSingle : Style → Prop where
  | colored (color : Color) : IsSingle (.colored color)
  | decorated (decoration : Decoration) : IsSingle (.decorated decoration)

theorem Style.single_styled {style : Style} (single : style.IsSingle) : style.isEmpty = false := by
  cases single with
  | colored color => rfl
  | decorated decoration => cases decoration <;> rfl

namespace Node

structure OutputForm (root : Node) : Prop where
  compacted : root.compact = root
  styles : ∀ node ∈ root.subtrees, node.style = .plain ∨ node.style.IsSingle
  leaves : ∀ node ∈ subtreesAll root.children, node.style = .plain → node.children = []
  heads : ∀ node ∈ root.subtrees, node.content ≠ "" → ∀ first ∈ node.children.head?, first.isPlain = false

-- Output form below the root, where nothing unstyled has children.
def Branch (node : Node) : Prop := node.OutputForm ∧ (node.style = .plain → node.children = [])

structure Tidy (node : Node) : Prop where
  settled : node.Settled
  styles : node.style = .plain ∨ node.style.IsSingle
  head : node.content ≠ "" → ∀ first ∈ node.children.head?, first.isPlain = false

theorem output_iff {node : Node} : node.OutputForm ↔ node.Tidy ∧ ∀ child ∈ node.children, child.Branch := by
  constructor
  · rintro ⟨compacted,styles,leaves,heads⟩
    obtain ⟨settled,normal⟩ := normal_iff.mp (compact_eq_iff.mp compacted)
    obtain ⟨style,styles⟩ := everywhere_iff.mp styles
    obtain ⟨head,heads⟩ := everywhere_iff.mp heads
    refine ⟨⟨settled,style,head⟩,fun child member => ⟨⟨compact_fixed (normal child member),styles child member,
      ?_,heads child member⟩,?_⟩⟩
    · intro inner below
      refine leaves inner (mem_subtreesAll.mpr ⟨child,member,?_⟩)
      rw [subtrees_cons]
      exact List.mem_cons_of_mem _ below
    · refine leaves child (mem_subtreesAll.mpr ⟨child,member,?_⟩)
      rw [subtrees_cons]
      exact List.mem_cons_self
  · rintro ⟨⟨settled,style,head⟩,each⟩
    refine ⟨compact_fixed (normal_iff.mpr ⟨settled,fun child member => ?_⟩),
      everywhere_iff.mpr ⟨style,fun child member => (each child member).1.styles⟩,?_,
      everywhere_iff.mpr ⟨head,fun child member => (each child member).1.heads⟩⟩
    · exact compact_eq_iff.mp (each child member).1.compacted
    · intro inner below
      obtain ⟨child,member,below⟩ := mem_subtreesAll.mp below
      rw [subtrees_cons] at below
      rcases List.mem_cons.mp below with rfl | deeper
      · exact (each inner member).2
      · exact (each child member).1.leaves inner deeper

theorem text_branch (content : String) : (text content).Branch :=
  ⟨output_iff.mpr ⟨⟨(normal_iff.mp (text_normal content)).1,.inl rfl,by simp [text]⟩,by simp [text]⟩,fun _ => rfl⟩

theorem absorb_heads {children : List Node} (joined : Joined children) :
    (absorb "" children).1 ≠ "" → ∀ first ∈ (absorb "" children).2.head?, first.isPlain = false := by
  rcases absorb_cases "" children with ⟨kept,_⟩ | ⟨_,first,rest,rfl,plain,absorbed⟩
  · rw [kept]
    exact fun filled => absurd rfl filled
  · rw [absorbed]
    intro _ next among
    have apart := (joined_cons.mp joined).2.1 next among
    simpa [plain] using apart

theorem compact_output {style : Style} {children : List Node} (styled : style = .plain ∨ style.IsSingle)
    (each : ∀ child ∈ compactAll children, child.Branch) :
    (Node.styled style children).compact.OutputForm ∧
      (style.IsSingle → (Node.styled style children).compact.style = style) := by
  have settled := (normal_iff.mp (compact_normal (.styled style children))).1
  have merged := merge_keeps text_branch each
  have heads := absorb_heads (merge_joined (compactAll children))
  simp only [Node.styled,compact] at settled ⊢
  generalize same : absorb "" (merge (compactAll children)) = absorbed at settled heads ⊢
  have branches : ∀ child ∈ absorbed.2, child.Branch :=
    fun child member => merged child (absorb_mem (same ▸ member))
  rcases fold_cases absorbed.1 style absorbed.2 with
    ⟨kept,_⟩ | ⟨_,only,alone,⟨unstyled,folded⟩ | ⟨_,unstyled,folded⟩⟩
  · rw [kept] at settled ⊢
    exact ⟨output_iff.mpr ⟨⟨settled,styled,heads⟩,branches⟩,fun _ => rfl⟩
  · rw [folded]
    refine ⟨(branches only (by simp [alone])).1,fun single => ?_⟩
    rw [Style.single_styled single] at unstyled
    cases unstyled
  · have leaf := (branches only (by simp [alone])).2 (Style.isEmpty_iff.mp unstyled)
    rw [folded] at settled ⊢
    exact ⟨output_iff.mpr ⟨⟨settled,styled,by simp [leaf]⟩,by simp [leaf]⟩,fun _ => rfl⟩

-- What the engine builds before compaction: texts, and spans of one attribute.
inductive Drawn : Node → Prop where
  | text (content : String) : Drawn (.text content)
  | span {style : Style} {children : List Node} (single : style.IsSingle)
      (each : ∀ child ∈ children, Drawn child) : Drawn (.styled style children)

theorem compactAll_mem {node : Node} {nodes : List Node} (member : node ∈ compactAll nodes) :
    ∃ before ∈ nodes, before.compact = node := by
  induction nodes with
  | nil => simp [compactAll] at member
  | cons first rest ih =>
    rw [compactAll] at member
    rcases List.mem_cons.mp member with rfl | later
    · exact ⟨first,by simp,rfl⟩
    · obtain ⟨before,among,same⟩ := ih later
      exact ⟨before,by simp [among],same⟩

theorem drawn_branch {node : Node} (drawn : Drawn node) : node.compact.Branch := by
  induction drawn with
  | text content =>
    rw [compact_fixed (text_normal content)]
    exact text_branch content
  | @span style children single each ih =>
    have output := compact_output (.inr single) fun child member => by
      obtain ⟨before,among,rfl⟩ := compactAll_mem member
      exact ih before among
    refine ⟨output.1,fun plain => ?_⟩
    rw [output.2 single,← Style.isEmpty_iff,Style.single_styled single] at plain
    cases plain

theorem drawn_output {nodes : List Node} (drawn : ∀ node ∈ nodes, Drawn node) :
    (Node.styled .plain nodes).compact.OutputForm := by
  refine (compact_output (.inl rfl) fun child member => ?_).1
  obtain ⟨before,among,rfl⟩ := compactAll_mem member
  exact drawn_branch (drawn before among)

end Node
end Phrasebook.RichText

namespace Phrasebook.Template
open RichText

def stepBuiltin (spans : List Span) : Token → List Span
  | .text content => append [.text content] spans
  | .opening site arguments => placeUnclaimed site arguments spans
  | .closing site =>
    (closeSpan (canonicalName site.name) spans).getD (append [.text site.source] spans)

theorem step_empty (depth : Nat) (insertion : Site → String → Traced Failure (List Node))
    (spans : List Span) (token : Token) :
    step Tags.Registry.empty.resolver depth insertion spans token = pure (stepBuiltin spans token) := by
  cases token <;> rfl

theorem parse_empty (engine : Engine) (template : String) :
    engine.parse template Tags.Registry.empty.resolver =
      .ok (Node.styled .plain (finish ((tokenize template).foldl stepBuiltin [Span.root]))).compact := by
  have read (depth : Nat) (insertion : Site → String → Traced Failure (List Node)) :
      readTokens Tags.Registry.empty.resolver depth insertion template =
        pure (finish ((tokenize template).foldl stepBuiltin [Span.root])) := by
    unfold readTokens
    simp only [funext (fun spans => funext (step_empty depth insertion spans))]
    rw [List.foldlM_pure,Traced.pure_bind]
  unfold Engine.parse
  cases engine.maxDepth with
  | zero => rw [readNodes,read,Traced.pure_bind]; rfl
  | succ remaining => rw [readNodes,read,Traced.pure_bind]; rfl

theorem builtin_single {style : Style} (found : builtinStyle name arguments = some style) :
    style.IsSingle := by
  unfold builtinStyle at found
  split at found
  · cases found
    exact .decorated _
  · split at found
    · obtain ⟨color,_,rfl⟩ := Option.map_eq_some_iff.mp found
      exact .colored color
    · obtain ⟨color,_,rfl⟩ := Option.map_eq_some_iff.mp found
      exact .colored color

inductive Built : List Span → Prop where
  | root (each : ∀ child ∈ children, Node.Drawn child) : Built [⟨none,.plain,children⟩]
  | deeper {style : Style} (name : String) (single : style.IsSingle) (each : ∀ child ∈ children, Node.Drawn child)
      (outer : Built spans) : Built (⟨some name,style,children⟩ :: spans)

namespace Built

theorem start : Built [Span.root] := root (by simp)

theorem appends (built : Built spans) {nodes : List Node} (drawn : ∀ node ∈ nodes, Node.Drawn node) :
    Built (append nodes spans) := by
  have both {children : List Node} (each : ∀ child ∈ children, Node.Drawn child) :
      ∀ child ∈ children ++ nodes, Node.Drawn child :=
    fun child member => (List.mem_append.mp member).elim (each child) (drawn child)
  cases built with
  | root each => exact root (both each)
  | deeper name single each outer => exact deeper name single (both each) outer

theorem appends_text (built : Built spans) (content : String) : Built (append [.text content] spans) :=
  built.appends (by simp [Node.Drawn.text])

theorem folds_top (built : Built spans) : Built (foldTop spans) := by
  cases built with
  | root each => exact root each
  | deeper name single each outer =>
    cases outer with
    | root around => exact appends (root around) (by simpa [Span.node] using .span single each)
    | deeper around single' each' outer =>
      exact appends (deeper around single' each' outer) (by simpa [Span.node] using .span single each)

theorem folds_spans (count : Nat) (built : Built spans) : Built (foldSpans count spans) := by
  induction count generalizing spans with
  | zero => exact built
  | succ count ih => exact ih built.folds_top

theorem finishes (built : Built spans) : ∀ node ∈ finish spans, Node.Drawn node := by
  unfold finish
  have folded : Built (foldAll spans) := built.folds_spans _
  generalize foldAll spans = remaining at folded ⊢
  cases folded with
  | root each => exact each
  | deeper name single each outer => exact each

theorem steps (built : Built spans) (token : Token) : Built (stepBuiltin spans token) := by
  cases token with
  | text content => exact built.appends_text content
  | closing site =>
    rw [stepBuiltin,closeSpan]
    cases spans.findIdx? fun span => span.name == some (canonicalName site.name) with
    | none => exact built.appends_text site.source
    | some index => exact built.folds_spans (index + 1)
  | opening site arguments =>
    rw [stepBuiltin,placeUnclaimed]
    split
    · exact built.folds_spans _
    · split
      · rename_i style found
        exact deeper _ (builtin_single found) (by simp) built
      · exact built.appends_text site.source

theorem runs (built : Built spans) (tokens : List Token) : Built (tokens.foldl stepBuiltin spans) := by
  induction tokens generalizing spans with
  | nil => exact built
  | cons token rest ih => exact ih (built.steps token)

end Built

theorem parse_output (engine : Engine) (template : String) :
    ∃ node, engine.parse template Tags.Registry.empty.resolver = .ok node ∧ node.OutputForm :=
  ⟨_,parse_empty engine template,Node.drawn_output (Built.start.runs (tokenize template)).finishes⟩

end Phrasebook.Template
