import Phrasebook.Proofs.Template.OutputForm
import Phrasebook.Proofs.Template.Spelling
import Phrasebook.Proofs.Template.Stack
namespace Phrasebook.RichText
open Template

-- Trees written as templates of built-in tags, and read back.

def Style.tagName? (style : Style) : Option String :=
  match style.color with
  | some color => some color.name
  | none => style.decorations.toList.head?.map Decoration.name

theorem Style.plain_tag {style : Style} (plain : style = .plain) : style.tagName? = none := by
  subst plain
  rfl

structure TagOf (style : Style) (name : String) : Prop where
  tagged : style.tagName? = some name
  valid : isTagName name.toList = true
  canonical : canonicalName name = name
  ordinary : name ≠ "reset"
  builtin : builtinStyle name [] = some style

theorem color_tag (color : Color) : TagOf (.colored color) color.name := by
  cases color <;> exact ⟨rfl,by decide,by decide,by decide,by decide⟩

theorem decoration_tag (decoration : Decoration) : TagOf (.decorated decoration) decoration.name := by
  cases decoration <;> exact ⟨rfl,by decide,by decide,by decide,by decide⟩

theorem Style.single_tag {style : Style} (single : style.IsSingle) : ∃ name, TagOf style name := by
  cases single with
  | colored color => exact ⟨color.name,color_tag color⟩
  | decorated decoration => exact ⟨decoration.name,decoration_tag decoration⟩

namespace Node

mutual
def printed : Node → List Char
  | ⟨content,style,children⟩ =>
    let inner := escape '<' content.toList ++ printedAll children
    match style.tagName? with
    | some name => ('<' :: (name.toList ++ ['>'])) ++ (inner ++ ('<' :: '/' :: (name.toList ++ ['>'])))
    | none => inner
def printedAll : List Node → List Char
  | [] => []
  | node :: rest => node.printed ++ printedAll rest
end

def print (node : Node) : String := String.ofList node.printed

def textPieces (content : String) : List Piece :=
  if content.isEmpty then [] else [.text content]

def enclose (style : Style) (inner : List Piece) : List Piece :=
  match style.tagName? with
  | some name => .opening name [] :: (inner ++ [.closing name])
  | none => inner

mutual
def pieces : Node → List Piece
  | ⟨content,style,children⟩ => enclose style (textPieces content ++ piecesAll children)
def piecesAll : List Node → List Piece
  | [] => []
  | node :: rest => node.pieces ++ piecesAll rest
end

theorem write_text (content : String) : write (textPieces content) = escape '<' content.toList := by
  unfold textPieces
  split
  · rename_i empty
    rw [String.isEmpty_iff.mp empty]
    rfl
  · simp [write,Piece.written]

mutual
theorem write_pieces : ∀ node : Node, write node.pieces = node.printed
  | ⟨content,style,children⟩ => by
    rw [pieces,printed,← write_text,← write_piecesAll children,← write_append,enclose]
    cases style.tagName? with
    | none => rfl
    | some name => simp [write,Piece.written,writeArguments]
theorem write_piecesAll : ∀ nodes : List Node, write (piecesAll nodes) = printedAll nodes
  | [] => rfl
  | node :: rest => by rw [piecesAll,printedAll,write_append,write_pieces node,write_piecesAll rest]
end

def textNodes (content : String) : List Node :=
  if content.isEmpty then [] else [.text content]

mutual
def drawing : Node → List Node
  | ⟨content,style,children⟩ =>
    let inner := textNodes content ++ drawingAll children
    if style.isEmpty then inner else [.styled style inner]
def drawingAll : List Node → List Node
  | [] => []
  | node :: rest => node.drawing ++ drawingAll rest
end

theorem branch_cases {node : Node} (branch : node.Branch) (filled : node.isBlank = false) :
    (∃ content, content.isEmpty = false ∧ node = text content) ∨ node.style.IsSingle := by
  rcases (output_iff.mp branch.1).1.styles with plain | single
  · have leaf := branch.2 plain
    rcases node with ⟨content,style,children⟩
    cases plain
    cases leaf
    exact .inl ⟨content,filled,rfl⟩
  · exact .inr single

theorem compactAll_text (content : String) : compactAll (textNodes content) = textNodes content := by
  unfold textNodes
  split
  · rfl
  · rw [compactAll,compact_text,compactAll]

theorem text_joined {content : String} {children : List Node} (joined : Joined children)
    (head : content ≠ "" → ∀ first ∈ children.head?, first.isPlain = false) :
    Joined (textNodes content ++ children) := by
  unfold textNodes
  split
  · exact joined
  · rename_i filled
    rw [String.isEmpty_iff] at filled
    refine joined_cons.mpr ⟨isBlank_text filled,fun next among => ?_,joined⟩
    rw [head filled next among,Bool.and_false]

theorem text_absorbed {content : String} {children : List Node}
    (led : content = "" → ∀ first ∈ children.head?, first.isPlain = false) :
    absorb "" (textNodes content ++ children) = (content,children) := by
  unfold textNodes
  split
  · rename_i empty
    rw [String.isEmpty_iff] at empty
    subst empty
    exact absorb_fixed led
  · rfl

theorem drawing_single {node : Node} (single : node.style.IsSingle) :
    node.drawing = [styled node.style (textNodes node.content ++ drawingAll node.children)] := by
  cases node
  rw [drawing,Style.single_styled single]
  rfl

theorem drawing_text {content : String} (filled : content.isEmpty = false) :
    (text content).drawing = [text content] := by
  simp [text,drawing,drawingAll,textNodes,filled,Style.isEmpty_iff.mpr]

theorem drawing_branch {node : Node} (branch : node.Branch) (filled : node.isBlank = false)
    (compacts : (styled node.style (textNodes node.content ++ drawingAll node.children)).compact = node) :
    compactAll node.drawing = [node] := by
  rcases branch_cases branch filled with ⟨content,some,rfl⟩ | single
  · rw [drawing_text some,compactAll,compact_text,compactAll]
  · rw [drawing_single single,compactAll,compacts,compactAll]

mutual
theorem drawing_compacts : ∀ {node : Node}, node.OutputForm →
    (styled node.style (textNodes node.content ++ drawingAll node.children)).compact = node
  | ⟨content,style,children⟩,output => by
    obtain ⟨⟨settled,_,head⟩,each⟩ := output_iff.mp output
    rw [styled,compact,compactAll_append,compactAll_text,drawingAll_compacts each settled.joined,
      merge_fixed (text_joined settled.joined head),text_absorbed settled.led]
    exact fold_fixed settled.single
theorem drawingAll_compacts : ∀ {nodes : List Node}, (∀ node ∈ nodes, node.Branch) → Joined nodes →
    compactAll (drawingAll nodes) = nodes
  | [],_,_ => rfl
  | node :: rest,each,joined => by
    obtain ⟨filled,_,joined⟩ := joined_cons.mp joined
    have branch := each node (by simp)
    rw [drawingAll,compactAll_append,drawing_branch branch filled (drawing_compacts branch.1),
      drawingAll_compacts (fun other member => each other (by simp [member])) joined]
    rfl
end

theorem compact_drawing {node : Node} (output : node.OutputForm) :
    (styled .plain node.drawing).compact = node := by
  have compacts := drawing_compacts output
  rcases (output_iff.mp output).1.styles with plain | single
  · have inner : node.drawing = textNodes node.content ++ drawingAll node.children := by
      cases node
      cases plain
      rfl
    rwa [inner,← plain]
  · have styled := Style.single_styled single
    rw [drawing_single single,Node.styled,compact,compactAll,compacts,compactAll]
    have joined : Joined [node] :=
      joined_cons.mpr ⟨by simp [isBlank,isPlain,styled],by simp [Leads],joined_nil⟩
    rw [merge_fixed joined,absorb_fixed (by simp [isPlain,styled]),fold]
    rfl

-- Texts of siblings stay apart in the pieces: a piece at an edge is a text exactly
-- when the node there is plain.
structure Framed (node : Node) : Prop where
  writable : Writable node.pieces
  first : ∃ piece, node.pieces.head? = some piece ∧ piece.isText = node.isPlain
  last : ∃ piece, node.pieces.getLast? = some piece ∧ piece.isText = node.isPlain

theorem writable_nil : Writable [] := ⟨by simp,by simp⟩

theorem writable_append {one two : List Piece} (left : Writable one) (right : Writable two)
    (apart : ∀ piece ∈ one.getLast?, ∀ next ∈ two.head?, (piece.isText && next.isText) = false) :
    Writable (one ++ two) :=
  ⟨fun piece member => (List.mem_append.mp member).elim (left.valid piece) (right.valid piece),
    List.isChain_append.mpr ⟨left.apart,right.apart,apart⟩⟩

theorem textPieces_writable (content : String) : Writable (textPieces content) := by
  unfold textPieces
  split
  · exact writable_nil
  · rename_i filled
    exact ⟨by simpa [Piece.isValid] using filled,by simp⟩

theorem enclosed_writable {name : String} {inner : List Piece} (valid : isTagName name.toList = true)
    (writable : Writable inner) : Writable (.opening name [] :: (inner ++ [.closing name])) := by
  have closing : Writable [Piece.closing name] := ⟨by simpa [Piece.isValid] using valid,by simp⟩
  have opening : Writable [Piece.opening name []] := ⟨by simpa [Piece.isValid] using valid,by simp⟩
  have ended := writable_append writable closing (by simp [Piece.isText])
  exact writable_append opening ended (by simp [Piece.isText])

theorem piecesAll_head {nodes : List Node} (each : ∀ node ∈ nodes, node.Framed) :
    ∀ piece ∈ (piecesAll nodes).head?, ∃ node ∈ nodes.head?, piece.isText = node.isPlain := by
  cases nodes with
  | nil => simp [piecesAll]
  | cons node rest =>
    obtain ⟨piece,first,same⟩ := (each node (by simp)).first
    simp [piecesAll,List.head?_append,first,same]

theorem inner_writable {content : String} {children : List Node} (each : ∀ child ∈ children, child.Framed)
    (head : content ≠ "" → ∀ first ∈ children.head?, first.isPlain = false)
    (writable : Writable (piecesAll children)) : Writable (textPieces content ++ piecesAll children) := by
  refine writable_append (textPieces_writable content) writable ?_
  intro piece last next first
  by_cases empty : content = ""
  · simp [textPieces,empty] at last
  · obtain ⟨node,among,same⟩ := piecesAll_head each next first
    rw [same,head empty node among,Bool.and_false]

theorem pieces_single {node : Node} {name : String} (tag : TagOf node.style name) :
    node.pieces = .opening name [] :: (textPieces node.content ++ piecesAll node.children ++ [.closing name]) := by
  cases node
  rw [pieces,enclose,tag.tagged]

theorem pieces_plain {node : Node} (plain : node.style = .plain) :
    node.pieces = textPieces node.content ++ piecesAll node.children := by
  cases node
  rw [pieces,enclose,Style.plain_tag plain]

theorem text_framed {content : String} (filled : content.isEmpty = false) : (text content).Framed := by
  have alone : (text content).pieces = [.text content] := by
    rw [pieces_plain rfl]
    simp [text,textPieces,filled,piecesAll]
  refine ⟨?_,⟨.text content,by rw [alone]; rfl,rfl⟩,⟨.text content,by rw [alone]; rfl,rfl⟩⟩
  rw [alone]
  exact ⟨by simpa [Piece.isValid] using filled,by simp⟩

theorem single_framed {node : Node} (single : node.style.IsSingle)
    (writable : Writable (textPieces node.content ++ piecesAll node.children)) : node.Framed := by
  obtain ⟨name,tag⟩ := Style.single_tag single
  have notPlain : node.isPlain = false := by rw [isPlain,Style.single_styled single,Bool.false_and]
  have enclosed := pieces_single tag
  refine ⟨?_,⟨.opening name [],by rw [enclosed]; rfl,notPlain.symm⟩,⟨.closing name,?_,notPlain.symm⟩⟩
  · rw [enclosed]
    exact enclosed_writable tag.valid writable
  · rw [enclosed,← List.cons_append,List.getLast?_concat]

mutual
theorem inner_framed : ∀ {node : Node}, node.OutputForm →
    Writable (textPieces node.content ++ piecesAll node.children)
  | ⟨content,style,children⟩,output => by
    obtain ⟨⟨settled,_,head⟩,each⟩ := output_iff.mp output
    obtain ⟨framed,writable⟩ := piecesAll_framed each settled.joined
    exact inner_writable framed head writable
theorem piecesAll_framed : ∀ {nodes : List Node}, (∀ node ∈ nodes, node.Branch) → Joined nodes →
    (∀ node ∈ nodes, node.Framed) ∧ Writable (piecesAll nodes)
  | [],_,_ => ⟨by simp,writable_nil⟩
  | node :: rest,each,joined => by
    obtain ⟨filled,leads,joined⟩ := joined_cons.mp joined
    obtain ⟨others,writable⟩ := piecesAll_framed (fun other member => each other (by simp [member])) joined
    have branch := each node (by simp)
    have inner := inner_framed branch.1
    have framed : node.Framed := by
      rcases branch_cases branch filled with ⟨content,some,rfl⟩ | single
      · exact text_framed some
      · exact single_framed single inner
    refine ⟨fun other member => ?_,writable_append framed.writable writable ?_⟩
    · rcases List.mem_cons.mp member with rfl | later
      · exact framed
      · exact others other later
    · intro piece last next first
      obtain ⟨edge,found,same⟩ := framed.last
      obtain ⟨follower,among,same'⟩ := piecesAll_head others next first
      rw [found,Option.mem_some_iff] at last
      rw [← last,same,same']
      exact leads follower among
end

end Node
end Phrasebook.RichText

namespace Phrasebook.Template
open RichText

theorem run_text (content : String) (position : Nat) (spans : List Span) :
    (tokensAt position (Node.textPieces content)).foldl stepBuiltin spans =
      append (Node.textNodes content) spans := by
  unfold Node.textPieces Node.textNodes
  split
  · exact (append_nil spans).symm
  · rfl

theorem step_opening (tag : TagOf style name) (position : Nat) (spans : List Span) :
    stepBuiltin spans ((Piece.opening name []).token position) = ⟨some name,style,[]⟩ :: spans := by
  simp [stepBuiltin,Piece.token,placeUnclaimed,tag.ordinary,tag.builtin,tag.canonical]

theorem step_closing (tag : TagOf style name) (position : Nat) (children : List Node) (top : Span)
    (outer : List Span) :
    stepBuiltin (⟨some name,style,children⟩ :: top :: outer) ((Piece.closing name).token position) =
      append [.styled style children] (top :: outer) := by
  simp [stepBuiltin,Piece.token,closeSpan,tag.canonical,List.findIdx?_cons,foldSpans,foldTop,Span.node]

mutual
theorem run_pieces : ∀ {node : Node}, node.OutputForm → ∀ (position : Nat) (top : Span) (outer : List Span),
    (tokensAt position node.pieces).foldl stepBuiltin (top :: outer) = append node.drawing (top :: outer)
  | ⟨content,style,children⟩,output,position,top,outer => by
    obtain ⟨tidy,each⟩ := Node.output_iff.mp output
    have inner (position : Nat) (top : Span) (outer : List Span) :
        (tokensAt position (Node.textPieces content ++ Node.piecesAll children)).foldl stepBuiltin
          (top :: outer) = append (Node.textNodes content ++ Node.drawingAll children) (top :: outer) := by
      rw [tokensAt_append,List.foldl_append,run_text,append,run_piecesAll each,← append,append_append]
    rcases tidy.styles with plain | single
    · have drawn : (⟨content,style,children⟩ : Node).drawing =
          Node.textNodes content ++ Node.drawingAll children := by
        cases plain
        rfl
      rw [Node.pieces_plain plain,drawn]
      exact inner position top outer
    · obtain ⟨name,tag⟩ := Style.single_tag single
      rw [Node.pieces_single tag,Node.drawing_single single,tokensAt,List.foldl_cons,step_opening tag,
        tokensAt_append,List.foldl_append,inner,append,tokensAt,tokensAt,List.foldl_cons,List.foldl_nil,
        List.nil_append,step_closing tag]
theorem run_piecesAll : ∀ {nodes : List Node}, (∀ node ∈ nodes, node.Branch) →
    ∀ (position : Nat) (top : Span) (outer : List Span),
    (tokensAt position (Node.piecesAll nodes)).foldl stepBuiltin (top :: outer) =
      append (Node.drawingAll nodes) (top :: outer)
  | [],_,_,top,outer => (append_nil (top :: outer)).symm
  | node :: rest,each,position,top,outer => by
    rw [Node.piecesAll,tokensAt_append,List.foldl_append,run_pieces (each node (by simp)).1,append,
      run_piecesAll fun other member => each other (by simp [member]),← append,append_append]
    rfl
end

theorem output_writable {node : Node} (output : node.OutputForm) : Writable node.pieces := by
  rcases (Node.output_iff.mp output).1.styles with plain | single
  · rw [Node.pieces_plain plain]
    exact Node.inner_framed output
  · exact (Node.single_framed single (Node.inner_framed output)).writable

theorem tokenize_print {node : Node} (output : node.OutputForm) :
    tokenize node.print = tokensAt 0 node.pieces := by
  rw [tokenize,Node.print,String.toList_ofList,← Node.write_pieces,
    tokens_written (output_writable output) 0 (.inl rfl)]
  rfl

theorem parse_printed (engine : Engine) {node : Node} (output : node.OutputForm) :
    engine.parse node.print Tags.Registry.empty.resolver = .ok node := by
  have drawn : finish ((tokenize node.print).foldl stepBuiltin [Span.root]) = node.drawing := by
    rw [tokenize_print output,run_pieces output]
    rfl
  rw [parse_empty,drawn,Node.compact_drawing output]

-- Output form is exactly what templates of built-in tags amount to, and such a
-- tree is the reading of its own print.
theorem parse_print (engine : Engine) :
    (∀ template, ∃ node,
      engine.parse template Tags.Registry.empty.resolver = .ok node ∧ node.OutputForm) ∧
    (∀ node : Node, node.OutputForm →
      engine.parse node.print Tags.Registry.empty.resolver = .ok node) ∧
    (∀ template node, engine.parse template Tags.Registry.empty.resolver = .ok node →
      engine.parse node.print Tags.Registry.empty.resolver = .ok node) := by
  refine ⟨parse_output engine,fun node output => parse_printed engine output,?_⟩
  intro template node parsed
  obtain ⟨other,same,output⟩ := parse_output engine template
  rw [parsed] at same
  cases same
  exact parse_printed engine output

theorem parse_print_nested :
    let node : Node := ⟨"1 < 2",.colored .red,[⟨"\\é",.decorated .bold,[]⟩,.text "!"]⟩
    node.OutputForm ∧ node.print = "<red>1 \\< 2<bold>\\\\é</bold>!</red>" ∧
      Engine.standard.parse node.print Tags.Registry.empty.resolver = .ok node := by
  intro node
  have output : node.OutputForm := by
    refine ⟨by decide +kernel,?_,?_,?_⟩
    · intro inner member
      simp [node,Node.subtrees,Node.subtreesAll,Node.text] at member
      rcases member with rfl | rfl | rfl
      · exact .inr (.colored .red)
      · exact .inr (.decorated .bold)
      · exact .inl rfl
    · decide +kernel
    · decide +kernel
  exact ⟨output,by decide +kernel,(parse_print .standard).2.1 node output⟩

end Phrasebook.Template
