import Phrasebook.Proofs.Template.FixedTags
namespace Phrasebook.Template
open RichText

-- Templates written from any parts. Texts may be empty or stand side by side
-- then: they are read as one run, and the tree is that of the parts.

-- Stacks that differ only in how the text in them is cut.
inductive SpansAlike : List Span → List Span → Prop where
  | nil : SpansAlike [] []
  | cons (name : Option String) (style : Style) (children : Node.Alike one two)
      (outer : SpansAlike spans spans') : SpansAlike (⟨name,style,one⟩ :: spans) (⟨name,style,two⟩ :: spans')

namespace SpansAlike

theorem self (spans : List Span) : SpansAlike spans spans := by
  induction spans with
  | nil => exact .nil
  | cons span outer ih => exact .cons span.name span.style (Node.alike_self span.children) ih

theorem symm (alike : SpansAlike spans spans') : SpansAlike spans' spans := by
  induction alike with
  | nil => exact .nil
  | cons name style children outer ih => exact .cons name style (Eq.symm children) ih

theorem trans (first : SpansAlike one two) (second : SpansAlike two three) : SpansAlike one three := by
  induction first generalizing three with
  | nil => exact second
  | cons name style children outer ih =>
    cases second with
    | cons _ _ children' outer' => exact .cons name style (Node.alike_trans children children') (ih outer')

theorem appends (alike : SpansAlike spans spans') (nodes : Node.Alike one two) :
    SpansAlike (append one spans) (append two spans') := by
  cases alike with
  | nil => exact .nil
  | cons name style children outer => exact .cons name style (Node.alike_append children nodes) outer

theorem appends_same (alike : SpansAlike spans spans') (nodes : List Node) :
    SpansAlike (append nodes spans) (append nodes spans') :=
  alike.appends (Node.alike_self nodes)

theorem drops_blank (alike : SpansAlike spans spans') : SpansAlike (append [.text ""] spans) spans' := by
  have blank := alike.appends Node.alike_blank
  rwa [append_nil] at blank

theorem folds_top (alike : SpansAlike spans spans') : SpansAlike (foldTop spans) (foldTop spans') := by
  cases alike with
  | nil => exact .nil
  | cons name style children outer =>
    cases outer with
    | nil => exact .cons name style children .nil
    | cons around style' children' outer =>
      exact appends (.cons around style' children' outer) (Node.alike_styled children style)

theorem folds_spans (count : Nat) (alike : SpansAlike spans spans') :
    SpansAlike (foldSpans count spans) (foldSpans count spans') := by
  induction count generalizing spans spans' with
  | zero => exact alike
  | succ count ih => exact ih alike.folds_top

theorem length_eq (alike : SpansAlike spans spans') : spans.length = spans'.length := by
  induction alike with
  | nil => rfl
  | cons name style children outer ih => simp [ih]

theorem folds_all (alike : SpansAlike spans spans') : SpansAlike (foldAll spans) (foldAll spans') := by
  rw [foldAll,foldAll,alike.length_eq]
  exact alike.folds_spans _

theorem finishes (alike : SpansAlike spans spans') : Node.Alike (finish spans) (finish spans') := by
  have folded := alike.folds_all
  unfold finish
  generalize foldAll spans = remaining at folded ⊢
  generalize foldAll spans' = remaining' at folded ⊢
  cases folded with
  | nil => exact Node.alike_self []
  | cons name style children outer => exact children

theorem finds_name (alike : SpansAlike spans spans') (name : String) :
    (spans.findIdx? fun span => span.name == some name) =
      spans'.findIdx? fun span => span.name == some name := by
  induction alike with
  | nil => rfl
  | cons own style children outer ih => rw [List.findIdx?_cons,List.findIdx?_cons,ih]

theorem closes (alike : SpansAlike spans spans') (site : Site) :
    SpansAlike ((closeSpan (canonicalName site.name) spans).getD (append [.text site.source] spans))
      ((closeSpan (canonicalName site.name) spans').getD (append [.text site.source] spans')) := by
  rw [closeSpan,closeSpan,alike.finds_name]
  cases spans'.findIdx? fun span => span.name == some (canonicalName site.name) with
  | none => exact alike.appends_same _
  | some index => exact alike.folds_spans (index + 1)

theorem enters (alike : SpansAlike spans spans') (name : Option String) (style : Style) :
    SpansAlike (⟨name,style,[]⟩ :: spans) (⟨name,style,[]⟩ :: spans') :=
  .cons name style (Node.alike_self []) alike

theorem places (alike : SpansAlike spans spans') (site : Site) (arguments : List String) :
    SpansAlike (placeUnclaimed site arguments spans) (placeUnclaimed site arguments spans') := by
  unfold placeUnclaimed
  split
  · exact alike.folds_all
  · split
    · exact alike.enters _ _
    · exact alike.appends_same _

end SpansAlike

theorem rel_bind {relation : α → β → Prop} {later : γ → δ → Prop} {next : α → Option γ} {next' : β → Option δ}
    (related : Option.Rel relation one two)
    (continued : ∀ {value value'}, relation value value' → Option.Rel later (next value) (next' value')) :
    Option.Rel later (one.bind next) (two.bind next') := by
  cases related with
  | none => exact .none
  | some related => exact continued related

theorem rel_map {relation : α → β → Prop} {later : γ → δ → Prop} {view : α → γ} {view' : β → δ}
    (related : Option.Rel relation one two)
    (shown : ∀ {value value'}, relation value value' → later (view value) (view' value')) :
    Option.Rel later (one.map view) (two.map view') := by
  cases related with
  | none => exact .none
  | some related => exact .some (shown related)

theorem rel_same {relation : α → β → Prop} {view : α → γ} {view' : β → γ} (related : Option.Rel relation one two)
    (same : ∀ {value value'}, relation value value' → view value = view' value') :
    one.map view = two.map view' := by
  cases related with
  | none => rfl
  | some related => exact congrArg some (same related)

section Placing
variable {table : String → Option Tag} {nested : String → Option (List Node)}

theorem place_alike (alike : SpansAlike spans spans') (token : Token) :
    Option.Rel SpansAlike (place table nested spans token) (place table nested spans' token) := by
  cases token with
  | text content => exact .some (alike.appends_same _)
  | closing site => exact .some (alike.closes site)
  | opening site arguments =>
    rw [place,place]
    cases table site.name with
    | none => exact .some (alike.places site arguments)
    | some tag =>
      cases tag with
      | insert node => exact .some (alike.appends_same [node])
      | span style => exact .some (alike.enters _ style)
      | markup text =>
        change Option.Rel SpansAlike ((nested text).map fun nodes => append nodes spans)
          ((nested text).map fun nodes => append nodes spans')
        cases nested text with
        | none => exact .none
        | some nodes => exact .some (alike.appends_same nodes)

-- Where a piece stands makes no difference when nothing can fail there.
def placePiece (table : String → Option Tag) (nested : String → Option (List Node)) (spans : List Span)
    (piece : Piece) : Option (List Span) :=
  place table nested spans (piece.token 0)

theorem place_token (position : Nat) (spans : List Span) (piece : Piece) :
    place table nested spans (piece.token position) = placePiece table nested spans piece := by
  cases piece <;> rfl

theorem pieces_alike (pieces : List Piece) (alike : SpansAlike spans spans') :
    Option.Rel SpansAlike (pieces.foldlM (placePiece table nested) spans)
      (pieces.foldlM (placePiece table nested) spans') := by
  induction pieces generalizing spans spans' with
  | nil => exact .some alike
  | cons piece rest ih =>
    rw [List.foldlM_cons,List.foldlM_cons]
    exact rel_bind (place_alike alike (piece.token 0)) ih

def Tagged (pieces : List Piece) : Prop :=
  ∀ piece ∈ pieces, piece.isText = true ∨ piece.isValid = true

theorem run_alike (run : List Char) (spans : List Span) :
    ∃ after, (textToken run).foldlM (place table nested) spans = some after ∧
      SpansAlike after (append [.text (String.ofList run.reverse)] spans) := by
  cases run with
  | nil =>
    refine ⟨spans,rfl,?_⟩
    have blank := (SpansAlike.self spans).appends Node.alike_blank.symm
    rwa [append_nil] at blank
  | cons c rest => exact ⟨_,rfl,.self _⟩

theorem texts_alike (alike : SpansAlike (append [.text first] spans) spans') (second : String) :
    SpansAlike (append [.text (first ++ second)] spans) (append [.text second] spans') := by
  have joined := (SpansAlike.self spans).appends (Node.alike_texts first second).symm
  refine joined.trans ?_
  rw [← List.singleton_append,← append_append]
  exact alike.appends_same [.text second]

-- The tokens of a written template against its pieces. The run is what was read
-- of the current text, and counts as a piece of its own.
theorem tokens_alike {pieces : List Piece} (tagged : Tagged pieces) (position : Nat) {run : List Char}
    (alike : SpansAlike (append [.text (String.ofList run.reverse)] spans) spans') :
    Option.Rel SpansAlike ((tokensFrom position run (write pieces)).foldlM (place table nested) spans)
      (pieces.foldlM (placePiece table nested) spans') := by
  induction pieces generalizing position run spans spans' with
  | nil =>
    obtain ⟨after,placed,same⟩ := @run_alike table nested run spans
    have ended : tokensFrom position run (write []) = textToken run := by rw [write,List.flatMap_nil,tokensFrom]
    rw [ended,placed]
    exact .some (same.trans alike)
  | cons piece rest ih =>
    have later : Tagged rest := fun other member => tagged other (by simp [member])
    have written : write (piece :: rest) = piece.written ++ write rest := rfl
    rw [written]
    cases texted : piece.isText with
    | true =>
      cases piece with
      | opening name arguments => cases texted
      | closing name => cases texted
      | text content =>
        rw [Piece.written,tokens_text]
        refine ih later _ ?_
        rw [List.reverse_append,List.reverse_reverse,String.ofList_append,String.ofList_toList]
        exact texts_alike alike content
    | false =>
      have valid : piece.isValid = true := by simpa [texted] using tagged piece (by simp)
      obtain ⟨after,placed,same⟩ := @run_alike table nested run spans
      rw [tokens_piece valid texted,List.foldlM_append,placed]
      change Option.Rel SpansAlike (List.foldlM _ after (_ :: _)) _
      rw [List.foldlM_cons,List.foldlM_cons,place_token]
      refine rel_bind (place_alike (same.trans alike) (piece.token 0)) ?_
      intro after after' placed
      exact ih later _ placed.drops_blank

theorem read_written {pieces : List Piece} (tagged : Tagged pieces) (levels : Nat) :
    Option.Rel Node.Alike (readFixed table (levels + 1) (String.ofList (write pieces)))
      ((pieces.foldlM (placePiece table (readFixed table levels)) [Span.root]).map finish) := by
  have alike : SpansAlike (append [.text (String.ofList [])] [Span.root]) [Span.root] :=
    (SpansAlike.self [Span.root]).drops_blank
  have related := @tokens_alike table (readFixed table levels) _ _ pieces tagged 0 [] alike
  rw [readFixed,tokenize,String.toList_ofList]
  exact rel_map related SpansAlike.finishes

theorem parse_written {resolver : Resolver} (answers : resolver.Answers table) {pieces : List Piece}
    (tagged : Tagged pieces) (engine : Engine) :
    (engine.parse (String.ofList (write pieces)) resolver).result =
      (pieces.foldlM (placePiece table (readFixed table engine.maxDepth)) [Span.root]).map
        ((fun nodes => (Node.styled .plain nodes).compact) ∘ finish) := by
  rw [parse_fixed answers,← Option.map_map (fun nodes => (Node.styled .plain nodes).compact) finish]
  exact rel_same (read_written tagged engine.maxDepth) fun alike => Node.compact_alike alike .plain

end Placing
end Phrasebook.Template
