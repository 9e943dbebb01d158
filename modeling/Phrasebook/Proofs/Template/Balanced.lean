import Phrasebook.Proofs.Template.FlatReading
import Phrasebook.Proofs.Template.LooseWriting
namespace Phrasebook.Template
open RichText

-- Pieces that close every span they open and no other. They place the same nodes
-- on any stack.

section Table
variable (table : String → Option Tag)

-- The spans of one's own that are open after a piece, innermost first. No answer
-- means that the piece reaches for spans around.
def openAfter (opened : List OpenSpan) : Piece → Option (List OpenSpan)
  | .text _ => some opened
  | .closing name => outside (canonicalName name) opened
  | .opening name arguments =>
    match table name with
    | some (.span style) => some (⟨canonicalName name,style⟩ :: opened)
    | some _ => some opened
    | none =>
      if name = "reset" then none
      else match builtinStyle name (arguments.map Quoted.value) with
        | some style => some (⟨canonicalName name,style⟩ :: opened)
        | none => some opened

def Balanced (pieces : List Piece) : Prop := pieces.foldlM (openAfter table) [] = some []

end Table

-- A stack of one's own and the same spans on top of another stack, to which the
-- nodes of the outermost go.
inductive Grafted (base : List Span) : List OpenSpan → List Span → List Span → Prop where
  | root (children : List Node) : Grafted base [] [⟨none,.plain,children⟩] (append children base)
  | deeper (name : String) (style : Style) (children : List Node) (outer : Grafted base opened spans spans') :
      Grafted base (⟨name,style⟩ :: opened) (⟨some name,style,children⟩ :: spans)
        (⟨some name,style,children⟩ :: spans')

namespace Grafted
variable {base : List Span}

theorem filled (grafted : Grafted base opened spans spans') (bottom : base ≠ []) :
    spans ≠ [] ∧ spans' ≠ [] := by
  cases grafted with
  | root children => exact ⟨by simp,append_filled bottom children⟩
  | deeper name style children outer => exact ⟨by simp,by simp⟩

theorem appends (grafted : Grafted base opened spans spans') (nodes : List Node) :
    Grafted base opened (append nodes spans) (append nodes spans') := by
  cases grafted with
  | root children =>
    rw [append_append]
    exact root (children ++ nodes)
  | deeper name style children outer => exact deeper name style (children ++ nodes) outer

theorem enters (grafted : Grafted base opened spans spans') (name : String) (style : Style) :
    Grafted base (⟨name,style⟩ :: opened) (⟨some name,style,[]⟩ :: spans) (⟨some name,style,[]⟩ :: spans') :=
  deeper name style [] grafted

theorem folds_top (grafted : Grafted base (span :: opened) spans spans') (bottom : base ≠ []) :
    Grafted base opened (foldTop spans) (foldTop spans') := by
  cases grafted with
  | deeper name style children outer =>
    obtain ⟨own,grafted⟩ := outer.filled bottom
    rw [foldTop_cons own,foldTop_cons grafted]
    exact outer.appends _

theorem folds_spans (count : Nat) (grafted : Grafted base opened spans spans') (bottom : base ≠ [])
    (enough : count ≤ opened.length) :
    Grafted base (opened.drop count) (foldSpans count spans) (foldSpans count spans') := by
  induction count generalizing opened spans spans' with
  | zero => exact grafted
  | succ count ih =>
    cases opened with
    | nil => simp at enough
    | cons span opened => exact ih (grafted.folds_top bottom) (by simpa using enough)

theorem finds_name (grafted : Grafted base opened spans spans')
    (found : opened.findIdx? (·.name == name) = some index) :
    (spans.findIdx? fun span => span.name == some name) = some index ∧
      (spans'.findIdx? fun span => span.name == some name) = some index := by
  induction grafted generalizing index with
  | root children => cases found
  | deeper own style children outer ih =>
    rw [List.findIdx?_cons] at found ⊢
    rw [List.findIdx?_cons]
    by_cases here : own = name
    · simpa [here] using found
    · have further : ¬(own == name) = true := by simpa using here
      rw [if_neg further] at found
      obtain ⟨before,earlier,rfl⟩ := Option.map_eq_some_iff.mp found
      obtain ⟨one,two⟩ := ih earlier
      simp [here,one,two]

theorem closes (grafted : Grafted base opened spans spans') (bottom : base ≠ [])
    (left : outside name opened = some after) :
    ∃ folded folded', closeSpan name spans = some folded ∧ closeSpan name spans' = some folded' ∧
      Grafted base after folded folded' := by
  rw [outside_found] at left
  obtain ⟨index,found,rfl⟩ := Option.map_eq_some_iff.mp left
  obtain ⟨one,two⟩ := grafted.finds_name found
  have inside := (List.findIdx?_eq_some_iff_findIdx_eq.mp found).1
  refine ⟨_,_,?_,?_,grafted.folds_spans (index + 1) bottom inside⟩
  · rw [closeSpan,one,Option.map_some]
  · rw [closeSpan,two,Option.map_some]

section Placing
variable {table : String → Option Tag} {nested : String → Option (List Node)}

theorem places (grafted : Grafted base opened spans spans') (bottom : base ≠ []) (piece : Piece)
    (inside : openAfter table opened piece = some opened')
    (placed : placePiece table nested spans piece = some after) :
    ∃ after', placePiece table nested spans' piece = some after' ∧ Grafted base opened' after after' := by
  cases piece with
  | text content =>
    cases inside
    cases placed
    exact ⟨_,rfl,grafted.appends _⟩
  | closing name =>
    obtain ⟨folded,folded',one,two,closed⟩ := grafted.closes bottom inside
    simp only [placePiece,Piece.token,place,one,Option.getD_some,Option.some.injEq] at placed
    subst placed
    refine ⟨folded',?_,closed⟩
    simp only [placePiece,Piece.token,place,two,Option.getD_some]
  | opening name arguments =>
    simp only [openAfter] at inside
    simp only [placePiece,Piece.token,place] at placed ⊢
    cases found : table name with
    | some tag =>
      rw [found] at inside placed
      cases tag with
      | insert node =>
        cases inside
        cases placed
        exact ⟨_,rfl,grafted.appends [node]⟩
      | span style =>
        cases inside
        cases placed
        exact ⟨_,rfl,grafted.enters (canonicalName name) style⟩
      | markup text =>
        cases inside
        obtain ⟨nodes,read,rfl⟩ := Option.map_eq_some_iff.mp placed
        exact ⟨append nodes spans',Option.map_eq_some_iff.mpr ⟨nodes,read,rfl⟩,grafted.appends nodes⟩
    | none =>
      rw [found] at inside placed
      simp only [placeUnclaimed] at placed ⊢
      by_cases reset : name = "reset"
      · rw [if_pos reset] at inside
        cases inside
      · rw [if_neg reset] at inside placed ⊢
        cases styled : builtinStyle name (arguments.map Quoted.value) with
        | some style =>
          rw [styled] at inside placed
          cases inside
          cases placed
          exact ⟨_,rfl,grafted.enters (canonicalName name) style⟩
        | none =>
          rw [styled] at inside placed
          cases inside
          cases placed
          exact ⟨_,rfl,grafted.appends _⟩

theorem runs (grafted : Grafted base opened spans spans') (bottom : base ≠ []) {pieces : List Piece}
    (inside : pieces.foldlM (openAfter table) opened = some opened')
    (ran : pieces.foldlM (placePiece table nested) spans = some after) :
    ∃ after', pieces.foldlM (placePiece table nested) spans' = some after' ∧
      Grafted base opened' after after' := by
  induction pieces generalizing opened spans spans' with
  | nil =>
    cases inside
    cases ran
    exact ⟨spans',rfl,grafted⟩
  | cons piece rest ih =>
    rw [List.foldlM_cons] at inside ran
    obtain ⟨_,inside,insideRest⟩ := Option.bind_eq_some_iff.mp inside
    obtain ⟨_,placed,ranRest⟩ := Option.bind_eq_some_iff.mp ran
    obtain ⟨middle,placed',grafted⟩ := grafted.places bottom piece inside placed
    obtain ⟨last,ran',grafted⟩ := ih grafted insideRest ranRest
    refine ⟨last,?_,grafted⟩
    rw [List.foldlM_cons,placed']
    exact ran'

end Placing
end Grafted

theorem balanced_runs {table : String → Option Tag} {nested : String → Option (List Node)} {pieces : List Piece}
    (balanced : Balanced table pieces) (ran : pieces.foldlM (placePiece table nested) [Span.root] = some spans)
    {base : List Span} (bottom : base ≠ []) :
    pieces.foldlM (placePiece table nested) base = some (append (finish spans) base) := by
  have start : Grafted base [] [Span.root] base := by
    have root : Grafted base [] [Span.root] (append [] base) := .root []
    rwa [append_nil] at root
  obtain ⟨after,ran',grafted⟩ := start.runs bottom balanced ran
  cases grafted with
  | root children => exact ran'

end Phrasebook.Template
