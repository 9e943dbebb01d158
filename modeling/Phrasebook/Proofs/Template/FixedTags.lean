import Phrasebook.Proofs.RichText.Alike
import Phrasebook.Proofs.Template.Spelling
import Phrasebook.Proofs.Template.Stack
import Phrasebook.Proofs.Traced
namespace Phrasebook.Template
open RichText

-- Reading with a fixed table of tags. Nothing is called and only the depth can
-- fail, so a template comes to a list of nodes or to nothing.

def Resolver.Answers (resolver : Resolver) (table : String → Option Tag) : Prop :=
  ∀ depth site arguments, resolver.request depth site arguments = .ok (table site.name)

section Table
variable (table : String → Option Tag)

def place (nested : String → Option (List Node)) (spans : List Span) : Token → Option (List Span)
  | .text content => some (append [.text content] spans)
  | .opening site arguments =>
    match table site.name with
    | some (.insert node) => some (append [node] spans)
    | some (.markup text) => (nested text).map fun nodes => append nodes spans
    | some (.span style) => some (⟨some (canonicalName site.name),style,[]⟩ :: spans)
    | none => some (placeUnclaimed site arguments spans)
  | .closing site =>
    some ((closeSpan (canonicalName site.name) spans).getD (append [.text site.source] spans))

-- `levels` counts this template and those inserted below it.
def readFixed : Nat → String → Option (List Node)
  | 0,_ => none
  | levels + 1,template =>
    ((tokenize template).foldlM (place table (readFixed levels)) [Span.root]).map finish

end Table

section Engine
variable {table : String → Option Tag} {resolver : Resolver} {nested : String → Option (List Node)}
  {insertion : Site → String → Traced Failure (List Node)}

theorem step_places (answers : resolver.Answers table)
    (inserted : ∀ site markup, (insertion site markup).result = nested markup)
    (depth : Nat) (spans : List Span) (token : Token) :
    (step resolver depth insertion spans token).result = place table nested spans token := by
  cases token with
  | text content => rfl
  | closing site => rfl
  | opening site arguments =>
    rw [step,answers,Traced.ok_bind,place]
    cases table site.name with
    | none => rfl
    | some tag =>
      cases tag with
      | insert node => rfl
      | span style => rfl
      | markup text =>
        simp only [placeTag,Traced.result_bind,inserted]
        cases nested text <;> rfl

theorem template_places (answers : resolver.Answers table)
    (inserted : ∀ site markup, (insertion site markup).result = nested markup)
    (depth : Nat) (template : String) :
    (readTokens resolver depth insertion template).result =
      ((tokenize template).foldlM (place table nested) [Span.root]).map finish := by
  rw [readTokens,Traced.result_bind,Traced.result_foldlM (step_places answers inserted depth)]
  cases (tokenize template).foldlM (place table nested) [Span.root] <;> rfl

theorem nodes_fixed (answers : resolver.Answers table) (limit remaining : Nat) (template : String) :
    (readNodes resolver limit remaining template).result = readFixed table (remaining + 1) template := by
  induction remaining generalizing template with
  | zero =>
    have refused (site : Site) (markup : String) :
        (Traced.fail (.depthExceeded limit site) : Traced Failure (List Node)).result =
          readFixed table 0 markup := by
      rw [Traced.result_fail,readFixed]
    rw [readNodes,readFixed]
    exact template_places answers refused (limit - 0) template
  | succ remaining ih =>
    rw [readNodes,readFixed]
    exact template_places answers (fun _ markup => ih markup) _ template

theorem parse_fixed (answers : resolver.Answers table) (engine : Engine) (template : String) :
    (engine.parse template resolver).result =
      (readFixed table (engine.maxDepth + 1) template).map fun nodes => (Node.styled .plain nodes).compact := by
  rw [Engine.parse,Traced.result_bind,nodes_fixed answers]
  cases readFixed table (engine.maxDepth + 1) template <;> rfl

end Engine

section Deeper
variable {table : String → Option Tag} {nested nested' : String → Option (List Node)}

theorem fold_kept {step step' : α → γ → Option α}
    (kept : ∀ value item after, step value item = some after → step' value item = some after)
    {items : List γ} (ran : items.foldlM step value = some after) :
    items.foldlM step' value = some after := by
  induction items generalizing value with
  | nil => exact ran
  | cons item rest ih =>
    rw [List.foldlM_cons] at ran ⊢
    obtain ⟨middle,first,later⟩ := Option.bind_eq_some_iff.mp ran
    exact Option.bind_eq_some_iff.mpr ⟨middle,kept _ _ _ first,ih later⟩

theorem place_kept (wider : ∀ text nodes, nested text = some nodes → nested' text = some nodes)
    (spans : List Span) (token : Token) (after : List Span)
    (placed : place table nested spans token = some after) : place table nested' spans token = some after := by
  cases token with
  | text content => exact placed
  | closing site => exact placed
  | opening site arguments =>
    rw [place] at placed ⊢
    cases found : table site.name with
    | none => rwa [found] at placed
    | some tag =>
      rw [found] at placed
      cases tag with
      | insert node => exact placed
      | span style => exact placed
      | markup text =>
        obtain ⟨nodes,read,same⟩ := Option.map_eq_some_iff.mp placed
        exact Option.map_eq_some_iff.mpr ⟨nodes,wider text nodes read,same⟩

theorem readFixed_deeper (levels : Nat) (template : String) (nodes : List Node)
    (read : readFixed table levels template = some nodes) :
    readFixed table (levels + 1) template = some nodes := by
  induction levels generalizing template nodes with
  | zero => cases read
  | succ levels ih =>
    rw [readFixed] at read ⊢
    obtain ⟨spans,ran,same⟩ := Option.map_eq_some_iff.mp read
    exact Option.map_eq_some_iff.mpr ⟨spans,fold_kept (place_kept ih) ran,same⟩

end Deeper
end Phrasebook.Template
