import Phrasebook.Proofs.Tags.Placeless
import Phrasebook.Proofs.Template.ErrorSites
import Phrasebook.Proofs.Template.LineBreaks
import Phrasebook.Proofs.Template.LooseWriting
namespace Phrasebook.Template
open RichText Traced

-- What a template amounts to is settled by its symbols. The places of its tags show in
-- failures only, unless a tag function makes something of its place.

def Failure.unplaced : Failure → Failure
  | .tag message site argument => .tag message (site.movedTo 0) argument
  | .depthExceeded limit site => .depthExceeded limit (site.movedTo 0)

-- Each opening tag among the symbols is answered in the same way wherever it stands.
def Resolver.Steady (resolver : Resolver) (symbols : List Symbol) : Prop :=
  ∀ site arguments, .opening site.name site.source arguments ∈ symbols →
    (resolver.request 0 site arguments).mapError Failure.unplaced =
      (resolver.request 0 (site.movedTo 0) arguments).mapError Failure.unplaced

theorem steady_append {resolver : Resolver} (steady : resolver.Steady (one ++ two)) :
    resolver.Steady one ∧ resolver.Steady two :=
  ⟨fun site arguments member => steady site arguments (List.mem_append_left _ member),
    fun site arguments member => steady site arguments (List.mem_append_right _ member)⟩

theorem steady_text {resolver : Resolver} {later : List Symbol} (steady : resolver.Steady later) (text : List Char) :
    resolver.Steady (text.map .char ++ later) := by
  intro site arguments member
  rcases List.mem_append.mp member with inside | behind
  · obtain ⟨c,_,equal⟩ := List.mem_map.mp inside
    cases equal
  · exact steady site arguments behind

def Symbol.token : Symbol → Token
  | .char c => .text (String.singleton c)
  | .opening name source arguments => .opening ⟨name,source,0⟩ arguments
  | .closing name source => .closing ⟨name,source,0⟩

section
variable (resolver : Resolver) (insertion : Site → String → Traced Failure (List Node))

def readUnplaced (tokens : List Token) (spans : List Span) : Traced Failure (List Span) :=
  (tokens.foldlM (step resolver 0 insertion) spans).mapError Failure.unplaced

theorem read_cons (token : Token) (rest : List Token) (spans : List Span) :
    readUnplaced resolver insertion (token :: rest) spans =
      (step resolver 0 insertion spans token).mapError Failure.unplaced >>= readUnplaced resolver insertion rest := by
  rw [readUnplaced,List.foldlM_cons,mapError_bind]
  rfl

theorem read_append (one two : List Token) (spans : List Span) :
    readUnplaced resolver insertion (one ++ two) spans =
      readUnplaced resolver insertion one spans >>= readUnplaced resolver insertion two := by
  rw [readUnplaced,List.foldlM_append,mapError_bind]
  rfl

end

section
variable {resolver : Resolver} {insertion : Site → String → Traced Failure (List Node)}

theorem characters_alike (text : List Char) (alike : SpansAlike spans spans') :
    ∃ after, readUnplaced resolver insertion ((text.map .char).map Symbol.token) spans' = pure after ∧
      SpansAlike (append [.text (String.ofList text)] spans) after := by
  induction text generalizing spans spans' with
  | nil => exact ⟨spans',rfl,alike.drops_blank⟩
  | cons c text ih =>
    obtain ⟨after,read,same⟩ := ih (alike.appends_same [.text (String.singleton c)])
    refine ⟨after,?_,?_⟩
    · rw [List.map_cons,List.map_cons,read_cons]
      exact read
    · rw [String.ofList_cons]
      exact (texts_alike (.self _) _).trans same

variable (anywhere : ∀ site markup, (insertion site markup).mapError Failure.unplaced =
  (insertion (site.movedTo 0) markup).mapError Failure.unplaced)
include anywhere

theorem opening_alike (site : Site) (arguments : List String)
    (steady : (resolver.request 0 site arguments).mapError Failure.unplaced =
      (resolver.request 0 (site.movedTo 0) arguments).mapError Failure.unplaced)
    (alike : SpansAlike spans spans') :
    Related SpansAlike ((step resolver 0 insertion spans (.opening site arguments)).mapError Failure.unplaced)
      ((step resolver 0 insertion spans' (.opening (site.movedTo 0) arguments)).mapError Failure.unplaced) := by
  rw [step,step,mapError_bind,mapError_bind,steady]
  refine related_next ?_
  intro answer _
  cases answer with
  | none => exact related_pure (alike.places site arguments)
  | some tag =>
    cases tag with
    | insert node => exact related_pure (alike.appends_same [node])
    | span style => exact related_pure (alike.enters (some (canonicalName site.name)) style)
    | markup markup =>
      simp only [placeTag]
      rw [mapError_bind,mapError_bind,anywhere]
      exact related_next fun nodes _ => related_pure (alike.appends_same nodes)

theorem token_alike (token : Token) (steady : resolver.Steady token.symbols) (alike : SpansAlike spans spans') :
    Related SpansAlike ((step resolver 0 insertion spans token).mapError Failure.unplaced)
      (readUnplaced resolver insertion (token.symbols.map Symbol.token) spans') := by
  cases token with
  | text content =>
    obtain ⟨after,read,same⟩ := @characters_alike resolver insertion _ _ content.toList alike
    rw [String.ofList_toList] at same
    rw [Token.symbols,read]
    exact related_pure same
  | closing site => exact related_pure (alike.closes site)
  | opening site arguments =>
    have single : readUnplaced resolver insertion ((Token.opening site arguments).symbols.map Symbol.token) spans' =
        (step resolver 0 insertion spans' (.opening (site.movedTo 0) arguments)).mapError Failure.unplaced :=
      congrArg (mapError Failure.unplaced) (Traced.bind_pure _)
    rw [single]
    exact opening_alike anywhere site arguments (steady site arguments (List.mem_singleton_self _)) alike

theorem tokens_read (tokens : List Token) (steady : resolver.Steady (tokens.flatMap Token.symbols))
    (alike : SpansAlike spans spans') :
    Related SpansAlike (readUnplaced resolver insertion tokens spans)
      (readUnplaced resolver insertion ((tokens.flatMap Token.symbols).map Symbol.token) spans') := by
  induction tokens generalizing spans spans' with
  | nil => exact related_pure alike
  | cons token rest ih =>
    rw [List.flatMap_cons] at steady ⊢
    obtain ⟨here,later⟩ := steady_append steady
    rw [List.map_append,read_append,read_cons]
    exact related_bind (token_alike anywhere token here alike) (ih later)

theorem symbols_settle {one two : List Token} (same : one.flatMap Token.symbols = two.flatMap Token.symbols)
    (steady : resolver.Steady (one.flatMap Token.symbols)) (spans : List Span) :
    Related SpansAlike (readUnplaced resolver insertion one spans) (readUnplaced resolver insertion two spans) := by
  have first := tokens_read anywhere one steady (.self spans)
  rw [same] at steady first
  have second := tokens_read anywhere two steady (.self spans)
  refine related_weaken (related_meet first second) ?_
  intro after after' met
  obtain ⟨shown,seen,seen'⟩ := met
  exact seen.trans seen'.symm

end

theorem inside_anywhere (resolver : Resolver) (limit remaining : Nat) (site : Site) (markup : String) :
    (readInside resolver limit remaining site markup).mapError Failure.unplaced =
      (readInside resolver limit remaining (site.movedTo 0) markup).mapError Failure.unplaced := by
  cases remaining <;> rfl

theorem parse_alike (engine : Engine) (related : Related SpansAlike
    (readUnplaced resolver (readInside resolver engine.maxDepth engine.maxDepth) (tokenize one) [Span.root])
    (readUnplaced resolver (readInside resolver engine.maxDepth engine.maxDepth) (tokenize two) [Span.root])) :
    (engine.parse one resolver).mapError Failure.unplaced = (engine.parse two resolver).mapError Failure.unplaced := by
  unfold Engine.parse
  rw [nodes_tokens,nodes_tokens,Nat.sub_self,readTokens,readTokens]
  simp only [mapError_bind]
  have finished := related_bind related fun alike => related_pure (ε := Failure) alike.finishes
  exact related_equal (related_bind finished fun alike => related_pure (Node.compact_alike alike .plain))

end Phrasebook.Template
