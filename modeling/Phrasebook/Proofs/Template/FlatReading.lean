import Phrasebook.Proofs.RichText.Glyphs
import Phrasebook.Proofs.Traced
import Phrasebook.Tags.Registry
import Phrasebook.Template.Engine
namespace Phrasebook.Template
open RichText

-- A second reading of templates that builds no tree. It goes over the tokens
-- once and keeps nothing but the spans that are open.

structure OpenSpan where
  name : String
  style : Style
  deriving DecidableEq, Repr

def covering (spans : List OpenSpan) : Style :=
  spans.foldr (fun span outer => span.style.atop outer) .plain

def outside (name : String) : List OpenSpan → Option (List OpenSpan)
  | [] => none
  | span :: outer => if span.name = name then some outer else outside name outer

structure Reading where
  spans : List OpenSpan
  emitted : List Glyph

namespace Reading

def emit (reading : Reading) (glyphs : List Glyph) : Reading :=
  { reading with emitted := reading.emitted ++ glyphs.map (Glyph.inside (covering reading.spans)) }

def say (reading : Reading) (text : String) : Reading := reading.emit (unstyled text)

def enter (reading : Reading) (name : String) (style : Style) : Reading :=
  { reading with spans := ⟨canonicalName name,style⟩ :: reading.spans }

def reset (reading : Reading) : Reading := { reading with spans := [] }

def close (reading : Reading) (site : Site) : Reading :=
  match outside (canonicalName site.name) reading.spans with
  | some outer => { reading with spans := outer }
  | none => reading.say site.source

def fallback (reading : Reading) (site : Site) (arguments : List String) : Reading :=
  if site.name = "reset" then reading.reset
  else match builtinStyle site.name arguments with
    | some style => reading.enter site.name style
    | none => reading.say site.source

-- `nested` reads inserted markup one level deeper.
def answered (nested : Site → String → Traced Failure (List Glyph)) (reading : Reading) (site : Site)
    (arguments : List String) : Option Tag → Traced Failure Reading
  | some (.insert node) => pure (reading.emit (node.glyphs .plain))
  | some (.markup text) => do return reading.emit (← nested site text)
  | some (.span style) => pure (reading.enter site.name style)
  | none => pure (reading.fallback site arguments)

end Reading

-- A resolver that claims the name is asked once. It may still decline.
def readToken (resolver : Resolver) (depth : Nat) (nested : Site → String → Traced Failure (List Glyph))
    (reading : Reading) : Token → Traced Failure Reading
  | .text content => pure (reading.say content)
  | .opening site arguments =>
    if resolver.has site.name then
      let reply := resolver.resolve site.name (Arguments.ofList site arguments) ⟨site,depth⟩
      Traced.mk reply.calls reply.outcome >>= reading.answered nested site arguments
    else pure (reading.fallback site arguments)
  | .closing site => pure (reading.close site)

def readTemplate (resolver : Resolver) (depth : Nat) (nested : Site → String → Traced Failure (List Glyph))
    (template : String) : Traced Failure (List Glyph) := do
  return (← (tokenize template).foldlM (readToken resolver depth nested) ⟨[],[]⟩).emitted

-- Inserted markup starts without spans of its own; spans it leaves open end with it.
def readFlat (resolver : Resolver) (limit depth : Nat) (template : String) :
    Traced Failure (List Glyph) :=
  readTemplate resolver depth (fun site markup =>
    if limit < depth + 1 then .fail (.depthExceeded limit site)
    else readFlat resolver limit (depth + 1) markup) template
termination_by limit - depth

theorem outside_found (name : String) (spans : List OpenSpan) :
    outside name spans = (spans.findIdx? (·.name == name)).map fun index => spans.drop (index + 1) := by
  induction spans with
  | nil => rfl
  | cons span outer ih =>
    rw [outside,List.findIdx?_cons]
    by_cases here : span.name = name
    · simp [here]
    · simp [here,ih,Function.comp_def]

-- The stack of the engine and a flat reading at the same point: the same open
-- spans, and what was emitted is what the stack shows once every span is closed.
inductive Follows : List Span → Reading → Prop where
  | root (children : List Node) :
      Follows [⟨none,.plain,children⟩] ⟨[],Node.glyphsAll .plain children⟩
  | deeper (name : String) (style : Style) (children : List Node)
      (outer : Follows spans ⟨opened,emitted⟩) :
      Follows (⟨some name,style,children⟩ :: spans)
        ⟨⟨name,style⟩ :: opened,emitted ++ Node.glyphsAll (covering (⟨name,style⟩ :: opened)) children⟩

namespace Follows

theorem start : Follows [Span.root] ⟨[],[]⟩ := root []

theorem appends (follows : Follows spans reading) (nodes : List Node) :
    Follows (append nodes spans) (reading.emit (Node.glyphsAll .plain nodes)) := by
  cases follows with
  | root children =>
    simp only [append,Reading.emit]
    rw [← Node.glyphsAll_inside,covering,List.foldr_nil,← Node.glyphsAll_append]
    exact root (children ++ nodes)
  | deeper name style children outer =>
    simp only [append,Reading.emit,List.append_assoc]
    rw [← Node.glyphsAll_inside,← Node.glyphsAll_append]
    exact deeper name style (children ++ nodes) outer

theorem appends_node (follows : Follows spans reading) (node : Node) :
    Follows (append [node] spans) (reading.emit (node.glyphs .plain)) := by
  simpa [Node.glyphsAll] using follows.appends [node]

theorem appends_text (follows : Follows spans reading) (content : String) :
    Follows (append [.text content] spans) (reading.say content) := by
  have appended := follows.appends_node (.text content)
  rwa [Node.glyphs_text] at appended

theorem enters (follows : Follows spans reading) (name : String) (style : Style) :
    Follows (⟨some (canonicalName name),style,[]⟩ :: spans) (reading.enter name style) := by
  simpa [Reading.enter,Node.glyphsAll] using deeper (canonicalName name) style [] follows

theorem length_spans (follows : Follows spans reading) : spans.length = reading.spans.length + 1 := by
  induction follows with
  | root children => rfl
  | deeper name style children outer ih => simpa using ih

theorem folds_top (follows : Follows spans ⟨span :: opened,emitted⟩) :
    Follows (foldTop spans) ⟨opened,emitted⟩ := by
  cases follows with
  | @deeper around _ before name style children outer =>
    have folded := outer.appends_node (.styled style children)
    rw [Reading.emit,← Node.glyphs_inside,Node.glyphs_styled] at folded
    cases around with
    | nil => cases outer
    | cons top rest => exact folded

theorem folds_spans (count : Nat) (follows : Follows spans ⟨opened,emitted⟩)
    (enough : count ≤ opened.length) : Follows (foldSpans count spans) ⟨opened.drop count,emitted⟩ := by
  induction count generalizing spans opened with
  | zero => exact follows
  | succ count ih =>
    cases opened with
    | nil => simp at enough
    | cons span opened => exact ih follows.folds_top (by simpa using enough)

theorem folds_all (follows : Follows spans reading) : Follows (foldAll spans) reading.reset := by
  have folded := folds_spans reading.spans.length follows (Nat.le_refl _)
  rw [List.drop_length] at folded
  rw [foldAll,follows.length_spans,Nat.add_sub_cancel]
  exact folded

theorem finishes (follows : Follows spans reading) :
    Node.glyphsAll .plain (finish spans) = reading.emitted := by
  have folded := follows.folds_all
  unfold finish
  rw [Reading.reset] at folded
  generalize reading.emitted = emitted at folded ⊢
  cases bottom : foldAll spans with
  | nil =>
    rw [bottom] at folded
    cases folded
  | cons outermost rest =>
    rw [bottom] at folded
    cases folded
    rfl

theorem finds_name (follows : Follows spans reading) (name : String) :
    (spans.findIdx? fun span => span.name == some name) = reading.spans.findIdx? (·.name == name) := by
  induction follows with
  | root children => rfl
  | deeper own style children outer ih =>
    rw [List.findIdx?_cons,List.findIdx?_cons,ih]
    rfl

theorem closes (follows : Follows spans reading) (site : Site) :
    Follows ((closeSpan (canonicalName site.name) spans).getD (append [.text site.source] spans))
      (reading.close site) := by
  rw [closeSpan,follows.finds_name,Reading.close,outside_found]
  cases found : reading.spans.findIdx? (·.name == canonicalName site.name) with
  | none => exact follows.appends_text site.source
  | some index =>
    have inside := List.findIdx?_eq_some_iff_findIdx_eq.mp found
    exact follows.folds_spans (index + 1) inside.1

theorem places (follows : Follows spans reading) (site : Site) (arguments : List String) :
    Follows (placeUnclaimed site arguments spans) (reading.fallback site arguments) := by
  unfold placeUnclaimed Reading.fallback
  split
  · exact follows.folds_all
  · cases builtinStyle site.name arguments with
    | some style => exact follows.enters site.name style
    | none => exact follows.appends_text site.source

end Follows

abbrev Shows (nodes : List Node) (glyphs : List Glyph) : Prop := Node.glyphsAll .plain nodes = glyphs

theorem readToken_opening (resolver : Resolver) (depth : Nat)
    (nested : Site → String → Traced Failure (List Glyph)) (reading : Reading) (site : Site)
    (arguments : List String) : readToken resolver depth nested reading (.opening site arguments) =
      resolver.request depth site arguments >>= reading.answered nested site arguments := by
  rw [readToken,Resolver.request]
  split
  · rfl
  · rw [Traced.ok_bind,Reading.answered]

section Step
variable {resolver : Resolver} {depth : Nat} {insertion : Site → String → Traced Failure (List Node)}
  {nested : Site → String → Traced Failure (List Glyph)}

theorem step_follows (inserted : ∀ site markup, Traced.Related Shows (insertion site markup) (nested site markup))
    (token : Token) (follows : Follows spans reading) :
    Traced.Related Follows (step resolver depth insertion spans token)
      (readToken resolver depth nested reading token) := by
  cases token with
  | text content => exact Traced.related_pure (follows.appends_text content)
  | closing site => exact Traced.related_pure (follows.closes site)
  | opening site arguments =>
    rw [readToken_opening]
    refine Traced.related_bind (Traced.related_self (resolver.request depth site arguments)) ?_
    rintro answer _ rfl
    rcases answer with _ | tag
    · exact Traced.related_pure (follows.places site arguments)
    · cases tag with
      | insert node => exact Traced.related_pure (follows.appends_node node)
      | span style => exact Traced.related_pure (follows.enters site.name style)
      | markup text =>
        refine Traced.related_bind (inserted site text) ?_
        rintro nodes _ rfl
        exact Traced.related_pure (follows.appends nodes)

theorem template_follows (inserted : ∀ site markup, Traced.Related Shows (insertion site markup) (nested site markup))
    (template : String) :
    Traced.Related Shows (readTokens resolver depth insertion template)
      (readTemplate resolver depth nested template) := by
  refine Traced.related_bind (Traced.related_foldlM (step_follows inserted) (tokenize template) Follows.start) ?_
  intro spans reading follows
  exact Traced.related_pure follows.finishes

end Step

-- The levels that remain for the engine are those between the depth and the limit.
theorem nodes_follow (resolver : Resolver) (limit remaining : Nat) (within : remaining ≤ limit)
    (template : String) :
    Traced.Related Shows (readNodes resolver limit remaining template)
      (readFlat resolver limit (limit - remaining) template) := by
  induction remaining generalizing template with
  | zero =>
    rw [readNodes,readFlat]
    refine template_follows ?_ template
    intro site markup
    rw [if_pos (by omega)]
    exact .error [] _
  | succ remaining ih =>
    rw [readNodes,readFlat]
    refine template_follows ?_ template
    intro site markup
    have deeper : limit - (remaining + 1) + 1 = limit - remaining := by omega
    rw [if_neg (by omega),deeper]
    exact ih (by omega) markup

theorem parse_follows (engine : Engine) (template : String) (resolver : Resolver) :
    Traced.Related (fun node glyphs => node.glyphs .plain = glyphs) (engine.parse template resolver)
      (readFlat resolver engine.maxDepth 0 template) := by
  have read := nodes_follow resolver engine.maxDepth engine.maxDepth (Nat.le_refl _) template
  rw [Nat.sub_self] at read
  rw [← Traced.bind_pure (readFlat resolver engine.maxDepth 0 template)]
  refine Traced.related_bind read ?_
  rintro nodes _ rfl
  exact Traced.related_pure (by rw [Node.compact_glyphs,Node.glyphs_styled,Style.plain_atop])

-- The engine and the flat reading succeed together, make the same calls, fail
-- alike, and show the same characters in the same styles.
theorem parse_reads_flat (engine : Engine) (template : String) (resolver : Resolver) :
    (engine.parse template resolver).calls = (readFlat resolver engine.maxDepth 0 template).calls ∧
    (engine.parse template resolver).outcome.map (Node.glyphs .plain) =
      (readFlat resolver engine.maxDepth 0 template).outcome :=
  Traced.related_exact (parse_follows engine template resolver)

example : (readFlat Tags.Registry.empty.resolver 16 0 "<red>a<b>b</red>c").outcome =
    .ok [⟨'a',.colored .red⟩,⟨'b',(Style.decorated .bold).atop (.colored .red)⟩,⟨'c',.plain⟩] := by
  cbv

end Phrasebook.Template
