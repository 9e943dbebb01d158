import Phrasebook.Proofs.Template.FlatReading
import Phrasebook.Renderer
namespace Phrasebook.Tags
open RichText Template

-- A value that is inserted literally fills holes whose places and styles do not
-- depend on it. Runs are compared for all values at once.

inductive Segment where
  | literal (glyph : Glyph)
  | hole (style : Style)
  deriving DecidableEq, Repr

namespace Segment

def inside (outer : Style) : Segment → Segment
  | .literal glyph => .literal (glyph.inside outer)
  | .hole style => .hole (style.atop outer)

def fill (value : String) : Segment → List Glyph
  | .literal glyph => [glyph]
  | .hole style => value.toList.map (⟨·,style⟩)

theorem fill_inside (value : String) (outer : Style) (segment : Segment) :
    (segment.inside outer).fill value = (segment.fill value).map (Glyph.inside outer) := by
  cases segment <;> simp [inside,fill,Glyph.inside]

def isHole : Segment → Bool
  | .literal _ => false
  | .hole _ => true

end Segment

def fillAll (value : String) (segments : List Segment) : List Glyph :=
  segments.flatMap (Segment.fill value)

theorem fillAll_append (value : String) (one two : List Segment) :
    fillAll value (one ++ two) = fillAll value one ++ fillAll value two := List.flatMap_append

theorem fillAll_inside (value : String) (outer : Style) (segments : List Segment) :
    fillAll value (segments.map (Segment.inside outer)) =
      (fillAll value segments).map (Glyph.inside outer) := by
  simp [fillAll,List.flatMap_map,List.map_flatMap,Segment.fill_inside]

theorem fillAll_literals (value : String) (glyphs : List Glyph) :
    fillAll value (glyphs.map .literal) = glyphs := by
  simp [fillAll,List.flatMap_map,Segment.fill]

-- The value can be read back from a text with a hole: its length from the length
-- of the text, then its characters at the first hole.
theorem length_fillAll (value : String) (segments : List Segment) :
    (fillAll value segments).length =
      segments.countP (!·.isHole) + segments.countP (·.isHole) * value.toList.length := by
  induction segments with
  | nil => simp [fillAll]
  | cons segment rest ih =>
    rw [fillAll,List.flatMap_cons,List.length_append,← fillAll,ih]
    cases segment with
    | literal glyph => simp [Segment.fill,Segment.isHole]; omega
    | hole style => simp [Segment.fill,Segment.isHole,Nat.add_mul]; omega

theorem same_length {segments : List Segment} {value other : String}
    (holed : ∃ style, .hole style ∈ segments)
    (same : (fillAll value segments).length = (fillAll other segments).length) :
    value.toList.length = other.toList.length := by
  obtain ⟨style,member⟩ := holed
  have positive : 0 < segments.countP (·.isHole) := List.countP_pos_iff.mpr ⟨_,member,rfl⟩
  rw [length_fillAll,length_fillAll] at same
  exact Nat.eq_of_mul_eq_mul_left positive (Nat.add_left_cancel same)

theorem first_hole {segments : List Segment} {value other : String}
    (holed : ∃ style, .hole style ∈ segments) (length : value.toList.length = other.toList.length)
    (same : (fillAll value segments).map Glyph.char = (fillAll other segments).map Glyph.char) :
    value = other := by
  induction segments with
  | nil => simp at holed
  | cons segment rest ih =>
    simp only [fillAll,List.flatMap_cons,List.map_append] at same
    cases segment with
    | literal glyph =>
      obtain ⟨style,member⟩ := holed
      have later : Segment.hole style ∈ rest := by simpa using member
      exact ih ⟨style,later⟩ (List.append_cancel_left same)
    | hole style =>
      have front := List.append_inj_left same (by simpa [Segment.fill] using length)
      exact String.toList_inj.mp (by simpa [Segment.fill,Function.comp_def] using front)

theorem fillAll_injective {segments : List Segment} {value other : String}
    (holed : ∃ style, .hole style ∈ segments)
    (same : (fillAll value segments).map Glyph.char = (fillAll other segments).map Glyph.char) :
    value = other :=
  first_hole holed (same_length holed (by simpa using congrArg List.length same)) same

-- One plan that holds for every value: the calls, the failure or what is kept.
def Uniform (view : String → α → β) (runs : String → Traced ε β) : Prop :=
  ∃ plan : Traced ε α, ∀ value,
    Traced.Related (fun held shown => view value held = shown) plan (runs value)

namespace Uniform

variable {view : String → α → β} {runs : String → Traced ε β}

theorem of_pure {results : String → β} (held : α) (shown : ∀ value, view value held = results value) :
    Uniform view fun value => (pure (results value) : Traced ε β) :=
  ⟨pure held,fun value => Traced.related_pure (shown value)⟩

theorem of_fail (error : ε) : Uniform view fun _ => Traced.fail error :=
  ⟨.fail error,fun _ => .error [] error⟩

theorem of_same (traced : Traced ε α) : Uniform (fun _ => id) fun _ => traced :=
  ⟨traced,fun _ => Traced.related_self traced⟩

theorem andThen {later : String → γ → δ} {next : String → β → Traced ε δ} (uniform : Uniform view runs)
    (continued : ∀ held, Uniform later fun value => next value (view value held)) :
    Uniform later fun value => runs value >>= next value := by
  obtain ⟨plan,related⟩ := uniform
  obtain ⟨rest,relatedRest⟩ := Classical.skolem.mp continued
  refine ⟨plan >>= rest,fun value => Traced.related_bind (related value) ?_⟩
  rintro held _ rfl
  exact relatedRest held value

theorem foldlM {step : String → β → γ → Traced ε β}
    (stepped : ∀ held item, Uniform view fun value => step value (view value held) item)
    (items : List γ) (held : α) :
    Uniform view fun value => items.foldlM (step value) (view value held) := by
  induction items generalizing held with
  | nil => exact of_pure held fun value => rfl
  | cons item rest ih =>
    simp only [List.foldlM_cons]
    exact (stepped held item).andThen ih

end Uniform

structure Plan where
  spans : List OpenSpan
  segments : List Segment

namespace Plan

def reading (value : String) (plan : Plan) : Reading := ⟨plan.spans,fillAll value plan.segments⟩

theorem spans_reading (value : String) (plan : Plan) : (plan.reading value).spans = plan.spans := rfl

theorem emit_uniform (plan : Plan) (segments : List Segment) :
    Uniform reading fun value =>
      (pure ((plan.reading value).emit (fillAll value segments)) : Traced ε Reading) := by
  refine Uniform.of_pure ⟨plan.spans,plan.segments ++ segments.map (Segment.inside (covering plan.spans))⟩ ?_
  intro value
  simp [reading,Reading.emit,fillAll_append,fillAll_inside]

theorem literal_uniform (plan : Plan) (glyphs : List Glyph) :
    Uniform reading fun value => (pure ((plan.reading value).emit glyphs) : Traced ε Reading) := by
  simpa only [fillAll_literals] using emit_uniform (ε := ε) plan (glyphs.map .literal)

theorem enter_uniform (plan : Plan) (name : String) (style : Style) :
    Uniform reading fun value => (pure ((plan.reading value).enter name style) : Traced ε Reading) :=
  .of_pure (Plan.mk (⟨canonicalName name,style⟩ :: plan.spans) plan.segments) fun _ => rfl

theorem close_uniform (plan : Plan) (site : Site) :
    Uniform reading fun value => (pure ((plan.reading value).close site) : Traced ε Reading) := by
  unfold Reading.close
  simp only [spans_reading]
  cases outside (canonicalName site.name) plan.spans with
  | none => exact plan.literal_uniform (unstyled site.source)
  | some outer => exact .of_pure (Plan.mk outer plan.segments) fun _ => rfl

theorem fallback_uniform (plan : Plan) (site : Site) (arguments : List String) :
    Uniform reading fun value =>
      (pure ((plan.reading value).fallback site arguments) : Traced ε Reading) := by
  unfold Reading.fallback
  split
  · exact .of_pure (Plan.mk [] plan.segments) fun _ => rfl
  · cases builtinStyle site.name arguments with
    | some style => exact plan.enter_uniform site.name style
    | none => exact plan.literal_uniform (unstyled site.source)

end Plan

theorem request_newest (name value : String) (older : List Entry) (depth : Nat) (site : Site)
    (arguments : List String) :
    (Registry.mk (.named name (.fixed (.text value)) :: older)).resolver.request depth site arguments =
      if name = site.name then .ok (some (.insert (.text value)))
      else (Registry.mk older).resolver.request depth site arguments := by
  by_cases own : name = site.name
  · subst own
    simp [Resolver.request,Registry.resolver,Registry.has,claimed,Entry.claims,resolveNewest,
      Entry.resolve,Definition.resolve,Traced.ok,Except.map,Tag.text]
  · simp only [Resolver.request,Registry.resolver,Registry.has,claimed,Entry.claims,resolveNewest,
      beq_eq_false_iff_ne.mpr own,Bool.false_or,if_neg own]
    rfl

section Newest
variable (name : String) (older : List Entry)

abbrev withValue (value : String) : Resolver :=
  (Registry.mk (.named name (.fixed (.text value)) :: older)).resolver

theorem readToken_uniform {nested : String → Site → String → Traced Failure (List Glyph)}
    (inserted : ∀ site markup, Uniform fillAll fun value => nested value site markup)
    (depth : Nat) (plan : Plan) (token : Token) :
    Uniform Plan.reading fun value =>
      readToken (withValue name older value) depth (nested value) (plan.reading value) token := by
  cases token with
  | text content => exact plan.literal_uniform (unstyled content)
  | closing site => exact plan.close_uniform site
  | opening site arguments =>
    simp only [readToken_opening,request_newest]
    by_cases own : name = site.name
    · simp only [if_pos own]
      have placed := plan.emit_uniform (ε := Failure) [.hole .plain]
      simp only [fillAll,List.flatMap_singleton,Segment.fill,← Node.glyphs_text] at placed
      exact placed
    · simp only [if_neg own]
      refine (Uniform.of_same _).andThen fun answer => ?_
      rcases answer with _ | tag
      · exact plan.fallback_uniform site arguments
      · cases tag with
        | insert node => exact plan.literal_uniform (node.glyphs .plain)
        | span style => exact plan.enter_uniform site.name style
        | markup text => exact (inserted site text).andThen plan.emit_uniform

theorem readTemplate_uniform {nested : String → Site → String → Traced Failure (List Glyph)}
    (inserted : ∀ site markup, Uniform fillAll fun value => nested value site markup)
    (depth : Nat) (template : String) :
    Uniform fillAll fun value => readTemplate (withValue name older value) depth (nested value) template := by
  have tokens := Uniform.foldlM (readToken_uniform name older inserted depth) (tokenize template) ⟨[],[]⟩
  exact tokens.andThen fun plan => .of_pure plan.segments fun _ => rfl

theorem readFlat_uniform (limit depth : Nat) (template : String) :
    Uniform fillAll fun value => readFlat (withValue name older value) limit depth template := by
  unfold readFlat
  refine readTemplate_uniform name older (fun site markup => ?_) depth template
  by_cases full : limit < depth + 1
  · simp only [if_pos full]
    exact .of_fail _
  · simp only [if_neg full]
    exact readFlat_uniform limit (depth + 1) markup
termination_by limit - depth

end Newest

def Builder.parse (builder : Builder) (engine : Engine) (template : String) : Traced RenderFault Node :=
  match builder.build with
  | .error fault => .fail (.tags fault)
  | .ok registry => (engine.parse template registry.resolver).mapError .template

theorem build_unparsed (builder : Builder) (name : String) :
    (∃ fault, ∀ value, (builder.unparsed name value).build = .error fault) ∨
    ∃ older, ∀ value, (builder.unparsed name value).build =
      .ok ⟨.named name (.fixed (.text value)) :: older⟩ := by
  simp only [Builder.unparsed,Builder.tag,Builder.define,Builder.build,Builder.blame,add]
  cases isTagName name.toList with
  | false => exact .inl ⟨_,fun _ => rfl⟩
  | true => cases builder.fault with
    | some fault => exact .inl ⟨fault,fun _ => rfl⟩
    | none => exact .inr ⟨_,fun _ => rfl⟩

theorem parse_uniform (engine : Engine) (name template : String) (older : List Entry) :
    ∃ plan : Traced Failure (List Segment), ∀ value,
      Traced.Related (fun segments node => node.glyphs .plain = fillAll value segments) plan
        (engine.parse template (withValue name older value)) := by
  obtain ⟨plan,related⟩ := readFlat_uniform name older engine.maxDepth 0 template
  refine ⟨plan,fun value => ?_⟩
  have met := Traced.related_meet (related value) (parse_follows engine template (withValue name older value))
  refine Traced.related_weaken met ?_
  rintro segments node ⟨shown,filled,seen⟩
  rw [seen,filled]

theorem holes_differ {segments : List Segment} {node : String → Node}
    (filled : ∀ value, (node value).glyphs .plain = fillAll value segments)
    (holed : ∃ style, .hole style ∈ segments) {value other : String} (differ : value ≠ other) :
    (node value).plainText ≠ (node other).plainText := by
  intro same
  refine differ (fillAll_injective holed ?_)
  rw [← filled value,← filled other,← Node.plainText_glyphs,← Node.plainText_glyphs,same]

-- The text of a template with an unparsed value, for all values at once: the same
-- failure, or one text with holes, and then a hole tells the values apart.
theorem unparsed_fills_holes (engine : Engine) (builder : Builder) (name template : String) :
    (∃ calls fault, ∀ value,
      (builder.unparsed name value).parse engine template = ⟨calls,.error fault⟩) ∨
    ∃ (calls : List String) (segments : List Segment) (node : String → Node),
      (∀ value, (builder.unparsed name value).parse engine template = ⟨calls,.ok (node value)⟩ ∧
        (node value).glyphs .plain = fillAll value segments) ∧
      ((∃ style, .hole style ∈ segments) →
        ∀ value other, value ≠ other → (node value).plainText ≠ (node other).plainText) := by
  rcases build_unparsed builder name with ⟨fault,built⟩ | ⟨older,built⟩
  · exact .inl ⟨[],.tags fault,fun value => by simp only [Builder.parse,built,Traced.fail]⟩
  · have opened value : (builder.unparsed name value).parse engine template =
        (engine.parse template (withValue name older value)).mapError .template := by
      simp only [Builder.parse,built]
    obtain ⟨⟨calls,failure | segments⟩,related⟩ := parse_uniform engine name template older
    · refine .inl ⟨calls,.template failure,fun value => ?_⟩
      rw [opened,Traced.related_error (related value)]
      rfl
    · have parsed value : ∃ node,
          (builder.unparsed name value).parse engine template = ⟨calls,.ok node⟩ ∧
            node.glyphs .plain = fillAll value segments := by
        obtain ⟨node,run,filled⟩ := Traced.related_ok (related value)
        exact ⟨node,by rw [opened,run]; rfl,filled⟩
      obtain ⟨node,filled⟩ := Classical.skolem.mp parsed
      exact .inr ⟨calls,segments,node,filled,fun holed value other differ =>
        holes_differ (fun value => (filled value).2) holed differ⟩

end Phrasebook.Tags
