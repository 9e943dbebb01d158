import Phrasebook.Proofs.Tags.Resolution
import Phrasebook.Proofs.Template.Balanced
namespace Phrasebook.Tags
open RichText Template

-- A registry of tags that are given once and for all. What it inserts could as
-- well have been written out in the template.

mutual
def Entry.tag? (name : String) : Entry → Option Tag
  | .named own (.fixed tag) => if own = name then some tag else none
  | .named _ _ => none
  | .nested entries => tagAmong? name entries
  | .custom _ => none
def tagAmong? (name : String) : List Entry → Option Tag
  | [] => none
  | entry :: older => (entry.tag? name).or (tagAmong? name older)
end

def Registry.tag? (registry : Registry) (name : String) : Option Tag := tagAmong? name registry.entries

inductive Entry.IsStatic : Entry → Prop where
  | named (name : String) (tag : Tag) : IsStatic (.named name (.fixed tag))
  | nested {entries : List Entry} (each : ∀ entry ∈ entries, entry.IsStatic) : IsStatic (.nested entries)

def Registry.IsStatic (registry : Registry) : Prop := ∀ entry ∈ registry.entries, entry.IsStatic

structure Entry.Gives (name : String) (entry : Entry) : Prop where
  claims : entry.claims name = (entry.tag? name).isSome
  answers : ∀ arguments occurrence, entry.claims name = true →
    (entry.resolve name arguments occurrence).calls = [] ∧
    (entry.resolve name arguments occurrence).outcome = .ok (entry.tag? name)

theorem list_gives {name : String} {entries : List Entry} (each : ∀ entry ∈ entries, entry.Gives name) :
    claimed name entries = (tagAmong? name entries).isSome ∧ ∀ arguments occurrence,
      (resolveNewest name arguments occurrence entries).calls = [] ∧
      (resolveNewest name arguments occurrence entries).outcome = .ok (tagAmong? name entries) := by
  induction entries with
  | nil =>
    rw [claimed,tagAmong?]
    refine ⟨rfl,?_⟩
    intro arguments occurrence
    rw [resolve_nil]
    exact ⟨rfl,rfl⟩
  | cons entry older ih =>
    obtain ⟨claims,answers⟩ := ih fun other member => each other (by simp [member])
    have here := each entry (by simp)
    rw [claimed_cons,tagAmong?,here.claims,claims]
    refine ⟨by rw [Option.isSome_or],?_⟩
    intro arguments occurrence
    rw [resolve_cons]
    cases found : entry.tag? name with
    | none =>
      have free : ¬entry.claims name = true := by rw [here.claims,found]; simp
      rw [if_neg free,Option.none_or]
      exact answers arguments occurrence
    | some tag =>
      have claims : entry.claims name = true := by rw [here.claims,found]; rfl
      obtain ⟨calls,outcome⟩ := here.answers arguments occurrence claims
      rw [found] at outcome
      rw [if_pos claims,Option.some_or,followedBy,outcome]
      exact ⟨calls,outcome⟩

theorem static_gives (static : Entry.IsStatic entry) (name : String) : entry.Gives name := by
  induction static with
  | named own tag =>
    constructor
    · rw [Entry.claims,Entry.tag?]
      by_cases same : own = name <;> simp [same]
    · intro arguments occurrence claims
      rw [Entry.claims,beq_iff_eq] at claims
      rw [Entry.resolve,Entry.tag?,if_pos claims]
      exact ⟨rfl,rfl⟩
  | nested each ih =>
    obtain ⟨claims,answers⟩ := list_gives ih
    constructor
    · rw [Entry.claims,Entry.tag?]
      exact claims
    · intro arguments occurrence _
      rw [Entry.resolve,Entry.tag?]
      exact answers arguments occurrence

theorem static_answers {registry : Registry} (static : registry.IsStatic) :
    registry.resolver.Answers registry.tag? := by
  intro depth site arguments
  obtain ⟨claims,answers⟩ := list_gives fun entry member => static_gives (static entry member) site.name
  have has : registry.resolver.has site.name = (registry.tag? site.name).isSome := claims
  obtain ⟨calls,outcome⟩ := answers (Arguments.ofList site arguments) ⟨site,depth⟩
  rw [Resolver.request,has]
  cases found : registry.tag? site.name with
  | none => rfl
  | some tag =>
    have answer : (registry.resolver.resolve site.name (Arguments.ofList site arguments) ⟨site,depth⟩).outcome =
        .ok (some tag) := outcome.trans (congrArg Except.ok found)
    have quiet : (registry.resolver.resolve site.name (Arguments.ofList site arguments) ⟨site,depth⟩).calls = [] :=
      calls
    simp only [Option.isSome_some,if_true,answer,quiet]
    rfl

def around (before after : List Piece) (middle : List Char) : String :=
  String.ofList (write before ++ middle ++ write after)

def tagText (name : String) : List Char := '<' :: (name.toList ++ ['>'])

theorem around_write (before middle after : List Piece) :
    around before after (write middle) = String.ofList (write (before ++ middle ++ after)) := by
  rw [around,write_append,write_append]

theorem write_tag (name : String) : write [.opening name []] = tagText name := by
  simp [write,Piece.written,writeArguments,tagText]

theorem write_escaped (value : String) : write [.text value] = escape '<' value.toList := by
  simp [write,Piece.written]

theorem tagged_append (one : Tagged pieces) (two : Tagged others) : Tagged (pieces ++ others) :=
  fun piece member => (List.mem_append.mp member).elim (one piece) (two piece)

section Placing
variable {table : String → Option Tag} {nested : String → Option (List Node)}

theorem place_value (given : table name = some (.text value)) :
    placePiece table nested spans (.opening name []) = placePiece table nested spans (.text value) := by
  simp only [placePiece,Piece.token,place,given]
  rfl

theorem place_filled {spans : List Span} (filled : spans ≠ []) {token : Token}
    (placed : place table nested spans token = some after) : after ≠ [] := by
  cases token with
  | text content =>
    cases placed
    exact append_filled filled _
  | closing site =>
    cases placed
    exact closes_filled filled site
  | opening site arguments =>
    rw [place] at placed
    cases found : table site.name with
    | none =>
      rw [found] at placed
      cases placed
      exact places_filled filled site arguments
    | some tag =>
      rw [found] at placed
      cases tag with
      | insert node =>
        cases placed
        exact append_filled filled [node]
      | span style =>
        cases placed
        exact List.cons_ne_nil _ _
      | markup text =>
        obtain ⟨nodes,_,rfl⟩ := Option.map_eq_some_iff.mp placed
        exact append_filled filled nodes

theorem run_filled {spans : List Span} (filled : spans ≠ []) {pieces : List Piece}
    (ran : pieces.foldlM (placePiece table nested) spans = some after) : after ≠ [] := by
  induction pieces generalizing spans with
  | nil =>
    cases ran
    exact filled
  | cons piece rest ih =>
    rw [List.foldlM_cons] at ran
    obtain ⟨middle,placed,later⟩ := Option.bind_eq_some_iff.mp ran
    exact ih (place_filled filled placed) later

-- The markup of a tag is read on its own, one level deeper. In place of the tag
-- its pieces put alike nodes on the spans that are open there.
theorem place_markup {levels : Nat} {middle : List Piece} (tagged : Tagged middle)
    (balanced : Balanced table middle) (given : table name = some (.markup (String.ofList (write middle))))
    {spans : List Span} (filled : spans ≠ [])
    (placed : placePiece table (readFixed table levels) spans (.opening name []) = some after) :
    ∃ after', middle.foldlM (placePiece table (readFixed table levels)) spans = some after' ∧
      SpansAlike after after' := by
  simp only [placePiece,Piece.token,place,given] at placed
  obtain ⟨nodes,read,rfl⟩ := Option.map_eq_some_iff.mp placed
  cases levels with
  | zero => cases read
  | succ levels =>
    have related := @read_written table middle tagged levels
    rw [read] at related
    cases ran : middle.foldlM (placePiece table (readFixed table levels)) [Span.root] with
    | none =>
      rw [ran] at related
      cases related
    | some stack =>
      rw [ran] at related
      cases related with
      | some alike =>
        have deeper := fold_kept (fun spans piece after =>
          place_kept (readFixed_deeper levels) spans (piece.token 0) after) ran
        refine ⟨_,balanced_runs balanced deeper filled,?_⟩
        exact (SpansAlike.self spans).appends alike

theorem run_parts {before middle after : List Piece} {start last : List Span} :
    (before ++ middle ++ after).foldlM (placePiece table nested) start = some last ↔
      ∃ first next, before.foldlM (placePiece table nested) start = some first ∧
        middle.foldlM (placePiece table nested) first = some next ∧
        after.foldlM (placePiece table nested) next = some last := by
  rw [List.foldlM_append,List.foldlM_append]
  constructor
  · intro ran
    obtain ⟨next,ran,ranAfter⟩ := Option.bind_eq_some_iff.mp ran
    obtain ⟨first,ranBefore,ranMiddle⟩ := Option.bind_eq_some_iff.mp ran
    exact ⟨first,next,ranBefore,ranMiddle,ranAfter⟩
  · rintro ⟨first,next,ranBefore,ranMiddle,ranAfter⟩
    rw [ranBefore]
    exact Option.bind_eq_some_iff.mpr ⟨next,ranMiddle,ranAfter⟩

theorem run_markup {levels : Nat} {before middle after : List Piece} (tagged : Tagged middle)
    (balanced : Balanced table middle) (given : table name = some (.markup (String.ofList (write middle))))
    (ran : (before ++ [Piece.opening name []] ++ after).foldlM (placePiece table (readFixed table levels))
      [Span.root] = some last) :
    ∃ last', (before ++ middle ++ after).foldlM (placePiece table (readFixed table levels))
      [Span.root] = some last' ∧ SpansAlike last last' := by
  obtain ⟨first,next,ranBefore,placed,ranAfter⟩ := run_parts.mp ran
  rw [List.foldlM_cons] at placed
  obtain ⟨_,placed,ended⟩ := Option.bind_eq_some_iff.mp placed
  cases ended
  have filled := run_filled (List.cons_ne_nil Span.root []) ranBefore
  obtain ⟨next',ranMiddle,alike⟩ := place_markup tagged balanced given filled placed
  have related := @pieces_alike table (readFixed table levels) _ _ after alike
  rw [ranAfter] at related
  cases ranAfter' : after.foldlM (placePiece table (readFixed table levels)) next' with
  | none =>
    rw [ranAfter'] at related
    cases related
  | some last' =>
    rw [ranAfter'] at related
    cases related with
    | some alike => exact ⟨last',run_parts.mpr ⟨first,next',ranBefore,ranMiddle,ranAfter'⟩,alike⟩

end Placing

-- An unparsed value is as good as its escaped text, and markup that keeps to its
-- own spans as good as itself, but for the level of insertion that it saves.
theorem insertion_inlines (engine : Engine) {registry : Registry} (static : registry.IsStatic)
    {before after : List Piece} (left : Tagged before) (right : Tagged after)
    {name : String} (valid : isTagName name.toList = true) :
    (∀ value, registry.tag? name = some (.text value) →
      (engine.parse (around before after (tagText name)) registry.resolver).result =
        (engine.parse (around before after (escape '<' value.toList)) registry.resolver).result) ∧
    (∀ middle, Tagged middle → Balanced registry.tag? middle →
      registry.tag? name = some (.markup (String.ofList (write middle))) →
      ∀ node, (engine.parse (around before after (tagText name)) registry.resolver).result = some node →
        (engine.parse (around before after (write middle)) registry.resolver).result = some node) := by
  have answers := static_answers static
  have opening : Tagged [.opening name []] := by
    intro piece member
    rw [List.mem_singleton.mp member]
    exact .inr valid
  have inserted := parse_written answers (tagged_append (tagged_append left opening) right) engine
  rw [← write_tag,around_write,inserted]
  constructor
  · intro value given
    have texted : Tagged [.text value] := by
      intro piece member
      rw [List.mem_singleton.mp member]
      exact .inl rfl
    rw [← write_escaped,around_write,
      parse_written answers (tagged_append (tagged_append left texted) right) engine]
    simp only [List.foldlM_append,List.foldlM_cons,List.foldlM_nil,place_value given]
  · intro middle tagged balanced given node came
    rw [around_write,parse_written answers (tagged_append (tagged_append left tagged) right) engine]
    obtain ⟨last,ran,rfl⟩ := Option.map_eq_some_iff.mp came
    obtain ⟨last',ran',alike⟩ := run_markup tagged balanced given ran
    rw [ran']
    exact congrArg some (Node.compact_alike alike.finishes .plain).symm

-- The markup has no closing tag for `i`; the one for `red` ends it as well.
theorem insertion_inlines_nested :
    let before : List Piece := [.text "1",.opening "b" []]
    let after : List Piece := [.text "",.text "2",.closing "bold"]
    let middle : List Piece := [.text "x",.opening "red" [],.opening "i" [],.opening "v" [],.closing "red"]
    let registry : Registry :=
      ⟨[.named "v" (.fixed (.text "a<b")),.nested [.named "m" (.fixed (.markup (String.ofList (write middle))))]]⟩
    let written : Node := ⟨"1",.plain,[⟨"x",.decorated .bold,[⟨"",.colored .red,
      [⟨"a<b",.decorated .italic,[]⟩]⟩,.text "2"]⟩]⟩
    around before after (tagText "m") = "1<b><m>2</bold>" ∧
      around before after (write middle) = "1<b>x<red><i><v></red>2</bold>" ∧
      (Engine.standard.parse "1<b><v>2</bold>" registry.resolver).result =
        (Engine.standard.parse "1<b>a\\<b2</bold>" registry.resolver).result ∧
      (Engine.standard.parse "1<b>x<red><i><v></red>2</bold>" registry.resolver).result = some written := by
  intro before after middle registry written
  have static : registry.IsStatic := by
    intro entry member
    simp only [registry,List.mem_cons,List.not_mem_nil,or_false] at member
    rcases member with rfl | rfl
    · exact .named _ _
    · refine .nested fun entry member => ?_
      rw [List.mem_singleton.mp member]
      exact .named _ _
  have left : Tagged before := by unfold Tagged; decide
  have right : Tagged after := by unfold Tagged; decide
  have tagged : Tagged middle := by unfold Tagged; decide
  have balanced : Balanced registry.tag? middle := by rfl
  have parsed : (Engine.standard.parse (around before after (tagText "m")) registry.resolver).result =
      some written := by
    decide +kernel
  have valid : isTagName "v".toList = true := by decide
  have valid' : isTagName "m".toList = true := by decide
  have value := (insertion_inlines .standard static left right valid).1 "a<b" rfl
  have markup := (insertion_inlines .standard static left right valid').2 middle tagged balanced rfl written parsed
  have spelled : around before after (tagText "v") = "1<b><v>2</bold>" := by decide +kernel
  have escaped : around before after (escape '<' "a<b".toList) = "1<b>a\\<b2</bold>" := by decide +kernel
  have inlined : around before after (write middle) = "1<b>x<red><i><v></red>2</bold>" := by decide +kernel
  rw [spelled,escaped] at value
  rw [inlined] at markup
  exact ⟨by decide +kernel,inlined,value,markup⟩

end Phrasebook.Tags
