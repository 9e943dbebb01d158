import Phrasebook.Proofs.Tags.Expansion
import Phrasebook.Proofs.Template.SpanlessReading
namespace Phrasebook.Renderer
open Outcome RichText Tags Template

-- The three ways to render a message, compared.

section
variable {renderer : Renderer} {key message : String} {locale : Option Locale} {configure : Builder → Builder}
variable {registry : Registry}

theorem render_missing (missing : renderer.template key (renderer.targetLocale locale) = none) :
    renderer.render key locale configure = .ok (.text key) ∧
      renderer.renderOrNone key locale configure = .ok none ∧
      renderer.renderLines key locale configure = .ok [.text key] := by
  have nothing : renderer.renderOrNone key locale configure = .ok none := by
    simp only [renderOrNone,missing]
  refine ⟨?_,nothing,?_⟩
  · rw [render,nothing]
    rfl
  · simp only [renderLines,missing]

theorem render_refused (found : renderer.template key (renderer.targetLocale locale) = some message)
    (refused : renderer.registry (renderer.targetLocale locale) configure = .error fault) :
    renderer.render key locale configure = .fail (.tags fault) ∧
      renderer.renderOrNone key locale configure = .fail (.tags fault) ∧
      renderer.renderLines key locale configure = .fail (.tags fault) := by
  have fails : renderer.renderOrNone key locale configure = .fail (.tags fault) := by
    simp only [renderOrNone,found,refused]
  refine ⟨?_,fails,?_⟩
  · rw [render,fails]
    rfl
  · simp only [renderLines,found,refused]

theorem lines_found (found : renderer.template key (renderer.targetLocale locale) = some message)
    (built : renderer.registry (renderer.targetLocale locale) configure = .ok registry) :
    renderer.renderLines key locale configure = (lines message).mapM (renderer.parse registry) := by
  simp only [renderLines,found,built]

theorem found_some (found : renderer.template key (renderer.targetLocale locale) = some message) :
    renderer.renderOrNone key locale configure = (do return some (← renderer.render key locale configure)) := by
  cases built : renderer.registry (renderer.targetLocale locale) configure with
  | error fault =>
    obtain ⟨whole,option,_⟩ := render_refused found built
    rw [whole,option]
    rfl
  | ok registry =>
    rw [render_found renderer found built]
    simp only [renderOrNone,found,built]

theorem parse_result (part : String) :
    (renderer.parse registry part).result = (renderer.engine.parse part registry.resolver).result :=
  Traced.result_mapError _ _

theorem plain_joined (nodes : List Node) : "\n".intercalate (nodes.map Node.plainText) =
    String.ofList (([⟨'\n',.plain⟩].intercalate (nodes.map (Node.glyphs .plain))).map Glyph.char) := by
  have each : String.toList ∘ Node.plainText = List.map Glyph.char ∘ Node.glyphs .plain :=
    funext (Node.plainText_glyphs .plain)
  apply String.toList_injective
  simp only [String.toList_intercalate,String.toList_ofList,Text.map_intercalate,List.map_map,each]
  rfl

theorem lines_agree (unbroken : ∀ token ∈ tokenize message, '\n' ∉ token.source)
    (spanless : Spanless registry.resolver (tokenize message))
    (placeless : ∀ entry ∈ registry.entries, entry.Placeless) :
    ((lines message).mapM (renderer.parse registry)).result.map
        (fun nodes => "\n".intercalate (nodes.map Node.plainText)) =
      (renderer.parse registry message).result.map Node.plainText := by
  have shown : ((lines message).mapM fun line => (renderer.engine.parse line registry.resolver).result.map
      (Node.glyphs .plain)).map [⟨'\n',.plain⟩].intercalate =
      (renderer.engine.parse message registry.resolver).result.map (Node.glyphs .plain) :=
    lines_shown (registry_placeless placeless) (unbroken_tokens unbroken) spanless
  have spelled : ∀ node : Node, String.ofList ((node.glyphs .plain).map Glyph.char) = node.plainText := by
    intro node
    rw [← Node.plainText_glyphs,String.ofList_toList]
  have texts := congrArg (Option.map fun glyphs : List Glyph => String.ofList (glyphs.map Glyph.char)) shown
  rw [mapM_view,Option.map_map,Option.map_map,Option.map_map] at texts
  rw [Traced.result_mapM,funext parse_result,parse_result,funext plain_joined]
  exact texts.trans (congrArg (Option.map · _) (funext spelled))

theorem lines_counted {nodes : List Node}
    (ended : ((lines message).mapM (renderer.parse registry)).result = some nodes) :
    nodes.length = message.toList.count '\n' + 1 := by
  rw [Traced.result_mapM] at ended
  rw [mapM_length ended,lines,List.length_map,Text.splitOn_length]

end

-- Without a message no tags are looked at, and refused tags fail in the same way. Lines
-- that are read on their own show what the message shows, unless a tag goes on over the
-- end of a line, opens a span, or looks at its place.
theorem entry_points_agree (renderer : Renderer) (key : String) (locale : Option Locale)
    (configure : Builder → Builder) :
    let target := renderer.targetLocale locale
    let whole := renderer.render key locale configure
    let option := renderer.renderOrNone key locale configure
    let apart := renderer.renderLines key locale configure
    (renderer.template key target = none →
      whole = .ok (.text key) ∧ option = .ok none ∧ apart = .ok [.text key]) ∧
    ∀ message, renderer.template key target = some message →
      (∀ fault, renderer.registry target configure = .error fault →
        whole = .fail (.tags fault) ∧ option = .fail (.tags fault) ∧ apart = .fail (.tags fault)) ∧
      option = (do return some (← whole)) ∧
      ∀ registry, renderer.registry target configure = .ok registry →
        (∀ token ∈ tokenize message, '\n' ∉ token.source) → Spanless registry.resolver (tokenize message) →
        (∀ entry ∈ registry.entries, entry.Placeless) →
        (∀ nodes, apart.result = some nodes → nodes.length = message.toList.count '\n' + 1) ∧
        apart.result.map (fun nodes => "\n".intercalate (nodes.map Node.plainText)) =
          whole.result.map Node.plainText := by
  intro target whole option apart
  refine ⟨render_missing,?_⟩
  intro message found
  refine ⟨fun fault refused => render_refused found refused,found_some found,?_⟩
  intro registry built unbroken spanless placeless
  have read : whole = renderer.parse registry message := render_found renderer found built
  have split : apart = (lines message).mapM (renderer.parse registry) := lines_found found built
  rw [read,split]
  exact ⟨fun nodes => lines_counted,lines_agree unbroken spanless placeless⟩

def twice (arguments : Arguments) (occurrence : Occurrence) : Except Failure Tag :=
  match arguments.peek with
  | some word => .ok (.text (word ++ word))
  | none => .error (occurrence.failure "Nothing to say")

def letter : String := "Dear <name>:\\\n<twice:ho>\\<b>"

def letterbox : Renderer := ofStore ⟨.empty,0,.ofRows [(⟨"en"⟩,"letter",letter)]⟩

def addressed (builder : Builder) : Builder := (builder.unparsed "name" "Ann").function "twice" twice

def misnamed (builder : Builder) : Builder := builder.unparsed "No name" "Ann"

theorem twice_placeless : (Definition.function twice).Placeless := by
  intro arguments occurrence position
  have peek : (arguments.movedTo position).peek = arguments.peek := rfl
  unfold twice
  rw [peek]
  cases arguments.peek <;> rfl

theorem letter_tokens : tokenize letter = [.text "Dear ",.opening ⟨"name","<name>",5⟩ [],.text ":\\\n",
    .opening ⟨"twice","<twice:ho>",14⟩ ["ho"],.text "<b>"] := by
  decide +kernel

def addressee : Registry := ⟨[.named "twice" (.function twice),.named "name" (.fixed (.text "Ann")),
  .named phraseName (.phrase ⟨letterbox.store.catalog,⟨"en"⟩,some ⟨"en"⟩⟩)]⟩

theorem letter_openings {site : Site} {arguments : List String}
    (member : .opening site arguments ∈ tokenize letter) :
    (site = ⟨"name","<name>",5⟩ ∧ arguments = []) ∨ (site = ⟨"twice","<twice:ho>",14⟩ ∧ arguments = ["ho"]) := by
  rw [letter_tokens] at member
  simpa using member

theorem letter_spanless : Spanless addressee.resolver (tokenize letter) := by
  have inserts : ∀ site arguments, .opening site arguments ∈ tokenize letter →
      ∃ node, (addressee.resolver.request 0 site arguments).outcome = .ok (some (.insert node)) := by
    intro site arguments member
    obtain ⟨rfl,rfl⟩ | ⟨rfl,rfl⟩ := letter_openings member
    · exact ⟨.text "Ann",rfl⟩
    · exact ⟨.text "hoho",rfl⟩
  constructor
  · intro site arguments style member answered
    obtain ⟨node,inserted⟩ := inserts site arguments member
    cases inserted.symm.trans answered
  · intro site arguments member declined
    obtain ⟨node,inserted⟩ := inserts site arguments member
    cases inserted.symm.trans declined

theorem entry_points_agree_letter :
    letterbox.template "lettre" ⟨"en"⟩ = none ∧ letterbox.render "lettre" none misnamed = .ok (.text "lettre") ∧
    letterbox.renderLines "letter" none misnamed = .fail (.tags (.invalidTagName "No name")) ∧
    (letterbox.renderLines "letter" none addressed).result.map
        (fun nodes => "\n".intercalate (nodes.map Node.plainText)) =
      some "Dear Ann:\\\nhoho<b>" := by
  have missing : letterbox.template "lettre" ⟨"en"⟩ = none := by decide +kernel
  have found : letterbox.template "letter" ⟨"en"⟩ = some letter := by decide +kernel
  have refused : letterbox.registry ⟨"en"⟩ misnamed = .error (.invalidTagName "No name") := rfl
  have built : letterbox.registry ⟨"en"⟩ addressed = .ok addressee := rfl
  have unbroken : ∀ token ∈ tokenize letter, '\n' ∉ token.source := by decide +kernel
  have placeless : ∀ entry ∈ addressee.entries, entry.Placeless := by
    simp only [addressee,List.forall_mem_cons]
    exact ⟨.named _ twice_placeless,.named _ trivial,.named _ trivial,List.forall_mem_nil _⟩
  have whole : (letterbox.render "letter" none addressed).result.map Node.plainText = some "Dear Ann:\\\nhoho<b>" := by
    decide +kernel
  have fails := ((entry_points_agree letterbox "letter" none misnamed).2 letter found).1 _ refused
  have agrees := ((entry_points_agree letterbox "letter" none addressed).2 letter found).2.2
  have same := agrees addressee built unbroken letter_spanless placeless
  exact ⟨missing,((entry_points_agree letterbox "lettre" none misnamed).1 missing).1,fails.2.2,same.2.trans whole⟩

end Phrasebook.Renderer
