import Phrasebook.Proofs.Tags.Steadiness
import Phrasebook.Proofs.Template.StyleNames
namespace Phrasebook.Template
open RichText Traced

-- A span is closed by every name that opens the same style. Only the two spellings of
-- gray do not close one another's spans.

theorem names_append (nodes : List Node) (spans : List Span) :
    (append nodes spans).map Span.name = spans.map Span.name := by
  cases spans <;> rfl

theorem names_folded {spans : List Span} (inner : count < spans.length) :
    (foldSpans count spans).map Span.name = (spans.map Span.name).drop count := by
  induction count generalizing spans with
  | zero => rfl
  | succ count ih =>
    rcases spans with _ | ⟨top,_ | ⟨outer,rest⟩⟩
    · cases inner
    · simp at inner
    · have shorter : count < (append [top.node] (outer :: rest)).length := by simpa [append] using inner
      rw [foldSpans,foldTop,ih shorter,names_append]
      rfl

-- The names of the spans that are open after a token, of those that are one's own. There
-- is no answer if the token reaches for spans around, or for all with a `reset` that is
-- not answered by the resolver.
def opensAfter (resolver : Resolver) (opened : List String) : Token → Option (List String)
  | .text _ => some opened
  | .closing site => (opened.findIdx? (· == canonicalName site.name)).map fun index => opened.drop (index + 1)
  | .opening site arguments => match (resolver.request 0 site arguments).outcome with
    | .ok (some (.span _)) => some (canonicalName site.name :: opened)
    | .ok none =>
      if site.name = "reset" then none
      else if (builtinStyle site.name arguments).isSome then some (canonicalName site.name :: opened)
      else some opened
    | _ => some opened

-- Every span that the pieces open is closed by one of them, and they close no others.
def ClosesItself (resolver : Resolver) (position : Nat) (pieces : List Piece) : Prop :=
  (tokensAt position pieces).foldlM (opensAfter resolver) [] = some []

def OnTop (around : List (Option String)) (opened : List String) (spans : List Span) : Prop :=
  spans.map Span.name = opened.map some ++ around

theorem found_named (name : String) (spans : List Span) :
    (spans.findIdx? fun span => span.name == some name) = (spans.map Span.name).findIdx? (· == some name) := by
  rw [List.findIdx?_map]
  rfl

theorem own_found (shown : OnTop around opened spans)
    (found : opened.findIdx? (· == name) = some index) :
    (spans.findIdx? fun span => span.name == some name) = some index := by
  have own : (opened.map some).findIdx? (· == some name) = some index := by
    rw [List.findIdx?_map]
    exact found
  rw [found_named,shown,List.findIdx?_append,own]
  rfl

theorem closed_names (shown : OnTop around opened spans) (framed : around ≠ [])
    (found : opened.findIdx? (· == name) = some index) :
    ∃ closed, closeSpan name spans = some closed ∧ OnTop around (opened.drop (index + 1)) closed := by
  have inner : index + 1 ≤ opened.length := (List.findIdx?_eq_some_iff_findIdx_eq.mp found).1
  have outer := List.length_pos_iff.mpr framed
  have length := congrArg List.length shown
  simp only [List.length_map,List.length_append] at length
  refine ⟨foldSpans (index + 1) spans,?_,?_⟩
  · rw [closeSpan,own_found shown found,Option.map_some]
  · have short : index + 1 < spans.length := by omega
    have within : index + 1 ≤ (opened.map some).length := by rwa [List.length_map]
    rw [OnTop,names_folded short,shown,List.drop_append_of_le_length within,List.map_drop]

section
variable {resolver : Resolver} {insertion : Site → String → Traced Failure (List Node)}

theorem placed_names {tag : Tag} (ended : (placeTag insertion site spans tag).outcome = .ok after) :
    after.map Span.name = match tag with
      | .span _ => some (canonicalName site.name) :: spans.map Span.name
      | _ => spans.map Span.name := by
  cases tag with
  | insert node =>
    cases ended
    exact names_append _ _
  | span style =>
    cases ended
    rfl
  | markup markup =>
    obtain ⟨nodes,_,placed⟩ := bind_ends ended
    cases placed
    exact names_append _ _

theorem unclaimed_names (opens : (if site.name = "reset" then none
      else if (builtinStyle site.name arguments).isSome then some (canonicalName site.name :: opened)
      else some opened) = some opened')
    (shown : OnTop around opened spans) : OnTop around opened' (placeUnclaimed site arguments spans) := by
  unfold placeUnclaimed
  by_cases reset : site.name = "reset"
  · rw [if_pos reset] at opens
    cases opens
  · rw [if_neg reset] at opens ⊢
    cases styled : builtinStyle site.name arguments with
    | some style =>
      rw [styled] at opens
      cases opens
      exact congrArg (some (canonicalName site.name) :: ·) shown
    | none =>
      rw [styled] at opens
      cases opens
      exact (names_append _ _).trans shown

theorem step_names (shown : OnTop around opened spans) (framed : around ≠ [])
    (inside : opensAfter resolver opened token = some opened')
    (ended : (step resolver 0 insertion spans token).outcome = .ok after) :
    OnTop around opened' after := by
  cases token with
  | text content =>
    cases inside
    cases ended
    exact (names_append _ _).trans shown
  | closing site =>
    obtain ⟨index,found,rfl⟩ := Option.map_eq_some_iff.mp inside
    obtain ⟨closed,closes,names⟩ := closed_names shown framed found
    simp only [step,closes,Option.getD_some] at ended
    cases ended
    exact names
  | opening site arguments =>
    obtain ⟨answer,answered,placed⟩ := bind_ends ended
    simp only [opensAfter,answered] at inside
    cases answer with
    | none =>
      cases placed
      exact unclaimed_names inside shown
    | some tag =>
      rw [OnTop,placed_names placed]
      cases tag with
      | insert node =>
        cases inside
        exact shown
      | markup markup =>
        cases inside
        exact shown
      | span style =>
        cases inside
        exact congrArg (some (canonicalName site.name) :: ·) shown

theorem run_names {tokens : List Token} (shown : OnTop around opened spans) (framed : around ≠ [])
    (inside : tokens.foldlM (opensAfter resolver) opened = some opened')
    (ended : (tokens.foldlM (step resolver 0 insertion) spans).outcome = .ok after) :
    OnTop around opened' after := by
  induction tokens generalizing spans opened with
  | nil =>
    cases inside
    cases ended
    exact shown
  | cons token rest ih =>
    rw [List.foldlM_cons] at inside ended
    obtain ⟨middle,stepped,insideRest⟩ := Option.bind_eq_some_iff.mp inside
    obtain ⟨reached,placed,endedRest⟩ := bind_ends ended
    exact ih (step_names shown framed stepped placed) insideRest endedRest

end

theorem pieces_pending {pieces : List Piece} (tagged : Tagged pieces) (resolver : Resolver) (position : Nat)
    (run : List Char) :
    ∃ earlier pending reached, (∀ rest, tokensFrom position run (write pieces ++ rest) =
        earlier ++ tokensFrom reached pending rest) ∧
      ∀ opened, earlier.foldlM (opensAfter resolver) opened =
        (tokensAt position pieces).foldlM (opensAfter resolver) opened := by
  induction pieces generalizing position run with
  | nil => exact ⟨[],run,position,fun _ => rfl,fun _ => rfl⟩
  | cons piece rest ih =>
    have later : Tagged rest := fun other member => tagged other (List.mem_cons_of_mem _ member)
    have written : write (piece :: rest) = piece.written ++ write rest := rfl
    cases texted : piece.isText with
    | true =>
      cases piece with
      | opening name arguments => cases texted
      | closing name => cases texted
      | text content =>
        obtain ⟨earlier,pending,reached,reads,opens⟩ := ih later
          (position + Text.byteLength (escape '<' content.toList)) (content.toList.reverse ++ run)
        refine ⟨earlier,pending,reached,?_,?_⟩
        · intro behind
          rw [written,List.append_assoc,Piece.written,tokens_text,reads]
        · intro opened
          rw [opens,tokensAt,List.foldlM_cons,byteLength_size]
          rfl
    | false =>
      have valid : piece.isValid = true := by simpa [texted] using tagged piece (List.mem_cons_self ..)
      obtain ⟨earlier,pending,reached,reads,opens⟩ := ih later
        (position + (String.ofList piece.written).utf8ByteSize) []
      refine ⟨textToken run ++ piece.token position :: earlier,pending,reached,?_,?_⟩
      · intro behind
        rw [written,List.append_assoc,tokens_piece valid texted,reads,List.append_assoc,List.cons_append]
      · intro opened
        have passed : (textToken run).foldlM (opensAfter resolver) opened = some opened := by
          cases run <;> rfl
        rw [List.foldlM_append,passed,Option.bind_eq_bind,Option.bind_some,tokensAt,List.foldlM_cons,List.foldlM_cons]
        exact congrArg _ (funext opens)

def framed (name : String) (pieces : List Piece) (last : Piece) (rest : String) : String :=
  String.ofList (write (.opening name [] :: pieces) ++ (last.written ++ rest.toList))

section
variable {resolver : Resolver} {insertion : Site → String → Traced Failure (List Node)}
  (anywhere : ∀ site markup, (insertion site markup).mapError Failure.unplaced =
    (insertion (site.movedTo 0) markup).mapError Failure.unplaced)

def placeRun : List Char → List Span → List Span
  | [],spans => spans
  | run,spans => append [.text (String.ofList run.reverse)] spans

theorem pending_read (run : List Char) (spans : List Span) :
    readUnplaced resolver insertion (textToken run) spans = pure (placeRun run spans) := by
  cases run <;> rfl

theorem pending_names (run : List Char) (shown : OnTop around opened spans) :
    OnTop around opened (placeRun run spans) := by
  cases run with
  | nil => exact shown
  | cons c run => exact (names_append _ _).trans shown

theorem styled_opens (styled : builtinStyle name [] = some style) (unclaimed : resolver.has name = false)
    (position : Nat) (rest : List Token) (spans : List Span) :
    readUnplaced resolver insertion ((Piece.opening name []).token position :: rest) spans =
      readUnplaced resolver insertion rest (⟨some (canonicalName name),style,[]⟩ :: spans) := by
  have ordinary : name ≠ "reset" := by
    rintro rfl
    have free : builtinStyle "reset" [] = none := by decide +kernel
    rw [free] at styled
    cases styled
  have stepped : step resolver 0 insertion spans ((Piece.opening name []).token position) =
      pure (⟨some (canonicalName name),style,[]⟩ :: spans) := by
    simp only [Piece.token,step,List.map_nil]
    rw [request_free unclaimed,Traced.ok_bind,placeUnclaimed,if_neg ordinary]
    simp only [styled]
  rw [read_cons,stepped]
  rfl

theorem outer_closed (position : Nat) (only : OnTop [some name,none] [] spans) (closing : String) :
    step resolver 0 insertion spans ((Piece.closing closing).token position) =
      pure (if canonicalName closing = name then foldSpans 1 spans
        else append [.text (String.ofList (Piece.closing closing).written)] spans) := by
  rw [Piece.token,step,closeSpan,found_named,only]
  by_cases same : canonicalName closing = name
  · simp [same,List.findIdx?_cons]
  · simp [same,Ne.symm same,List.findIdx?_cons]

theorem closing_read (valid : isTagName closing.toList = true) (only : OnTop [some name,none] [] spans)
    (position : Nat) (run rest : List Char) :
    readUnplaced resolver insertion (tokensFrom position run ((Piece.closing closing).written ++ rest)) spans =
      readUnplaced resolver insertion
        (tokensFrom (position + (String.ofList (Piece.closing closing).written).utf8ByteSize) [] rest)
        (if canonicalName closing = name then foldSpans 1 (placeRun run spans)
          else append [.text (String.ofList (Piece.closing closing).written)] (placeRun run spans)) := by
  have piece : (Piece.closing closing).isValid = true := valid
  rw [tokens_piece piece rfl,read_append,pending_read,Traced.pure_bind,read_cons,
    outer_closed _ (pending_names run only)]
  rfl

include anywhere

theorem tails_alike (valid : isTagName one.toList = true) (valid' : isTagName two.toList = true)
    (same : canonicalName one = canonicalName two) (only : OnTop [some (canonicalName two),none] [] spans)
    (steady : resolver.Steady (symbols rest)) (position : Nat) (run : List Char) :
    Related SpansAlike
      (readUnplaced resolver insertion (tokensFrom position run ((Piece.closing one).written ++ rest)) spans)
      (readUnplaced resolver insertion (tokensFrom position run ((Piece.closing two).written ++ rest)) spans) := by
  rw [closing_read valid only,closing_read valid' only,if_pos same,if_pos rfl]
  refine symbols_settle anywhere ?_ ?_ _
  · rw [symbols_from,symbols_from]
  · rwa [symbols_from]

theorem tails_text (valid : isTagName one.toList = true) (apart : canonicalName one ≠ name)
    (only : OnTop [some name,none] [] spans) (steady : resolver.Steady (symbols rest)) (position : Nat)
    (run : List Char) :
    let source := String.ofList (Piece.closing one).written
    Related SpansAlike
      (readUnplaced resolver insertion (tokensFrom position run ((Piece.closing one).written ++ rest)) spans)
      (readUnplaced resolver insertion (tokensFrom position run ((Piece.text source).written ++ rest)) spans) := by
  intro source
  rw [closing_read valid only,if_neg apart]
  generalize position + _ = behind
  have placed : readUnplaced resolver insertion (textToken run ++ .text source :: tokensFrom behind [] rest) spans =
      readUnplaced resolver insertion (tokensFrom behind [] rest) (append [.text source] (placeRun run spans)) := by
    rw [read_append,pending_read,Traced.pure_bind,read_cons]
    rfl
  have shown : (textToken run ++ .text source :: tokensFrom behind [] rest).flatMap Token.symbols =
      (source.toList.reverse ++ run).reverse.map .char ++ symbols rest := by
    rw [List.flatMap_append,List.flatMap_cons,textToken_symbols,symbols_from]
    simp [Token.symbols]
  rw [← placed]
  refine symbols_settle anywhere ?_ ?_ _
  · rw [shown,Piece.written,tokens_text,symbols_from]
  · rw [shown]
    exact steady_text steady _

end

-- The tags that follow, and where they fail, are the same. A closing tag that names the
-- other gray is text instead.
theorem aliases_close {one two : String} (valid : isTagName one.toList = true) (valid' : isTagName two.toList = true)
    (styled : builtinStyle one [] = some style) (styled' : builtinStyle two [] = some style)
    {resolver : Resolver} (unclaimed : resolver.has one = false) {pieces : List Piece} (tagged : Tagged pieces)
    (closed : ClosesItself resolver (String.ofList (Piece.opening one []).written).utf8ByteSize pieces)
    {rest : String} (steady : resolver.Steady (symbols rest.toList)) (engine : Engine) :
    let last := if GrayTwins one two then .text (String.ofList (Piece.closing two).written) else .closing one
    (engine.parse (framed one pieces (.closing two) rest) resolver).mapError Failure.unplaced =
      (engine.parse (framed one pieces last rest) resolver).mapError Failure.unplaced := by
  intro last
  obtain ⟨earlier,pending,reached,reads,opens⟩ := pieces_pending tagged resolver
    (String.ofList (Piece.opening one []).written).utf8ByteSize []
  have tokens (last : Piece) : tokenize (framed one pieces last rest) =
      (Piece.opening one []).token 0 :: (earlier ++ tokensFrom reached pending (last.written ++ rest.toList)) := by
    have written : write (.opening one [] :: pieces) = (Piece.opening one []).written ++ write pieces := rfl
    have opening : (Piece.opening one []).isValid = true := valid
    rw [tokenize,framed,String.toList_ofList,written,List.append_assoc,tokens_piece opening rfl,Nat.zero_add,reads]
    rfl
  apply parse_alike
  rw [tokens,tokens,styled_opens styled unclaimed,styled_opens styled unclaimed,read_append,read_append]
  refine related_next ?_
  intro spans ended
  have start : OnTop [some (canonicalName one),none] [] [⟨some (canonicalName one),style,[]⟩,Span.root] := rfl
  have only := run_names start (List.cons_ne_nil _ _) ((opens []).trans closed) (Outcome.mapError_ok_iff.mp ended)
  by_cases twins : GrayTwins one two
  · rw [show last = _ from if_pos twins]
    exact tails_text (inside_anywhere resolver _ _) valid' (twins_differ twins).symm only steady _ _
  · have same := (canonical_iff valid valid' styled styled').mpr twins
    rw [show last = _ from if_neg twins]
    exact tails_alike (inside_anywhere resolver _ _) valid' valid same.symm only steady _ _

theorem aliases_close_bold :
    let pieces := [.opening "red" [],.text "<x",.closing "red",.opening "n" []]
    let registry : Tags.Registry := ⟨[.named "n" (.deferred fun _ => .text "N"),
      .named "fail" (.function fun _ occurrence => .error (occurrence.failure "no"))]⟩
    builtinStyle "b" [] = some (.decorated .bold) ∧ builtinStyle "bold" [] = some (.decorated .bold) ∧
      registry.resolver.has "b" = false ∧ Tagged pieces ∧ ClosesItself registry.resolver 3 pieces ∧
      (Engine.standard.parse "<b><red>\\<x</red><n></bold>y<fail>" registry.resolver).mapError Failure.unplaced =
        (Engine.standard.parse "<b><red>\\<x</red><n></b>y<fail>" registry.resolver).mapError Failure.unplaced := by
  intro pieces registry
  have styled : builtinStyle "b" [] = some (.decorated .bold) := by decide
  have styled' : builtinStyle "bold" [] = some (.decorated .bold) := by decide
  have unclaimed : registry.resolver.has "b" = false := by decide
  have tagged : Tagged pieces := by
    unfold Tagged
    decide
  have closed : ClosesItself registry.resolver 3 pieces := by
    unfold ClosesItself
    decide +kernel
  have each : ∀ entry ∈ registry.entries, entry.Steady := by
    intro entry member
    rcases List.mem_cons.mp member with rfl | later
    · exact .named "n" trivial
    · rw [List.mem_singleton.mp later]
      exact .named "fail" fun _ _ _ => rfl
  refine ⟨styled,styled',unclaimed,tagged,closed,?_⟩
  have same := aliases_close (by decide) (by decide) styled styled' unclaimed tagged closed
    (Tags.registry_steady each (symbols "y<fail>".toList)) Engine.standard
  have written : framed "b" pieces (.closing "bold") "y<fail>" = "<b><red>\\<x</red><n></bold>y<fail>" := by
    decide +kernel
  have written' : framed "b" pieces (.closing "b") "y<fail>" = "<b><red>\\<x</red><n></b>y<fail>" := by
    decide +kernel
  have apart : ¬GrayTwins "b" "bold" := by decide
  simp only [if_neg apart] at same
  rwa [written,written'] at same

-- A function that inserts its own place is not steady: the longer closing tag moves it on.
example :
    let registry : Tags.Registry := ⟨[.named "here" (.function fun _ occurrence =>
      .ok (.text (toString occurrence.site.position)))]⟩
    (Engine.standard.parse "<b>x</bold><here>" registry.resolver).result ≠
      (Engine.standard.parse "<b>x</b><here>" registry.resolver).result := by decide +kernel

-- The two grays open the same span, and yet one does not close the other.
theorem grays_stay_open :
    let pieces := [.text "x"]
    let resolver := Tags.Registry.empty.resolver
    isTagName "gray".toList = true ∧ isTagName "grey".toList = true ∧ builtinStyle "gray" [] = some (.colored .gray) ∧
      builtinStyle "grey" [] = some (.colored .gray) ∧ resolver.has "gray" = false ∧ resolver.has "grey" = false ∧
      Tagged pieces ∧ ClosesItself resolver 6 pieces ∧
      framed "gray" pieces (.closing "grey") "y" = "<gray>x</grey>y" ∧
      framed "gray" pieces (.closing "gray") "y" = "<gray>x</gray>y" ∧
      Engine.standard.parse "<gray>x</grey>y" resolver = ⟨[],.ok ⟨"x</grey>y",.colored .gray,[]⟩⟩ ∧
      Engine.standard.parse "<gray>x</gray>y" resolver = ⟨[],.ok ⟨"",.plain,[⟨"x",.colored .gray,[]⟩,.text "y"]⟩⟩ ∧
      (Engine.standard.parse "<gray>x</grey>y" resolver).mapError Failure.unplaced ≠
        (Engine.standard.parse "<gray>x</gray>y" resolver).mapError Failure.unplaced := by
  intro pieces resolver
  have tagged : Tagged pieces := by
    unfold Tagged
    decide
  have closed : ClosesItself resolver 6 pieces := by
    unfold ClosesItself
    decide +kernel
  have stays : Engine.standard.parse "<gray>x</grey>y" resolver = ⟨[],.ok ⟨"x</grey>y",.colored .gray,[]⟩⟩ := by
    refine of_result ?_ ?_
    · decide +kernel
    · decide +kernel
  have closes : Engine.standard.parse "<gray>x</gray>y" resolver =
      ⟨[],.ok ⟨"",.plain,[⟨"x",.colored .gray,[]⟩,.text "y"]⟩⟩ := by
    refine of_result ?_ ?_
    · decide +kernel
    · decide +kernel
  refine ⟨by decide,by decide,by decide +kernel,by decide +kernel,rfl,rfl,tagged,closed,by decide +kernel,
    by decide +kernel,stays,closes,?_⟩
  rw [stays,closes]
  simp [mapError,Except.mapError]

end Phrasebook.Template
