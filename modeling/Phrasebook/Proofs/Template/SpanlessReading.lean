import Phrasebook.Proofs.Outcome
import Phrasebook.Proofs.Tags.Placeless
import Phrasebook.Proofs.Template.FlatReading
import Phrasebook.Proofs.Template.LineBreaks
namespace Phrasebook.Template
open Outcome RichText

-- A template that opens no span shows what each of its symbols shows, one behind the
-- other. So it shows what its lines show.

-- No opening tag gets a style, neither from the resolver nor as one of the names that
-- stand for styles when nobody claims them.
structure Spanless (resolver : Resolver) (tokens : List Token) : Prop where
  unstyled : ∀ site arguments style, .opening site arguments ∈ tokens →
    (resolver.request 0 site arguments).outcome ≠ .ok (some (.span style))
  builtin : ∀ site arguments, .opening site arguments ∈ tokens →
    (resolver.request 0 site arguments).outcome = .ok none → site.name ≠ "reset" →
      builtinStyle site.name arguments = none

section
variable {resolver : Resolver} {limit : Nat}

-- The answer at the start of a template stands for the answers everywhere.
def Symbol.answer (resolver : Resolver) (name source : String) (arguments : List String) : Option (Option Tag) :=
  (resolver.request 0 ⟨name,source,0⟩ arguments).outcome.toOption

def Symbol.Spanless (resolver : Resolver) : Symbol → Prop
  | .opening name source arguments => match answer resolver name source arguments with
    | some (some (.span _)) => False
    | some none => name = "reset" ∨ builtinStyle name arguments = none
    | _ => True
  | _ => True

theorem answer_anywhere (placeless : resolver.Placeless) (site : Site) (arguments : List String) :
    Symbol.answer resolver site.name site.source arguments = (resolver.request 0 site arguments).outcome.toOption :=
  request_placeless placeless 0 site arguments 0

theorem symbols_spanless (placeless : resolver.Placeless) {tokens : List Token}
    (spanless : Spanless resolver tokens) :
    ∀ symbol ∈ tokens.flatMap Token.symbols, symbol.Spanless resolver := by
  intro symbol member
  obtain ⟨token,present,inside⟩ := List.mem_flatMap.mp member
  cases token with
  | text content =>
    obtain ⟨c,_,rfl⟩ := List.mem_map.mp inside
    trivial
  | closing site =>
    obtain rfl := List.mem_singleton.mp inside
    trivial
  | opening site arguments =>
    obtain rfl := List.mem_singleton.mp inside
    have unstyled := spanless.unstyled site arguments
    have builtin := spanless.builtin site arguments present
    rw [Symbol.Spanless,answer_anywhere placeless]
    cases answered : (resolver.request 0 site arguments).outcome with
    | error failure => trivial
    | ok answer =>
      cases answer with
      | none => exact or_iff_not_imp_left.mpr (builtin answered)
      | some tag =>
        cases tag with
        | span style => exact unstyled style present answered
        | insert node => trivial
        | markup text => trivial

-- Nothing is shown if the tag fails. A span would show nothing by itself.
def Symbol.shows (resolver : Resolver) (limit : Nat) : Symbol → Option (List Glyph)
  | .char c => some [⟨c,.plain⟩]
  | .closing _ source => some (RichText.unstyled source)
  | .opening name source arguments => (answer resolver name source arguments).bind fun
    | some (.insert node) => some (node.glyphs .plain)
    | some (.markup text) => if limit < 1 then none else (readFlat resolver limit 1 text).result
    | some (.span _) => some []
    | none => some (if name = "reset" then [] else RichText.unstyled source)

def showAll (resolver : Resolver) (limit : Nat) (symbols : List Symbol) : Option (List Glyph) :=
  (symbols.mapM (Symbol.shows resolver limit)).map List.flatten

theorem showAll_cons (symbol : Symbol) (rest : List Symbol) : showAll resolver limit (symbol :: rest) =
    (symbol.shows resolver limit).bind fun shown => (showAll resolver limit rest).map (shown ++ ·) := by
  unfold showAll
  rw [List.mapM_cons]
  cases symbol.shows resolver limit with
  | none => rfl
  | some shown => cases rest.mapM (Symbol.shows resolver limit) <;> rfl

theorem showAll_append (one two : List Symbol) : showAll resolver limit (one ++ two) =
    (showAll resolver limit one).bind fun shown => (showAll resolver limit two).map (shown ++ ·) := by
  unfold showAll
  rw [List.mapM_append]
  cases one.mapM (Symbol.shows resolver limit) with
  | none => rfl
  | some shown => cases two.mapM (Symbol.shows resolver limit) <;> simp

theorem showAll_text (text : List Char) :
    showAll resolver limit (text.map .char) = some (text.map (⟨·,.plain⟩)) := by
  induction text with
  | nil => rfl
  | cons c text ih =>
    rw [List.map_cons,showAll_cons,ih]
    rfl

theorem showAll_single (symbol : Symbol) : showAll resolver limit [symbol] = symbol.shows resolver limit := by
  rw [showAll_cons]
  cases symbol.shows resolver limit with
  | none => rfl
  | some shown => exact congrArg some (List.append_nil shown)

theorem showAll_lines (parts : List (List Symbol)) :
    showAll resolver limit ([Symbol.char '\n'].intercalate parts) =
      (parts.mapM (showAll resolver limit)).map [⟨'\n',.plain⟩].intercalate := by
  induction parts with
  | nil => rfl
  | cons part later ih =>
    cases later with
    | nil =>
      rw [List.intercalate_singleton,List.mapM_cons]
      cases showAll resolver limit part with
      | none => rfl
      | some shown => simp
    | cons next later =>
      rw [List.intercalate_cons_cons,List.append_assoc,showAll_append,List.singleton_append,showAll_cons,ih]
      rw [List.mapM_cons (a := part)]
      cases showAll resolver limit part with
      | none => rfl
      | some shown =>
        cases taken : (next :: later).mapM (showAll resolver limit) with
        | none => rfl
        | some others =>
          have filled : others ≠ [] := by
            intro none
            have length := mapM_length taken
            simp [none] at length
          simp [Symbol.shows,List.intercalate_cons_of_ne_nil filled]

theorem emit_plain (emitted glyphs : List Glyph) :
    (Reading.mk [] emitted).emit glyphs = ⟨[],emitted ++ glyphs⟩ := by
  have same : Glyph.inside .plain = id := by
    funext glyph
    simp [Glyph.inside]
  simp [Reading.emit,covering,same]

def nestedReading (resolver : Resolver) (limit : Nat) (site : Site) (markup : String) : Traced Failure (List Glyph) :=
  if limit < 1 then .fail (.depthExceeded limit site) else readFlat resolver limit 1 markup

theorem token_shown (placeless : resolver.Placeless) {token : Token}
    (spanless : ∀ symbol ∈ token.symbols, symbol.Spanless resolver)
    (emitted : List Glyph) :
    (readToken resolver 0 (nestedReading resolver limit) ⟨[],emitted⟩ token).result =
      (showAll resolver limit token.symbols).map fun glyphs => ⟨[],emitted ++ glyphs⟩ := by
  cases token with
  | text content =>
    rw [Token.symbols,showAll_text]
    exact congrArg some (emit_plain emitted _)
  | closing site =>
    rw [Token.symbols,showAll_single]
    exact congrArg some (emit_plain emitted _)
  | opening site arguments =>
    have first := spanless _ (List.mem_singleton_self _)
    rw [Token.symbols,showAll_single,readToken_opening,Traced.result_bind,Symbol.shows]
    change ((resolver.request 0 site arguments).outcome.toOption.bind _) = _
    rw [Symbol.Spanless,answer_anywhere placeless] at first
    rw [answer_anywhere placeless]
    generalize (resolver.request 0 site arguments).outcome.toOption = reply at first ⊢
    cases reply with
    | none => rfl
    | some answer =>
      cases answer with
      | none =>
        change some ((Reading.mk [] emitted).fallback site arguments) =
          some (Reading.mk [] (emitted ++ if site.name = "reset" then [] else RichText.unstyled site.source))
        unfold Reading.fallback
        by_cases reset : site.name = "reset"
        · simp [reset,Reading.reset]
        · rw [if_neg reset,if_neg reset,first.resolve_left reset]
          exact congrArg some (emit_plain emitted _)
      | some tag =>
        cases tag with
        | span style => cases first
        | insert node => exact congrArg some (emit_plain emitted _)
        | markup text =>
          change (nestedReading resolver limit site text >>= fun glyphs => pure (Reading.emit ⟨[],emitted⟩ glyphs)).result =
            (if limit < 1 then none else (readFlat resolver limit 1 text).result).map _
          rw [Traced.result_bind,nestedReading]
          split
          · rfl
          · cases (readFlat resolver limit 1 text).result with
            | none => rfl
            | some glyphs => exact congrArg some (emit_plain emitted glyphs)

theorem tokens_shown (placeless : resolver.Placeless) {tokens : List Token}
    (spanless : ∀ symbol ∈ tokens.flatMap Token.symbols, symbol.Spanless resolver) (emitted : List Glyph) :
    (tokens.foldlM (readToken resolver 0 (nestedReading resolver limit)) ⟨[],emitted⟩).result =
      (showAll resolver limit (tokens.flatMap Token.symbols)).map fun glyphs => ⟨[],emitted ++ glyphs⟩ := by
  induction tokens generalizing emitted with
  | nil => exact congrArg (fun whole => some (Reading.mk [] whole)) (List.append_nil emitted).symm
  | cons token rest ih =>
    obtain ⟨first,later⟩ := List.forall_mem_append.mp spanless
    rw [List.foldlM_cons,Traced.result_bind,token_shown placeless first,List.flatMap_cons,showAll_append]
    cases showAll resolver limit token.symbols with
    | none => rfl
    | some shown =>
      simp only [Option.map_some,Option.bind_some,ih later,Option.map_map]
      congr 1
      funext glyphs
      exact congrArg (Reading.mk []) (List.append_assoc emitted shown glyphs)

theorem template_shown (placeless : resolver.Placeless) {template : String}
    (spanless : ∀ symbol ∈ symbols template.toList, symbol.Spanless resolver) :
    (readFlat resolver limit 0 template).result = showAll resolver limit (symbols template.toList) := by
  rw [readFlat]
  change ((tokenize template).foldlM (readToken resolver 0 (nestedReading resolver limit)) ⟨[],[]⟩ >>=
    fun reading => pure reading.emitted).result = _
  rw [Traced.result_bind,tokenize,tokens_shown placeless spanless,← symbols]
  cases showAll resolver limit (symbols template.toList) with
  | none => rfl
  | some glyphs => rfl

theorem parse_shown (placeless : resolver.Placeless) {template : String}
    (spanless : ∀ symbol ∈ symbols template.toList, symbol.Spanless resolver) :
    ((Engine.mk limit).parse template resolver).result.map (Node.glyphs .plain) =
      showAll resolver limit (symbols template.toList) := by
  have read := (Traced.related_exact (parse_follows (Engine.mk limit) template resolver)).2
  rw [← template_shown placeless spanless,Traced.result,Traced.result,← map_toOption,read]

theorem mem_joined {separator : Symbol} {parts : List (List Symbol)} (present : part ∈ parts)
    (inside : symbol ∈ part) :
    symbol ∈ [separator].intercalate parts := by
  induction parts with
  | nil => cases present
  | cons first later ih =>
    cases later with
    | nil =>
      cases List.mem_singleton.mp present
      rwa [List.intercalate_singleton]
    | cons next later =>
      rw [List.intercalate_cons_cons]
      cases List.mem_cons.mp present with
      | inl here => exact List.mem_append_left _ (List.mem_append_left _ (here ▸ inside))
      | inr behind => exact List.mem_append_right _ (ih behind)

theorem lines_shown (placeless : resolver.Placeless) {template : String}
    (unbroken : Unbroken (symbols template.toList))
    (spanless : Spanless resolver (tokenize template)) :
    ((lines template).mapM fun line => ((Engine.mk limit).parse line resolver).result.map (Node.glyphs .plain)).map
        [⟨'\n',.plain⟩].intercalate =
      ((Engine.mk limit).parse template resolver).result.map (Node.glyphs .plain) := by
  have each := symbols_spanless placeless spanless
  have whole := symbols_lines template.toList unbroken
  have line_shown : ∀ line ∈ Text.splitOn '\n' template.toList,
      ((Engine.mk limit).parse (String.ofList line) resolver).result.map (Node.glyphs .plain) =
        showAll resolver limit (symbols line) := by
    intro line present
    have chars : (String.ofList line).toList = line := String.toList_ofList
    rw [parse_shown placeless,chars]
    intro symbol inside
    rw [chars] at inside
    apply each symbol
    change symbol ∈ symbols template.toList
    rw [whole]
    exact mem_joined (List.mem_map_of_mem present) inside
  rw [parse_shown placeless each,whole,showAll_lines,lines,List.mapM_map,List.mapM_map]
  exact congrArg _ (mapM_congr line_shown)

end

end Phrasebook.Template
