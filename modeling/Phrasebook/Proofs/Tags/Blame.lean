import Phrasebook.Proofs.Tags.Resolution
import Phrasebook.Proofs.Template.ErrorSites
namespace Phrasebook.Tags
open Template

-- A template fails at a tag that stands in it or in markup that was read in place of
-- a tag. The failure names that tag, and for a wrong locale also its argument.

-- A function raises nothing but what it can make of its own tag.
def Definition.Fair : Definition → Prop
  | .function run => ∀ arguments occurrence fault,
    run arguments occurrence = .error fault → Raised arguments occurrence fault
  | _ => True

inductive Entry.Fair : Entry → Prop where
  | named (name : String) {definition : Definition} (fair : definition.Fair) : Fair (.named name definition)
  | nested {entries : List Entry} (each : ∀ entry ∈ entries, Fair entry) : Fair (.nested entries)
  | custom {resolver : Resolver} (fair : resolver.Fair) : Fair (.custom resolver)

theorem popOr_takes {arguments rest : Arguments} (popped : arguments.popOr message = .ok (value,rest)) :
    rest = { arguments with position := arguments.position + 1 } := by
  unfold Arguments.popOr Arguments.pop at popped
  cases peek : arguments.peek with
  | none =>
    rw [peek] at popped
    cases popped
  | some taken =>
    rw [peek] at popped
    cases popped
    rfl

theorem explicit_fails (fails : Phrase.explicitLocale arguments occurrence = .error fault) :
    ∃ value reason, arguments.peek = some value ∧ Locale.parseTag value = .error reason ∧
      fault = occurrence.argumentFailure ("Invalid language tag " ++ value ++ ".") arguments.position value := by
  unfold Phrase.explicitLocale at fails
  cases peek : arguments.peek with
  | none =>
    rw [peek] at fails
    cases fails
  | some value =>
    cases parsed : Locale.parseTag value with
    | ok locale => simp [peek,parsed] at fails
    | error reason =>
      simp only [peek,parsed] at fails
      cases fails
      exact ⟨value,reason,rfl,parsed,rfl⟩

inductive PhraseFails (arguments : Arguments) (occurrence : Occurrence) : Failure → Prop where
  | noKey (empty : arguments.peek = none) :
      PhraseFails arguments occurrence (.tag "No key provided." arguments.site none)
  | noLocale (second : arguments.values[arguments.position + 1]? = some value)
      (wrong : Locale.parseTag value = .error reason) : PhraseFails arguments occurrence
        (occurrence.argumentFailure ("Invalid language tag " ++ value ++ ".") (arguments.position + 1) value)

theorem phrase_fails {phrase : Phrase} (fails : phrase.resolve arguments occurrence = .error fault) :
    PhraseFails arguments occurrence fault := by
  unfold Phrase.resolve at fails
  cases popped : arguments.popOr "No key provided." with
  | error missing =>
    rw [popped] at fails
    cases fails
    obtain ⟨empty,rfl⟩ := popOr_fails popped
    exact .noKey empty
  | ok taken =>
    obtain ⟨key,rest⟩ := taken
    obtain rfl := popOr_takes popped
    rw [popped] at fails
    cases explicit : Phrase.explicitLocale { arguments with position := arguments.position + 1 } occurrence with
    | error wrong =>
      simp only [bind,Except.bind,explicit] at fails
      cases fails
      obtain ⟨value,reason,second,parsed,rfl⟩ := explicit_fails explicit
      exact .noLocale second parsed
    | ok locale =>
      simp only [bind,Except.bind,explicit] at fails
      split at fails <;> cases fails

theorem phrase_raised (fails : PhraseFails arguments occurrence fault) : Raised arguments occurrence fault := by
  cases fails with
  | noKey empty =>
    have popped : arguments.popOr "No key provided." = .error (.tag "No key provided." arguments.site none) := by
      simp [Arguments.popOr,Arguments.pop,empty]
    exact .missing ⟨rfl,rfl⟩ popped
  | noLocale second wrong => exact .argument _ _ _

theorem definition_raised {definition : Definition} (fair : definition.Fair)
    (fails : (definition.resolve name arguments occurrence).outcome = .error fault) :
    Raised arguments occurrence fault := by
  cases definition with
  | fixed tag => cases fails
  | deferred supplier => cases fails
  | function run => exact fair _ _ _ fails
  | phrase installed => exact phrase_raised (phrase_fails fails)

theorem map_fails {outcome : Except ε α} (fails : outcome.map view = .error fault) : outcome = .error fault := by
  cases outcome with
  | ok value => cases fails
  | error other =>
    cases fails
    rfl

theorem fair_moved {reply : Reply} (moved : arguments.Moved left) (fair : reply.Fair left occurrence) :
    reply.Fair arguments occurrence := by
  obtain ⟨values,site⟩ := moved
  constructor
  · exact ⟨fair.moved.1.trans values,fair.moved.2.trans site⟩
  · intro fault fails
    cases fair.raised fails with
    | failure message => exact .failure message
    | argument message index value => exact .argument message index value
    | missing moved popped => exact .missing ⟨moved.1.trans values,moved.2.trans site⟩ popped

theorem followedBy_fair {reply : Reply} (fair : reply.Fair arguments occurrence)
    (behind : ∀ left, arguments.Moved left → (next left).Fair arguments occurrence) :
    (followedBy reply next).Fair arguments occurrence := by
  have later := behind reply.arguments fair.moved
  unfold followedBy
  split
  · exact ⟨later.moved,later.raised⟩
  · exact fair

theorem resolve_fair (each : ∀ entry ∈ entries, ∀ arguments, entry.claims name = true →
      (entry.resolve name arguments occurrence).Fair arguments occurrence) (arguments : Arguments) :
    (resolveNewest name arguments occurrence entries).Fair arguments occurrence := by
  induction entries generalizing arguments with
  | nil =>
    rw [resolve_nil]
    exact ⟨⟨rfl,rfl⟩,nofun⟩
  | cons entry older ih =>
    obtain ⟨first,rest⟩ := List.forall_mem_cons.mp each
    rw [resolve_cons]
    split
    · rename_i claims
      apply followedBy_fair (first arguments claims)
      intro left moved
      have restarted : arguments.Moved left.reset := moved
      exact fair_moved restarted (ih rest left.reset)
    · exact ih rest arguments

theorem entry_fair {entry : Entry} (fair : entry.Fair) (arguments : Arguments)
    (claims : entry.claims name = true) :
    (entry.resolve name arguments occurrence).Fair arguments occurrence := by
  induction fair generalizing arguments with
  | named own fair =>
    rw [Entry.resolve]
    refine ⟨⟨rfl,rfl⟩,?_⟩
    intro fault fails
    exact definition_raised fair (map_fails fails)
  | nested each ih =>
    rw [Entry.resolve]
    exact resolve_fair ih arguments
  | custom fair =>
    rw [Entry.claims] at claims
    rw [Entry.resolve]
    exact fair name arguments occurrence claims

theorem registry_fair {registry : Registry} (fair : ∀ entry ∈ registry.entries, entry.Fair) :
    registry.resolver.Fair := by
  intro name arguments occurrence _
  apply resolve_fair
  exact fun entry member => entry_fair (fair entry member)

mutual
-- The definition that an answer comes from, unless a resolver of another kind gives it.
def Entry.decider (name : String) (arguments : Arguments) (occurrence : Occurrence) : Entry → Option Definition
  | .named _ definition => some definition
  | .nested entries => decider name arguments occurrence entries
  | .custom _ => none
def decider (name : String) (arguments : Arguments) (occurrence : Occurrence) : List Entry → Option Definition
  | [] => none
  | entry :: older =>
    if entry.claims name then
      match (entry.resolve name arguments occurrence).outcome with
      | .ok none =>
        decider name (entry.resolve name arguments occurrence).arguments.reset occurrence older
      | _ => entry.decider name arguments occurrence
    else decider name arguments occurrence older
end

theorem decider_answers (each : ∀ entry ∈ entries, entry.Fair ∧
      (entry.decider name arguments occurrence = some definition →
        (entry.resolve name arguments occurrence).outcome =
          (definition.resolve name arguments occurrence).outcome.map some))
    (start : arguments.position = 0) (found : decider name arguments occurrence entries = some definition) :
    (resolveNewest name arguments occurrence entries).outcome =
      (definition.resolve name arguments occurrence).outcome.map some := by
  induction entries with
  | nil => cases found
  | cons entry older ih =>
    obtain ⟨⟨fair,answers⟩,rest⟩ := List.forall_mem_cons.mp each
    rw [decider] at found
    rw [resolve_cons]
    split at found
    · rename_i claims
      have kept : (entry.resolve name arguments occurrence).Fair arguments occurrence :=
        entry_fair fair arguments claims
      have again : (entry.resolve name arguments occurrence).arguments.reset = arguments := by
        obtain ⟨values,site⟩ := kept.moved
        unfold Arguments.reset
        rw [values,site,← start]
      rw [if_pos claims]
      split at found
      · rename_i passed
        rw [again] at found
        rw [followedBy_passed passed,again]
        exact ih rest found
      · rename_i decided
        rw [followedBy_decided decided]
        exact answers found
    · rename_i unclaimed
      rw [if_neg unclaimed]
      exact ih rest found

theorem entry_answers {entry : Entry} (fair : entry.Fair) (start : arguments.position = 0)
    (found : entry.decider name arguments occurrence = some definition) :
    (entry.resolve name arguments occurrence).outcome =
      (definition.resolve name arguments occurrence).outcome.map some := by
  induction fair with
  | named own fair =>
    rw [Entry.decider] at found
    cases found
    rw [Entry.resolve]
  | nested each ih =>
    rw [Entry.decider] at found
    rw [Entry.resolve]
    apply decider_answers _ start found
    exact fun entry member => ⟨each entry member,ih entry member⟩
  | custom fair =>
    rw [Entry.decider] at found
    cases found

theorem request_phrase_fails {registry : Registry} (fair : ∀ entry ∈ registry.entries, entry.Fair)
    (found : decider site.name (Arguments.ofList site arguments) ⟨site,depth⟩ registry.entries =
      some (.phrase phrase))
    (refused : (registry.resolver.request depth site arguments).outcome = .error fault) :
    PhraseFails (Arguments.ofList site arguments) ⟨site,depth⟩ fault := by
  have answer := decider_answers (fun entry member => ⟨fair entry member,entry_answers (fair entry member) rfl⟩)
    rfl found
  unfold Resolver.request at refused
  split at refused
  · apply phrase_fails
    apply map_fails
    rw [← refused]
    exact answer.symm
  · cases refused

-- A reading under any limit fails at one tag, to which the markups of tags lead, each
-- with all tags before it handled. The failure has the text and the place of this tag.
theorem parse_blames {registry : Registry} (fair : ∀ entry ∈ registry.entries, entry.Fair)
    (fails : ((Engine.mk limit).parse template registry.resolver).outcome = .error fault) :
    ∃ depth text site arguments,
      FailsAt registry.resolver limit template fault depth text site arguments ∧ fault.site = site ∧
      (∀ stated named, fault = .depthExceeded stated named → stated = limit ∧ depth = limit) ∧
      ∀ phrase message argument,
        decider site.name (Arguments.ofList site arguments) ⟨site,depth⟩ registry.entries =
          some (.phrase phrase) →
        fault = .tag message site argument →
          (arguments = [] ∧ message = "No key provided." ∧ argument = none) ∨
            ∃ value reason, arguments[1]? = some value ∧ Locale.parseTag value = .error reason ∧
              message = "Invalid language tag " ++ value ++ "." ∧ argument = some ⟨1,value⟩ := by
  obtain ⟨depth,text,site,arguments,there⟩ := parse_fails fails
  obtain ⟨named,full⟩ := stops_site (registry_fair fair) there.stops
  refine ⟨depth,text,site,arguments,there,named,full,?_⟩
  intro phrase message argument found equal
  cases there.stops with
  | tooDeep => cases equal
  | refused refused =>
    cases request_phrase_fails fair found refused with
    | noKey empty =>
      cases equal
      have short : arguments.length ≤ 0 := List.getElem?_eq_none_iff.mp empty
      exact .inl ⟨List.length_eq_zero_iff.mp (Nat.le_zero.mp short),rfl,rfl⟩
    | noLocale second wrong =>
      cases equal
      exact .inr ⟨_,_,second,wrong,rfl,rfl⟩

def noteTags : Registry where
  entries := [.named "note" (.fixed (.markup "é\\<<phrase:'k':'?>'>")),
    .nested [.named phraseName (.phrase ⟨.empty,⟨"en"⟩,none⟩)]]

def noteSite : Site := ⟨"phrase","<phrase:'k':'?>'>",4⟩

def noteFailure : Failure := .tag "Invalid language tag ?>." noteSite (some ⟨1,"?>"⟩)

theorem parse_blames_phrase :
    (∀ entry ∈ noteTags.entries, entry.Fair) ∧
    ((Engine.mk 1).parse "ü<note>" noteTags.resolver).outcome = .error noteFailure ∧
    ∃ depth text arguments, FailsAt noteTags.resolver 1 "ü<note>" noteFailure depth text noteSite arguments := by
  have fair : ∀ entry ∈ noteTags.entries, entry.Fair := by
    have phrase : ∀ entry ∈ [Entry.named phraseName (.phrase ⟨.empty,⟨"en"⟩,none⟩)], entry.Fair :=
      List.forall_mem_singleton.mpr (.named _ trivial)
    exact List.forall_mem_cons.mpr ⟨.named _ trivial,List.forall_mem_singleton.mpr (.nested phrase)⟩
  have fails : ((Engine.mk 1).parse "ü<note>" noteTags.resolver).outcome = .error noteFailure := by
    decide +kernel
  obtain ⟨depth,text,site,arguments,there,named,_⟩ := parse_blames fair fails
  cases named
  exact ⟨fair,fails,depth,text,arguments,there⟩

end Phrasebook.Tags
