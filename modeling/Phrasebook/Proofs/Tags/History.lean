import Phrasebook.Proofs.Tags.Resolution
import Phrasebook.Tags.Builder
namespace Phrasebook.Tags
open Template

-- A builder keeps one definition of a name and drops the earlier ones. That is
-- never seen: its registry answers as a log from which nothing was ever removed.

inductive Meaning where
  | unparsed (value : String)
  | parsed (value : String)
  | component (node : RichText.Node)
  | tag (tag : Tag)
  | deferred (supplier : Unit → Tag)
  | function (run : Arguments → Occurrence → Except Failure Tag)

def Meaning.definition : Meaning → Definition
  | .unparsed value => .fixed (.text value)
  | .parsed value => .fixed (.markup value)
  | .component node => .fixed (.insert node)
  | .tag given => .fixed given
  | .deferred supplier => .deferred supplier
  | .function run => .function run

def Builder.give (builder : Builder) (name : String) : Meaning → Builder
  | .unparsed value => builder.unparsed name value
  | .parsed value => builder.parsed name value
  | .component node => builder.component name node
  | .tag given => builder.tag name given
  | .deferred supplier => builder.deferred name supplier
  | .function run => builder.function name run

-- The operations on one builder, the last one outermost. A registry that is
-- nested or merged has a history of its own, or is taken as it stands.
inductive History where
  | start (phrases : Option PhraseSource)
  | standing (registry : Registry)
  | give (before : History) (name : String) (meaning : Meaning)
  | phraseTag (before : History) (locale : Option Locale)
  | custom (before : History) (resolver : Resolver)
  | nest (before inner : History)
  | merge (before inner : History)

namespace History

-- A registry that cannot be built cannot be used either.
def replay : History → Except BuildFault Builder
  | .start phrases => .ok ⟨[],phrases,none⟩
  | .standing registry => .ok ⟨registry.entries,none,none⟩
  | .give before name meaning => do return (← before.replay).give name meaning
  | .phraseTag before locale => do return (← before.replay).withPhraseTag locale
  | .custom before resolver => do return (← before.replay).custom resolver
  | .nest before inner => do
    let builder ← before.replay
    return builder.nest (← (← inner.replay).build)
  | .merge before inner => do
    let builder ← before.replay
    return builder.merge (← (← inner.replay).build)

def build (history : History) : Except BuildFault Registry := do (← history.replay).build

def phrases : History → Option PhraseSource
  | .start phrases => phrases
  | .standing _ => none
  | .give before _ _ => before.phrases
  | .phraseTag before _ => before.phrases
  | .custom before _ => before.phrases
  | .nest before _ => before.phrases
  | .merge before _ => before.phrases

end History

inductive Record where
  | definition (name : String) (definition : Definition)
  | resolver (resolver : Resolver)

def Record.claims (name : String) : Record → Bool
  | .definition own _ => own == name
  | .resolver asked => asked.has name

-- The newest record stands first. The first definition of the name answers; so
-- does a resolver that claims it, unless it produces nothing.
def search (name : String) (arguments : Arguments) (occurrence : Occurrence) : List Record → Reply
  | [] => ⟨[],.ok none,arguments⟩
  | .definition own definition :: older =>
    if own = name then
      let answer := definition.resolve name arguments occurrence
      ⟨answer.calls,answer.outcome.map some,arguments⟩
    else search name arguments occurrence older
  | .resolver resolver :: older =>
    if resolver.has name then
      match resolver.resolve name arguments occurrence with
      | ⟨calls,.ok none,left⟩ =>
        let later := search name left.reset occurrence older
        ⟨calls ++ later.calls,later.outcome,later.arguments⟩
      | reply => reply
    else search name arguments occurrence older

-- Oldest first: a log only grows at its end.
structure Log where
  records : List Record

namespace Log

def has (log : Log) (name : String) : Bool := log.records.any (Record.claims name)

def resolve (log : Log) (name : String) (arguments : Arguments) (occurrence : Occurrence) : Reply :=
  search name arguments occurrence log.records.reverse

def resolver (log : Log) : Resolver := ⟨log.has,log.resolve⟩

def append (log : Log) (records : List Record) : Log := ⟨log.records ++ records⟩

end Log

def Entry.record : Entry → Record
  | .named name definition => .definition name definition
  | .nested entries => .resolver (Registry.mk entries).resolver
  | .custom resolver => .resolver resolver

def History.log : History → Log
  | .start _ => ⟨[]⟩
  | .standing registry => ⟨registry.entries.reverse.map Entry.record⟩
  | .give before name meaning => before.log.append [.definition name meaning.definition]
  | .phraseTag before locale => before.log.append <| before.phrases.toList.map fun source =>
      .definition phraseName (.phrase ⟨source.catalog,source.defaultLocale,locale⟩)
  | .custom before resolver => before.log.append [.resolver resolver]
  | .nest before inner => before.log.append [.resolver inner.log.resolver]
  | .merge before inner => before.log.append inner.log.records

theorem search_definition (name : String) (arguments : Arguments) (occurrence : Occurrence)
    (own : String) (definition : Definition) (older : List Record) :
    search name arguments occurrence (.definition own definition :: older) =
      if own = name then (Entry.named own definition).resolve name arguments occurrence
      else search name arguments occurrence older := by
  rw [search,Entry.resolve]

theorem search_resolver (name : String) (arguments : Arguments) (occurrence : Occurrence)
    (resolver : Resolver) (older : List Record) :
    search name arguments occurrence (.resolver resolver :: older) =
      if resolver.has name then followedBy (resolver.resolve name arguments occurrence) fun left =>
        search name left.reset occurrence older
      else search name arguments occurrence older := by
  rw [search]
  rcases resolver.resolve name arguments occurrence with ⟨calls,failure | tag,left⟩
  · rfl
  · cases tag <;> rfl

theorem search_append (name : String) (arguments : Arguments) (occurrence : Occurrence)
    (newer older : List Record) :
    search name arguments occurrence (newer ++ older) =
      followedBy (search name arguments occurrence newer) fun left => search name left occurrence older := by
  induction newer generalizing arguments with
  | nil => rw [List.nil_append,search,← declined,followedBy_declined]
  | cons record rest ih =>
    cases record with
    | definition own definition =>
      rw [List.cons_append,search_definition,search_definition]
      split
      · rw [followedBy_named]
      · exact ih arguments
    | resolver resolver =>
      rw [List.cons_append,search_resolver,search_resolver]
      split
      · simp only [followedBy_assoc,ih]
      · exact ih arguments

-- Entries and records, both newest first, that cannot be told apart.
structure Matches (entries : List Entry) (records : List Record) : Prop where
  claims : ∀ name, claimed name entries = records.any (Record.claims name)
  answers : ∀ name arguments occurrence,
    resolveNewest name arguments occurrence entries = search name arguments occurrence records

namespace Matches

theorem nil : Matches [] [] := by
  constructor
  · intro name
    rw [claimed,List.any_nil]
  · intro name arguments occurrence
    rw [resolve_nil,search,declined]

theorem cons (matching : Matches entries records) (entry : Entry) :
    Matches (entry :: entries) (entry.record :: records) := by
  constructor
  · intro name
    rw [claimed_cons,List.any_cons,matching.claims]
    cases entry with
    | named own definition => rw [Entry.claims,Entry.record,Record.claims]
    | nested inner =>
      rw [Entry.claims,Entry.record,Record.claims]
      rfl
    | custom resolver => rw [Entry.claims,Entry.record,Record.claims]
  · intro name arguments occurrence
    rw [resolve_cons]
    simp only [matching.answers]
    cases entry with
    | named own definition =>
      simp only [Entry.record,search_definition,followedBy_named,Entry.claims,beq_iff_eq]
    | nested inner =>
      simp only [Entry.record,search_resolver,Entry.claims,Entry.resolve]
      rfl
    | custom resolver =>
      simp only [Entry.record,search_resolver,Entry.claims,Entry.resolve]
      rfl

theorem all (entries : List Entry) : Matches entries (entries.map Entry.record) := by
  induction entries with
  | nil => exact nil
  | cons entry rest ih => exact ih.cons entry

theorem append (newer : Matches one records) (older : Matches two records') :
    Matches (one ++ two) (records ++ records') := by
  constructor
  · intro name
    rw [claimed_append,List.any_append,newer.claims,older.claims]
  · intro name arguments occurrence
    rw [resolve_append,search_append,newer.answers]
    simp only [older.answers]

theorem replace (matching : Matches entries records)
    (claims : ∀ name, claimed name other = claimed name entries)
    (answers : ∀ name arguments occurrence,
      resolveNewest name arguments occurrence other = resolveNewest name arguments occurrence entries) :
    Matches other records := by
  constructor
  · intro name
    rw [claims,matching.claims]
  · intro name arguments occurrence
    rw [answers,matching.answers]

end Matches

theorem withoutNamed_cons (own : String) (entry : Entry) (older : List Entry) :
    withoutNamed own (entry :: older) =
      if entry.isNamed own then withoutNamed own older else entry :: withoutNamed own older := by
  rw [withoutNamed,List.filter_cons]
  cases entry.isNamed own <;> rfl

theorem named_claims {entry : Entry} (named : entry.isNamed own = true) (differ : own ≠ name) :
    entry.claims name = false := by
  cases entry with
  | named given definition =>
    have same : given = own := by simpa [Entry.isNamed] using named
    rw [Entry.claims,same]
    exact beq_eq_false_iff_ne.mpr differ
  | nested inner => cases named
  | custom resolver => cases named

theorem claimed_withoutNamed (differ : own ≠ name) (entries : List Entry) :
    claimed name (withoutNamed own entries) = claimed name entries := by
  induction entries with
  | nil => rfl
  | cons entry older ih =>
    rw [withoutNamed_cons,claimed_cons]
    split
    · rename_i named
      rw [named_claims named differ,Bool.false_or]
      exact ih
    · rw [claimed_cons,ih]

theorem resolve_withoutNamed (differ : own ≠ name) (arguments : Arguments) (occurrence : Occurrence)
    (entries : List Entry) :
    resolveNewest name arguments occurrence (withoutNamed own entries) =
      resolveNewest name arguments occurrence entries := by
  induction entries generalizing arguments with
  | nil => rfl
  | cons entry older ih =>
    rw [withoutNamed_cons,resolve_cons]
    split
    · rename_i named
      rw [named_claims named differ]
      exact ih arguments
    · rw [resolve_cons]
      simp only [ih]

namespace Matches

theorem add (matching : Matches entries records) (entry : Entry) :
    Matches (add entry entries) (entry.record :: records) := by
  cases entry with
  | nested inner => exact matching.cons (.nested inner)
  | custom resolver => exact matching.cons (.custom resolver)
  | named own definition =>
    refine (matching.cons (.named own definition)).replace ?_ ?_
    · intro name
      rw [Tags.add,claimed_cons,claimed_cons]
      by_cases same : own = name
      · simp [Entry.claims,same]
      · rw [claimed_withoutNamed same]
    · intro name arguments occurrence
      rw [Tags.add,resolve_cons,resolve_cons]
      by_cases same : own = name
      · -- what stands behind a definition that answers is not asked
        have claims : (Entry.named own definition).claims name = true := by simp [Entry.claims,same]
        rw [if_pos claims,if_pos claims,followedBy_named,followedBy_named]
      · simp only [resolve_withoutNamed same]

theorem addAll (matching : Matches entries records) (newer : List Entry) :
    Matches (newer.foldr Tags.add entries) (newer.map Entry.record ++ records) := by
  induction newer with
  | nil => exact matching
  | cons entry rest ih => exact ih.add entry

theorem merge (older : Matches entries records) (newer : Matches merged log) :
    Matches (merged.foldr Tags.add entries) (log ++ records) := by
  have added := older.addAll merged
  have listed := (all merged).append older
  refine (newer.append older).replace ?_ ?_
  · intro name
    rw [added.claims,listed.claims]
  · intro name arguments occurrence
    rw [added.answers,listed.answers]

theorem resolver_eq (matching : Matches entries records.reverse) :
    (Registry.mk entries).resolver = (Log.mk records).resolver := by
  have claims : (Registry.mk entries).has = (Log.mk records).has := by
    funext name
    rw [Registry.has,matching.claims,List.any_reverse,Log.has]
  have answers : (fun name arguments occurrence => resolveNewest name arguments occurrence entries) =
      (Log.mk records).resolve := by
    funext name arguments occurrence
    exact matching.answers name arguments occurrence
  rw [Registry.resolver,Log.resolver,claims,answers]

end Matches

theorem bind_ok {first : Except ε α} {next : α → Except ε β} (ran : (first >>= next) = .ok value) :
    ∃ middle, first = .ok middle ∧ next middle = .ok value := by
  cases first with
  | error fault => cases ran
  | ok middle => exact ⟨middle,rfl,ran⟩

theorem build_parts {builder : Builder} (built : builder.build = .ok registry) :
    builder.fault = none ∧ registry = ⟨builder.entries⟩ := by
  unfold Builder.build at built
  split at built
  · cases built
  · rename_i clean
    cases built
    exact ⟨clean,rfl⟩

theorem blame_fault (builder : Builder) (fault : BuildFault) : (builder.blame fault).fault ≠ none := by
  simp [Builder.blame]

theorem give_defines (builder : Builder) (name : String) (meaning : Meaning) :
    builder.give name meaning = builder.define name meaning.definition := by
  cases meaning <;> rfl

theorem define_parts {builder : Builder} (clean : (builder.define name definition).fault = none) :
    builder.define name definition =
      { builder with entries := add (.named name definition) builder.entries } := by
  unfold Builder.define at clean ⊢
  split at clean
  · rename_i valid
    rw [if_pos valid]
  · exact absurd clean (blame_fault builder _)

structure Faithful (history : History) (builder : Builder) : Prop where
  phrases : builder.phrases = history.phrases
  matching : Matches builder.entries history.log.records.reverse

theorem faithful_defines (faithful : Faithful before builder) (log : after.log.records =
      before.log.records ++ [.definition name definition]) (phrases : after.phrases = before.phrases) :
    Faithful after { builder with entries := add (.named name definition) builder.entries } := by
  refine ⟨faithful.phrases.trans phrases.symm,?_⟩
  rw [log,List.reverse_append]
  exact faithful.matching.add (.named name definition)

theorem replay_faithful {history : History} {builder : Builder} (ran : history.replay = .ok builder)
    (clean : builder.fault = none) : Faithful history builder := by
  induction history generalizing builder with
  | start phrases =>
    cases ran
    exact ⟨rfl,.nil⟩
  | standing registry =>
    cases ran
    refine ⟨rfl,?_⟩
    rw [History.log,← List.map_reverse,List.reverse_reverse]
    exact .all registry.entries
  | give before name meaning ih =>
    obtain ⟨earlier,ranEarlier,given⟩ := bind_ok ran
    cases given
    rw [give_defines] at clean ⊢
    have defined := define_parts clean
    rw [defined] at clean ⊢
    exact faithful_defines (ih ranEarlier clean) rfl rfl
  | phraseTag before locale ih =>
    obtain ⟨earlier,ranEarlier,given⟩ := bind_ok ran
    cases given
    unfold Builder.withPhraseTag at clean ⊢
    cases source : earlier.phrases with
    | none =>
      rw [source] at clean
      exact absurd clean (blame_fault earlier _)
    | some reading =>
      rw [source] at clean
      have defined := define_parts clean
      simp only at defined clean ⊢
      rw [defined] at clean ⊢
      have faithful := ih ranEarlier clean
      refine faithful_defines faithful ?_ rfl
      rw [History.log,← faithful.phrases,source]
      rfl
  | custom before resolver ih =>
    obtain ⟨earlier,ranEarlier,given⟩ := bind_ok ran
    cases given
    have faithful := ih ranEarlier clean
    refine ⟨faithful.phrases,?_⟩
    rw [History.log,Log.append,List.reverse_append]
    exact faithful.matching.cons (.custom resolver)
  | nest before inner ih ihInner =>
    obtain ⟨earlier,ranEarlier,later⟩ := bind_ok ran
    obtain ⟨within,ranWithin,later⟩ := bind_ok later
    obtain ⟨registry,built,given⟩ := bind_ok later
    cases given
    obtain ⟨cleanWithin,rfl⟩ := build_parts built
    have faithful := ih ranEarlier clean
    have same := (ihInner ranWithin cleanWithin).matching.resolver_eq
    refine ⟨faithful.phrases,?_⟩
    rw [History.log,Log.append,List.reverse_append,← same]
    exact faithful.matching.cons (.nested within.entries)
  | merge before inner ih ihInner =>
    obtain ⟨earlier,ranEarlier,later⟩ := bind_ok ran
    obtain ⟨within,ranWithin,later⟩ := bind_ok later
    obtain ⟨registry,built,given⟩ := bind_ok later
    cases given
    obtain ⟨cleanWithin,rfl⟩ := build_parts built
    have faithful := ih ranEarlier clean
    refine ⟨faithful.phrases,?_⟩
    rw [History.log,Log.append,List.reverse_append]
    exact faithful.matching.merge (ihInner ranWithin cleanWithin).matching

-- Whatever a builder went through, its registry claims what the log claims and
-- gives the answers, failures and calls of a search through the log.
theorem build_answers_log {history : History} {registry : Registry} (built : history.build = .ok registry) :
    (∀ name, registry.resolver.has name = history.log.has name) ∧
    ∀ name arguments occurrence,
      registry.resolver.resolve name arguments occurrence = history.log.resolve name arguments occurrence := by
  obtain ⟨builder,ran,built⟩ := bind_ok built
  obtain ⟨clean,rfl⟩ := build_parts built
  have same := (replay_faithful ran clean).matching.resolver_eq
  rw [same]
  exact ⟨fun _ => rfl,fun _ _ _ => rfl⟩

theorem build_answers_log_overridden :
    let greedy : Resolver := ⟨fun _ => true,fun _ arguments _ => ⟨[],.ok none,arguments.pop.2⟩⟩
    let echo : Meaning := .function fun arguments _ => .ok (.text (arguments.peek.getD "?"))
    let inner : History := ((History.start none).give "a" (.unparsed "1")).give "a" (.unparsed "2")
    let history := (((((History.start none).give "a" (.unparsed "0")).custom greedy).give "b" echo).merge
      inner).nest ((History.start none).custom greedy)
    let registry : Registry := ⟨[.nested [.custom greedy],.named "a" (.fixed (.text "2")),
      .named "b" echo.definition,.custom greedy]⟩
    let arguments : Arguments := ⟨["x"],0,⟨"b","<b:x>",0⟩⟩
    let occurrence : Occurrence := ⟨arguments.site,0⟩
    history.build = .ok registry ∧ history.log.records.length = 6 ∧ history.log.has "c" = true ∧
      history.log.resolve "a" arguments occurrence = ⟨[],.ok (some (.text "2")),arguments⟩ ∧
      history.log.resolve "b" arguments occurrence = ⟨["b"],.ok (some (.text "x")),arguments⟩ := by
  intro greedy echo inner history registry arguments occurrence
  have built : history.build = .ok registry := by rfl
  obtain ⟨claims,answers⟩ := build_answers_log built
  refine ⟨built,by rfl,?_,?_,?_⟩
  · rw [← claims]
    rfl
  · rw [← answers]
    rfl
  · rw [← answers]
    rfl

end Phrasebook.Tags
