import Phrasebook.Proofs.Tags.Declining
import Phrasebook.Proofs.Tags.History
namespace Phrasebook.Tags
open Template

-- Operations on a builder as data, and builders that no operation tells apart. A
-- registry that is merged answers as one that is nested.

-- A registry that is nested or merged has been built before.
inductive Operation where
  | give (name : String) (meaning : Meaning)
  | phraseTag (locale : Option Locale)
  | custom (resolver : Resolver)
  | nest (registry : Registry)
  | merge (registry : Registry)

namespace Builder

def start (phrases : Option PhraseSource) : Builder := ⟨[],phrases,none⟩

def perform (builder : Builder) : Operation → Builder
  | .give name meaning => builder.give name meaning
  | .phraseTag locale => builder.withPhraseTag locale
  | .custom resolver => builder.custom resolver
  | .nest registry => builder.nest registry
  | .merge registry => builder.merge registry

def performAll (builder : Builder) (operations : List Operation) : Builder :=
  operations.foldl perform builder

theorem performAll_append (builder : Builder) (earlier later : List Operation) :
    builder.performAll (earlier ++ later) = (builder.performAll earlier).performAll later :=
  List.foldl_append

end Builder

structure Builder.Backed (behind : List Record) (one two : Builder) : Prop where
  phrases : one.phrases = two.phrases
  fault : one.fault = two.fault
  answers : ∃ records, Matches one.entries records ∧ Matches two.entries (records ++ behind)

namespace Builder.Backed
variable {behind : List Record}

theorem defines (backed : Backed behind one two) (name : String) (definition : Definition) :
    Backed behind (one.define name definition) (two.define name definition) := by
  obtain ⟨phrases,fault,records,first,second⟩ := backed
  unfold Builder.define
  split
  · exact ⟨phrases,fault,_,first.add (.named name definition),second.add (.named name definition)⟩
  · exact ⟨phrases,by rw [Builder.blame,Builder.blame,fault],records,first,second⟩

theorem performs (backed : Backed behind one two) (operation : Operation) :
    Backed behind (one.perform operation) (two.perform operation) := by
  cases operation with
  | give name meaning =>
    rw [Builder.perform,Builder.perform,give_defines,give_defines]
    exact backed.defines name _
  | phraseTag locale =>
    rw [Builder.perform,Builder.perform,Builder.withPhraseTag,Builder.withPhraseTag,backed.phrases]
    cases two.phrases with
    | some source => exact backed.defines phraseName _
    | none =>
      obtain ⟨phrases,fault,answers⟩ := backed
      exact ⟨phrases,by rw [Builder.blame,Builder.blame,fault],answers⟩
  | custom resolver =>
    obtain ⟨phrases,fault,records,first,second⟩ := backed
    exact ⟨phrases,fault,_,first.cons (.custom resolver),second.cons (.custom resolver)⟩
  | nest registry =>
    obtain ⟨phrases,fault,records,first,second⟩ := backed
    exact ⟨phrases,fault,_,first.cons (.nested registry.entries),second.cons (.nested registry.entries)⟩
  | merge registry =>
    obtain ⟨phrases,fault,records,first,second⟩ := backed
    refine ⟨phrases,fault,_,first.addAll registry.entries,?_⟩
    rw [List.append_assoc]
    exact second.addAll registry.entries

theorem performs_all (backed : Backed behind one two) (operations : List Operation) :
    Backed behind (one.performAll operations) (two.performAll operations) := by
  induction operations generalizing one two with
  | nil => exact backed
  | cons operation later ih => exact ih (backed.performs operation)

end Builder.Backed

-- A registry of its own comes back to the first argument when all that claimed the
-- name have declined, and so do its entries when they stand among others.

theorem followedBy_congr {reply : Reply} {next next' : Arguments → Reply}
    (same : reply.outcome = .ok none → next reply.arguments = next' reply.arguments) :
    followedBy reply next = followedBy reply next' := by
  by_cases passed : reply.outcome = .ok none
  · simp only [followedBy,passed,same passed]
  · rw [followedBy_decided passed,followedBy_decided passed]

theorem followedBy_rewound {reply : Reply} {next : Arguments → Reply}
    (behind : ∀ left, (next left).outcome = .ok none → (next left).arguments.reset = (next left).arguments)
    (passed : (followedBy reply next).outcome = .ok none) :
    (followedBy reply next).arguments.reset = (followedBy reply next).arguments := by
  by_cases first : reply.outcome = .ok none
  · rw [followedBy_passed first] at passed
    have rewound := behind reply.arguments passed
    simpa only [followedBy,first] using rewound
  · rw [followedBy_decided first] at passed
    exact absurd passed first

theorem claimed_rewound {entries : List Entry} {name : String} {occurrence : Occurrence}
    (claims : claimed name entries = true) (arguments : Arguments)
    (passed : (resolveNewest name arguments occurrence entries).outcome = .ok none) :
    (resolveNewest name arguments occurrence entries).arguments.reset =
      (resolveNewest name arguments occurrence entries).arguments := by
  induction entries generalizing arguments with
  | nil => cases claims
  | cons entry older ih =>
    rw [resolve_cons] at passed ⊢
    by_cases here : entry.claims name = true
    · rw [if_pos here] at passed ⊢
      apply followedBy_rewound _ passed
      intro left
      cases rest : claimed name older with
      | true => exact ih rest left.reset
      | false =>
        rw [resolve_unclaimed rest]
        exact fun _ => rfl
    · rw [if_neg here] at passed ⊢
      rw [claimed_cons,Bool.eq_false_iff.mpr here,Bool.false_or] at claims
      exact ih claims arguments passed

theorem resolve_nested (name : String) (arguments : Arguments) (occurrence : Occurrence)
    (entries older : List Entry) :
    resolveNewest name arguments occurrence (.nested entries :: older) =
      resolveNewest name arguments occurrence (entries ++ older) := by
  rw [resolve_cons,resolve_append,Entry.claims,Entry.resolve]
  by_cases claims : claimed name entries = true
  · rw [if_pos claims]
    apply followedBy_congr
    intro passed
    rw [claimed_rewound claims arguments passed]
  · rw [if_neg claims,resolve_unclaimed (Bool.eq_false_iff.mpr claims),followedBy_declined]

theorem matches_resolver (one : Matches entries records) (two : Matches entries' records) :
    (Registry.mk entries).resolver = (Registry.mk entries').resolver := by
  rw [← List.reverse_reverse records] at one two
  rw [one.resolver_eq,two.resolver_eq]

theorem backed_built {one two : Builder} {older : List Entry} (backed : Builder.Backed (older.map Entry.record) one two) :
    (∃ fault, one.build = .error fault ∧ two.build = .error fault) ∨
      ∃ own whole, one.build = .ok own ∧ two.build = .ok whole ∧
        whole.resolver = (Registry.mk (own.entries ++ older)).resolver := by
  obtain ⟨_,fault,records,first,second⟩ := backed
  unfold Builder.build
  rw [fault]
  cases two.fault with
  | some fault => exact .inl ⟨fault,rfl,rfl⟩
  | none => exact .inr ⟨_,_,rfl,rfl,matches_resolver second (first.append (.all older))⟩

theorem merged_backed (builder : Builder) (registry : Registry) :
    Builder.Backed [] (builder.merge registry) (builder.nest registry) := by
  have older := Matches.all builder.entries
  have listed := (Matches.all registry.entries).append older
  refine ⟨rfl,rfl,_,older.addAll registry.entries,?_⟩
  rw [List.append_nil]
  refine listed.replace ?_ ?_
  · intro name
    rw [Builder.nest,claimed_cons,claimed_append,Entry.claims]
  · intro name arguments occurrence
    exact resolve_nested name arguments occurrence registry.entries builder.entries

-- Whatever is done afterwards, a registry that was merged into a builder and one that
-- was nested in it lead to the same claims, answers, failures, calls and readings.
theorem merge_like_nest (builder : Builder) (registry : Registry) (operations : List Operation) :
    let merged := (builder.merge registry).performAll operations
    let nested := (builder.nest registry).performAll operations
    (∃ fault, merged.build = .error fault ∧ nested.build = .error fault) ∨
      ∃ one two, merged.build = .ok one ∧ nested.build = .ok two ∧
        (∀ name, one.resolver.has name = two.resolver.has name) ∧
        (∀ name arguments occurrence, one.resolver.resolve name arguments occurrence =
          two.resolver.resolve name arguments occurrence) ∧
        ∀ (engine : Engine) template, engine.parse template one.resolver = engine.parse template two.resolver := by
  intro merged nested
  have backed : Builder.Backed (List.map Entry.record []) merged nested :=
    (merged_backed builder registry).performs_all operations
  obtain failed | ⟨one,two,built,built',same⟩ := backed_built backed
  · exact .inl failed
  · rw [List.append_nil] at same
    refine .inr ⟨one,two,built,built',?_,?_,?_⟩
    · exact fun name => congrArg (fun resolver : Resolver => resolver.has name) same.symm
    · exact fun name arguments occurrence =>
        congrArg (fun resolver : Resolver => resolver.resolve name arguments occurrence) same.symm
    · exact fun engine template => congrArg (engine.parse template) same.symm

end Phrasebook.Tags
